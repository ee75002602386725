import AudioReach.Amdb.Nodes
import AudioReach.Library.Assign
import AudioReach.Library.Holdings

/-!
# The references of the module database are exact

Each counter of a node is compared with the owners of its references: the handles and the
instances, each in the state it has reached.  A step touches one node and its owners only, so that
the comparison has to be made for that node alone (`Frame`).

A dynamic module whose library can not be opened is run from the image if it has a replacement
there, with no library at all.  A version query takes no reference and leaves the library it opened
behind; what is said here is said for queries that find their node and do not open a library
(`Fits`).
-/

namespace AudioReach

open Function (update update_eq_self update_idem update_of_ne update_self)
open Library List

namespace Amdb

/-- The handles and the instances of a node. -/
def memHeld (s : Amdb) (a : ℕ) : ℕ :=
  held (fun _ : AmdbHolder => 1) s.holders a

/-- The references to the library of a node that its handles and instances have. -/
def dlHeld (s : Amdb) (a : ℕ) : ℕ :=
  held AmdbHolder.dl s.holders a

/-- The loads of a node that have not been run. -/
def loadHeld (s : Amdb) (a : ℕ) : ℕ :=
  held (fun h : AmdbHolder => if h = .toLoad then 1 else 0) s.holders a

/-- **The counters are exact**, and a node is freed exactly when nobody has a reference to it. -/
structure RefsExact (s : Amdb) : Prop where
  /-- The handles and the instances, and one while it is registered. -/
  mem : ∀ a n, s.nodes a = some n →
    n.memRefs = s.memHeld a + (if s.ht n.key = some a then 1 else 0) ∧ 0 < n.memRefs
  freed : ∀ a, s.nodes a = none → s.memHeld a = 0 ∧ ∀ moduleId, s.ht moduleId ≠ some a
  dl : ∀ a n, s.nodes a = some n → n.isStatic = false → n.dlRefs = s.dlHeld a
  unused : s.usedAfterFree = false

/-- The functions of the node are in the open library `h_dlopen`. -/
def FromLibrary (s : Amdb) (n : AmdbNode) : Prop :=
  ∃ l, n.hDlopen = some l ∧ l ∈ s.openLibs ∧
    n.getStaticPropertiesF = some (.library l) ∧ n.initF = some (.library l)

/-- The functions of the node are those of the image that replace it. -/
def Replaced (replaced : ℕ → Bool) (n : AmdbNode) : Prop :=
  replaced n.key = true ∧ n.hDlopen = none ∧
    n.getStaticPropertiesF = some .static ∧ n.initF = some .static

/-- **The libraries are open while they are used**, but for the modules `replaced` that are run
from the image. -/
structure Served (replaced : ℕ → Bool) (s : Amdb) : Prop where
  /-- A library is kept exactly while there are references. -/
  opened : ∀ a n, s.nodes a = some n → n.isStatic = false →
    (n.hDlopen ≠ none → 0 < n.dlRefs) ∧ (0 < n.dlRefs → n.hDlopen ≠ none ∨ Replaced replaced n)
  isOpen : ∀ a n l, s.nodes a = some n → n.hDlopen = some l → l ∈ s.openLibs
  functions : ∀ a h, (a, h) ∈ s.holders → 0 < h.dl →
    ∃ n, s.nodes a = some n ∧ (n.isStatic = false → s.FromLibrary n ∨ Replaced replaced n)

/-- A step leaves all counters as they are. -/
def SameCounts (s s' : Amdb) : Prop :=
  ∀ a, (s'.nodes a).map (fun n => (n.memRefs, n.dlRefs)) =
    (s.nodes a).map fun n => (n.memRefs, n.dlRefs)

/-- A load that fails, and a version query, change no count. -/
def KeepsCounts (fallback : ℕ → Bool) (s : Amdb) : AmdbStep → Prop
  | .dynamicLoader a opens r =>
    (∀ n, s.nodes a = some n → n.dlRefs = 0 ∧ (opens = false ∨ r ≠ .found) ∧
      fallback n.key = false) → s.SameCounts (step fallback s (.dynamicLoader a opens r))
  | .getDetails moduleId => s.SameCounts (step fallback s (.getDetails moduleId))
  | .moduleVersion a opens r => s.SameCounts (step fallback s (.moduleVersion a opens r))
  | _ => True

/-- The node that a version query looks at is still there.  If its library is not open the query
does not get it open, and otherwise it finds the symbols it looks up. -/
def Fits (s : Amdb) : AmdbStep → Prop
  | .moduleVersion a opens r =>
    a ∈ s.queries → ∃ n, s.nodes a = some n ∧ (n.isStatic = false →
      if n.dlRefs = 0 then opens = false ∨ r ≠ .found
      else n.hDlopen ≠ none → r = .found ∨ r = .noMemory)
  | _ => True

/-! ## The invariant -/

/-- A node is what its owners make of it. -/
structure NodeOk (fallback : ℕ → Bool) (s : Amdb) (a : ℕ) (n : AmdbNode) : Prop where
  mem : n.memRefs = s.memHeld a + (if s.ht n.key = some a then 1 else 0)
  pos : 0 < n.memRefs
  dl : n.isStatic = false → n.dlRefs = s.dlHeld a
  lib : n.hDlopen ≠ none → n.isStatic = false ∧ 0 < n.dlRefs ∧ s.FromLibrary n
  replaced : n.isStatic = false → n.hDlopen = none → 0 < n.dlRefs → Replaced fallback n
  loading : n.isStatic = true → s.loadHeld a = 0

/-- The invariant of the module database. -/
structure Sound (fallback : ℕ → Bool) (s : Amdb) : Prop where
  table : ∀ moduleId a, s.ht moduleId = some a → ∃ n, s.nodes a = some n ∧ n.key = moduleId
  node : ∀ a n, s.nodes a = some n → s.NodeOk fallback a n
  freed : ∀ a, s.nodes a = none → s.memHeld a = 0
  distinct : ∀ a b n m l, s.nodes a = some n → s.nodes b = some m → n.hDlopen = some l →
    m.hDlopen = some l → a = b
  /-- Libraries are numbered in the order in which they are opened. -/
  fresh : ∀ l ∈ s.openLibs, l < s.nextLib
  /-- A module that is being registered is not in the table. -/
  pending : ∀ moduleId, s.registering = some moduleId → s.ht moduleId = none
  unused : s.usedAfterFree = false

lemma sound_init (fallback : ℕ → Bool) : (init).Sound fallback where
  table _ _ h := by cases h
  node _ _ h := by cases h
  freed _ _ := rfl
  distinct _ _ _ _ _ h := by cases h
  fresh _ h := by cases h
  pending _ h := by cases h
  unused := rfl

section Invariant

variable {fallback : ℕ → Bool} {s s' : Amdb} {a : ℕ} {n n' : AmdbNode} {x y : AmdbHolder}
  {r : AmdbResolve}

section

variable (h : s.Sound fallback)
include h

lemma Sound.owner (hmem : (a, x) ∈ s.holders) : ∃ n, s.nodes a = some n := by
  rcases hn : s.nodes a with _ | n
  · have hle := le_held_of_mem (w := fun _ : AmdbHolder => 1) hmem
    have hzero := h.freed a hn
    unfold memHeld at hzero
    omega
  · exact ⟨n, rfl⟩

lemma Sound.le_dlRefs (hmem : (a, x) ∈ s.holders) (hn : s.nodes a = some n)
    (hdyn : n.isStatic = false) : x.dl ≤ n.dlRefs := by
  rw [(h.node a n hn).dl hdyn]
  exact le_held_of_mem hmem

lemma Sound.refsExact : s.RefsExact where
  mem a n hn := ⟨(h.node a n hn).mem, (h.node a n hn).pos⟩
  freed a ha := by
    refine ⟨h.freed a ha, fun moduleId ht => ?_⟩
    obtain ⟨n, hn, -⟩ := h.table moduleId a ht
    rw [ha] at hn
    cases hn
  dl a n hn := (h.node a n hn).dl
  unused := h.unused

lemma Sound.served : s.Served fallback where
  opened a n hn hdyn := by
    have hok := h.node a n hn
    refine ⟨fun hl => (hok.lib hl).2.1, fun hpos => ?_⟩
    by_cases hl : n.hDlopen = none
    · exact Or.inr (hok.replaced hdyn hl hpos)
    · exact Or.inl hl
  isOpen a n l hn hl := by
    obtain ⟨-, -, l', hl', hopen, -⟩ := (h.node a n hn).lib (by rw [hl]; simp)
    rw [hl] at hl'
    cases hl'
    exact hopen
  functions a x hmem hx := by
    obtain ⟨n, hn⟩ := h.owner hmem
    refine ⟨n, hn, fun hdyn => ?_⟩
    have hok := h.node a n hn
    have hpos : 0 < n.dlRefs := Nat.lt_of_lt_of_le hx (h.le_dlRefs hmem hn hdyn)
    by_cases hl : n.hDlopen = none
    · exact Or.inr (hok.replaced hdyn hl hpos)
    · exact Or.inl (hok.lib hl).2.2

end

/-- A step concerns the node at `a` only. -/
structure Frame (a : ℕ) (s s' : Amdb) : Prop where
  held : ∀ w b, b ≠ a → held w s'.holders b = held w s.holders b
  ht : ∀ moduleId, s'.ht moduleId = s.ht moduleId ∨ s.ht moduleId = some a ∧ s'.ht moduleId = none
  libs : ∀ b n l, b ≠ a → s.nodes b = some n → n.hDlopen = some l → l ∈ s.openLibs → l ∈ s'.openLibs
  fresh : (∀ l ∈ s.openLibs, l < s.nextLib) → ∀ l ∈ s'.openLibs, l < s'.nextLib
  registering : s'.registering = s.registering
  unused : s'.usedAfterFree = s.usedAfterFree

variable {b moduleId : ℕ}

lemma Frame.ht_iff (hf : Frame a s s') (hne : b ≠ a) :
    s'.ht moduleId = some b ↔ s.ht moduleId = some b := by
  rcases hf.ht moduleId with heq | ⟨hs, hs'⟩
  · rw [heq]
  · rw [hs, hs']
    simp [Ne.symm hne]

lemma NodeOk.frame (hok : s.NodeOk fallback b n) (hf : Frame a s s') (hne : b ≠ a)
    (hn : s.nodes b = some n) : s'.NodeOk fallback b n where
  mem := by
    rw [hok.mem]
    unfold memHeld
    rw [hf.held _ b hne, if_congr (hf.ht_iff hne) rfl rfl]
  pos := hok.pos
  dl hdyn := by
    rw [hok.dl hdyn]
    exact (hf.held _ b hne).symm
  lib hl := by
    obtain ⟨hdyn, hpos, l, hl', hopen, hfns⟩ := hok.lib hl
    exact ⟨hdyn, hpos, l, hl', hf.libs b n l hne hn hl' hopen, hfns⟩
  replaced := hok.replaced
  loading hstatic := (hf.held _ b hne).trans (hok.loading hstatic)

/-- The node at `a` is written. -/
lemma Sound.write (h : s.Sound fallback) (hf : Frame a s s') (hn : s.nodes a = some n)
    (hnodes : s'.nodes = update s.nodes a (some n')) (hkey : n'.key = n.key)
    (hlib : ∀ l, n'.hDlopen = some l → n.hDlopen = some l ∨ l ∉ s.openLibs)
    (hok : s'.NodeOk fallback a n') : s'.Sound fallback := by
  have hself : s'.nodes a = some n' := by rw [hnodes, update_self]
  have hother : ∀ b, b ≠ a → s'.nodes b = s.nodes b := fun b hne => by
    rw [hnodes, update_of_ne hne]
  have hopen : ∀ b m l, s.nodes b = some m → m.hDlopen = some l → l ∈ s.openLibs :=
    h.served.isOpen
  refine ⟨fun moduleId b ht => ?_, fun b m hm => ?_, fun b hb => ?_, ?_, hf.fresh h.fresh,
    fun moduleId hreg => ?_, hf.unused.trans h.unused⟩
  · by_cases hb : b = a
    · subst hb
      have hs : s.ht moduleId = some b := by
        rcases hf.ht moduleId with heq | ⟨-, hnone⟩
        · rw [← heq, ht]
        · rw [ht] at hnone
          cases hnone
      obtain ⟨m, hm, hkey'⟩ := h.table moduleId b hs
      rw [hn] at hm
      cases hm
      exact ⟨n', hself, hkey.trans hkey'⟩
    · rw [hother b hb]
      exact h.table moduleId b ((hf.ht_iff hb).mp ht)
  · by_cases hb : b = a
    · subst hb
      rw [hself] at hm
      cases hm
      exact hok
    · rw [hother b hb] at hm
      exact (h.node b m hm).frame hf hb hm
  · by_cases heq : b = a
    · subst heq
      rw [hself] at hb
      cases hb
    · rw [hother b heq] at hb
      exact (hf.held _ b heq).trans (h.freed b hb)
  · -- a library that is kept anew was not open before
    have hnew : ∀ b m l, b ≠ a → s.nodes b = some m → m.hDlopen = some l → n'.hDlopen ≠ some l := by
      intro b m l hne hm hl hl'
      rcases hlib l hl' with hold | hfresh
      · exact hne (h.distinct b a m n l hm hn hl hold)
      · exact hfresh (hopen b m l hm hl)
    intro b c m k l hm hk hl hl'
    by_cases hb : b = a <;> by_cases hc : c = a
    · rw [hb, hc]
    · rw [hb, hself] at hm
      cases hm
      rw [hother c hc] at hk
      exact absurd hl (hnew c k l hc hk hl')
    · rw [hc, hself] at hk
      cases hk
      rw [hother b hb] at hm
      exact absurd hl' (hnew b m l hb hm hl)
    · rw [hother b hb] at hm
      rw [hother c hc] at hk
      exact h.distinct b c m k l hm hk hl hl'
  · rw [hf.registering] at hreg
    rcases hf.ht moduleId with heq | ⟨-, hnone⟩
    · rw [heq]
      exact h.pending moduleId hreg
    · exact hnone

/-- The node at `a` is freed. -/
lemma Sound.free (h : s.Sound fallback) (hf : Frame a s s')
    (hnodes : s'.nodes = update s.nodes a none) (hheld : s'.memHeld a = 0)
    (ht : ∀ moduleId, s'.ht moduleId ≠ some a) : s'.Sound fallback := by
  have hother : ∀ b, b ≠ a → s'.nodes b = s.nodes b := fun b hne => by
    rw [hnodes, update_of_ne hne]
  have hlive : ∀ b m, s'.nodes b = some m → b ≠ a ∧ s.nodes b = some m := by
    intro b m hm
    by_cases hb : b = a
    · rw [hb, hnodes, update_self] at hm
      cases hm
    · exact ⟨hb, (hother b hb).symm.trans hm⟩
  refine ⟨fun moduleId b hb => ?_, fun b m hm => ?_, fun b hb => ?_, ?_, hf.fresh h.fresh,
    fun moduleId hreg => ?_, hf.unused.trans h.unused⟩
  · have hne : b ≠ a := fun heq => ht moduleId (heq ▸ hb)
    rw [hother b hne]
    exact h.table moduleId b ((hf.ht_iff hne).mp hb)
  · obtain ⟨hne, hm⟩ := hlive b m hm
    exact (h.node b m hm).frame hf hne hm
  · by_cases heq : b = a
    · rw [heq]
      exact hheld
    · rw [hother b heq] at hb
      exact (hf.held _ b heq).trans (h.freed b hb)
  · intro b c m k l hm hk hl hl'
    exact h.distinct b c m k l (hlive b m hm).2 (hlive c k hk).2 hl hl'
  · rw [hf.registering] at hreg
    rcases hf.ht moduleId with heq | ⟨-, hnone⟩
    · rw [heq]
      exact h.pending moduleId hreg
    · exact hnone

/-! ## The steps -/

lemma use_of_some (hn : s.nodes a = some n) (f : AmdbNode → Amdb) : s.use a f = f n := by
  simp only [use, hn]

lemma nodes_setNode : (s.setNode a n).nodes = update s.nodes a (some n) := rfl

section

variable (hmem : (a, x) ∈ s.holders) (tos : List AmdbHolder)
include hmem

lemma frame_move (hholders : s'.holders = tos.map (a, ·) ++ s.holders.erase (a, x))
    (hht : s'.ht = s.ht)
    (hlibs : ∀ b n l, b ≠ a → s.nodes b = some n → n.hDlopen = some l → l ∈ s.openLibs →
      l ∈ s'.openLibs)
    (hfresh : (∀ l ∈ s.openLibs, l < s.nextLib) → ∀ l ∈ s'.openLibs, l < s'.nextLib)
    (hreg : s'.registering = s.registering) (hunused : s'.usedAfterFree = s.usedAfterFree) :
    Frame a s s' where
  held w b hne := by
    rw [hholders]
    exact held_move_of_ne hmem tos hne
  ht moduleId := Or.inl (by rw [hht])
  libs := hlibs
  fresh := hfresh
  registering := hreg
  unused := hunused

lemma memHeld_move : (s.move a x tos).memHeld a + 1 = s.memHeld a + tos.length := by
  have hcount := held_move_self (w := fun _ : AmdbHolder => 1) hmem tos
  have hone : (tos.map fun _ => 1).sum = tos.length := by simp
  rwa [hone] at hcount

lemma dlHeld_move : (s.move a x tos).dlHeld a + x.dl = s.dlHeld a + (tos.map AmdbHolder.dl).sum :=
  held_move_self hmem tos

end

lemma loadHeld_move (hmem : (a, x) ∈ s.holders) {tos : List AmdbHolder} (htos : .toLoad ∉ tos) :
    (s.move a x tos).loadHeld a ≤ s.loadHeld a := by
  have hcount := held_move_self (w := fun h : AmdbHolder => if h = .toLoad then 1 else 0) hmem tos
  have hzero : (tos.map fun h : AmdbHolder => if h = .toLoad then 1 else 0).sum = 0 := by
    refine sum_eq_zero fun k hk => ?_
    obtain ⟨y, hy, rfl⟩ := mem_map.mp hk
    have hne : y ≠ .toLoad := fun heq => htos (heq ▸ hy)
    exact if_neg hne
  rw [hzero] at hcount
  exact Nat.le_of_add_right_le (Nat.le_of_eq hcount)

/-- A reference to a node is dropped: that of an owner, or that of the table. -/
lemma Sound.dropRef (h : s.Sound fallback) (hf : Frame a s s') (hn : s.nodes a = some n)
    (hnodes : s'.nodes = s.nodes) (hopen : s'.openLibs = s.openLibs)
    (hmem : n.memRefs = s'.memHeld a + (if s'.ht n.key = some a then 1 else 0) + 1)
    (hdl : s'.dlHeld a = s.dlHeld a) (hload : s'.loadHeld a ≤ s.loadHeld a) :
    (s'.decMemRef a).Sound fallback := by
  have hn' : s'.nodes a = some n := by rw [hnodes, hn]
  have hok := h.node a n hn
  have hframe : ∀ nodes, Frame a s { s' with nodes := nodes } := fun nodes =>
    ⟨hf.held, hf.ht, hf.libs, hf.fresh, hf.registering, hf.unused⟩
  unfold decMemRef
  rw [use_of_some hn']
  split
  · rename_i hlast
    refine h.free (hframe _) (by rw [hnodes]) ?_ fun moduleId ht => ?_
    · change s'.memHeld a = 0
      omega
    · have hs : s.ht moduleId = some a := by
        rcases hf.ht moduleId with heq | ⟨hs, -⟩
        · rw [← heq]
          exact ht
        · exact hs
      obtain ⟨m, hm, hkey⟩ := h.table moduleId a hs
      rw [hn] at hm
      cases hm
      have ht' : s'.ht n.key = some a := by
        rw [hkey]
        exact ht
      rw [if_pos ht'] at hmem
      omega
  · rename_i hmore
    have hwrite : (s'.setNode a { n with memRefs := n.memRefs - 1 }).nodes =
        update s.nodes a (some { n with memRefs := n.memRefs - 1 }) := by
      rw [nodes_setNode, hnodes]
    refine h.write (hframe _) hn hwrite rfl (fun l hl => Or.inl hl)
      ⟨?_, ?_, fun hdyn => ?_, fun hl => ?_, hok.replaced,
        fun hstatic => Nat.le_zero.mp (hok.loading hstatic ▸ hload)⟩
    · change n.memRefs - 1 = s'.memHeld a + (if s'.ht n.key = some a then 1 else 0)
      omega
    · change 0 < n.memRefs - 1
      omega
    · exact (hok.dl hdyn).trans hdl.symm
    · obtain ⟨hdyn, hpos, l, hl', hmem', hfns⟩ := hok.lib hl
      refine ⟨hdyn, hpos, l, hl', ?_, hfns⟩
      change l ∈ s'.openLibs
      rw [hopen]
      exact hmem'

section

variable (h : s.Sound fallback) (hmem : (a, x) ∈ s.holders)
include h hmem

lemma Sound.drop (hx : x.dl = 0) : ((s.move a x []).decMemRef a).Sound fallback := by
  obtain ⟨n, hn⟩ := h.owner hmem
  have hframe : Frame a s (s.move a x []) :=
    frame_move hmem [] rfl rfl (fun _ _ _ _ _ _ hl => hl) id rfl rfl
  refine h.dropRef hframe hn rfl rfl ?_ ?_ (loadHeld_move hmem not_mem_nil)
  · rw [(h.node a n hn).mem]
    have hcount := memHeld_move hmem []
    rw [length_nil] at hcount
    change _ = _ + (if s.ht n.key = some a then 1 else 0) + 1
    omega
  · have hcount := dlHeld_move hmem []
    rw [map_nil, sum_nil] at hcount
    omega

/-- The counts after an owner has become another one. -/
lemma Sound.replaceOwner (hn : s.nodes a = some n) (hload : y ≠ .toLoad) :
    (∀ nodes, Frame a s { s.move a x [y] with nodes := nodes }) ∧
    n.memRefs = (s.move a x [y]).memHeld a + (if s.ht n.key = some a then 1 else 0) ∧
    (s.move a x [y]).dlHeld a + x.dl = s.dlHeld a + y.dl ∧
    (n.isStatic = true → (s.move a x [y]).loadHeld a = 0 ∧ (s.move a x [y]).Sound fallback) := by
  have hok := h.node a n hn
  have hframe : ∀ nodes, Frame a s { s.move a x [y] with nodes := nodes } := fun _ =>
    frame_move hmem [y] rfl rfl (fun _ _ _ _ _ _ hl => hl) id rfl rfl
  have hmem' : n.memRefs = (s.move a x [y]).memHeld a + (if s.ht n.key = some a then 1 else 0) := by
    have hcount := memHeld_move hmem [y]
    rw [length_singleton] at hcount
    rw [hok.mem]
    omega
  refine ⟨hframe, hmem', ?_, fun hstatic => ?_⟩
  · have hcount := dlHeld_move hmem [y]
    rwa [map_singleton, sum_singleton] at hcount
  · have hloading : (s.move a x [y]).loadHeld a = 0 := Nat.le_zero.mp (hok.loading hstatic ▸
      loadHeld_move hmem fun hy' => hload (mem_singleton.mp hy').symm)
    have hnodes : (s.move a x [y]).nodes = update s.nodes a (some n) := by
      change s.nodes = _
      rw [← hn, update_eq_self]
    refine ⟨hloading, h.write (hframe _) hn hnodes rfl (fun l hl => Or.inl hl)
      ⟨hmem', hok.pos, fun hdyn => ?_, hok.lib, hok.replaced, fun _ => hloading⟩⟩
    rw [hstatic] at hdyn
    cases hdyn

/-- An owner drops the library and keeps the node. -/
lemma Sound.dropLibrary (hx : x.dl = 1) (hy : y.dl = 0) (hload : y ≠ .toLoad) :
    ((s.move a x [y]).decDlRef a).Sound fallback := by
  obtain ⟨n, hn⟩ := h.owner hmem
  have hok := h.node a n hn
  obtain ⟨hframe, hmem', hdlHeld, hstatic⟩ := h.replaceOwner hmem hn hload
  have hloading := fun hst => (hstatic hst).1
  unfold decDlRef
  rw [use_of_some (s := s.move a x [y]) hn]
  split
  · rename_i hst
    exact (hstatic hst).2
  · rename_i hdyn
    have hdyn : n.isStatic = false := Bool.eq_false_iff.mpr hdyn
    have hdl : n.dlRefs - 1 = (s.move a x [y]).dlHeld a := by
      have := hok.dl hdyn
      omega
    split
    · -- the last reference: the library is closed
      rename_i hlast
      have hclosed : ∀ b m l, b ≠ a → s.nodes b = some m → m.hDlopen = some l → l ∈ s.openLibs →
          l ∈ ((s.move a x [y]).dlclose n.hDlopen).openLibs := by
        intro b m l hne hm hl hopen
        unfold dlclose
        split
        · exact hopen
        · rename_i l' hl'
          have hll : l ≠ l' := by
            intro heq
            exact hne (h.distinct b a m n l hm hn hl (heq ▸ hl'))
          exact (mem_erase_of_ne hll).mpr hopen
      have hsub : ∀ l ∈ ((s.move a x [y]).dlclose n.hDlopen).openLibs, l ∈ s.openLibs := by
        intro l
        unfold dlclose
        split
        · exact id
        · exact mem_of_mem_erase
      have hsame : (s.move a x [y]).dlclose n.hDlopen =
          { s.move a x [y] with openLibs := ((s.move a x [y]).dlclose n.hDlopen).openLibs } := by
        unfold dlclose
        split <;> rfl
      rw [hsame]
      refine h.write (frame_move hmem [y] rfl rfl hclosed (fun hfresh l hl => hfresh l (hsub l hl))
        rfl rfl) hn rfl rfl (fun l hl => by cases hl)
        ⟨hmem', hok.pos, fun _ => hdl, fun hl => absurd rfl hl, fun _ _ hpos => ?_, hloading⟩
      exact absurd hlast (Nat.pos_iff_ne_zero.mp hpos)
    · rename_i hmore
      refine h.write (hframe _) hn rfl rfl (fun l hl => Or.inl hl)
        ⟨hmem', hok.pos, fun _ => hdl, fun hl => ?_, fun _ hl hpos => ?_, hloading⟩
      · exact ⟨hdyn, Nat.pos_of_ne_zero hmore, (hok.lib hl).2.2⟩
      · refine hok.replaced hdyn hl ?_
        omega

/-- An owner that has a reference to the library takes another one. -/
lemma Sound.takeLibrary (hx : 0 < x.dl) (hy : y.dl = x.dl + 1) (hload : y ≠ .toLoad) :
    ((s.move a x [y]).incDlRef a).Sound fallback := by
  obtain ⟨n, hn⟩ := h.owner hmem
  have hok := h.node a n hn
  obtain ⟨hframe, hmem', hdlHeld, hstatic⟩ := h.replaceOwner hmem hn hload
  unfold incDlRef
  rw [use_of_some (s := s.move a x [y]) hn]
  split
  · rename_i hst
    exact (hstatic hst).2
  · rename_i hdyn
    have hdyn : n.isStatic = false := Bool.eq_false_iff.mpr hdyn
    have hpos : 0 < n.dlRefs := Nat.lt_of_lt_of_le hx (h.le_dlRefs hmem hn hdyn)
    refine h.write (hframe _) hn rfl rfl (fun l hl => Or.inl hl)
      ⟨hmem', hok.pos, fun _ => ?_, fun hl => ?_, fun _ hl _ => hok.replaced hdyn hl hpos,
        fun hst => (hstatic hst).1⟩
    · change n.dlRefs + 1 = (s.move a x [y]).dlHeld a
      rw [hok.dl hdyn]
      omega
    · exact ⟨hdyn, Nat.succ_pos _, (hok.lib hl).2.2⟩

/-- An owner becomes two. -/
lemma Sound.takeNode {z : AmdbHolder} (hdl : y.dl + z.dl = x.dl) (hload : .toLoad ∉ [y, z]) :
    ((s.move a x [y, z]).incMemRef a).Sound fallback := by
  obtain ⟨n, hn⟩ := h.owner hmem
  have hok := h.node a n hn
  have hframe : ∀ nodes, Frame a s { s.move a x [y, z] with nodes := nodes } := fun _ =>
    frame_move hmem [y, z] rfl rfl (fun _ _ _ _ _ _ hl => hl) id rfl rfl
  unfold incMemRef
  rw [use_of_some (s := s.move a x [y, z]) hn]
  refine h.write (hframe _) hn rfl rfl (fun l hl => Or.inl hl)
    ⟨?_, Nat.succ_pos _, fun hdyn => ?_, hok.lib, hok.replaced,
      fun hstatic => Nat.le_zero.mp (hok.loading hstatic ▸ loadHeld_move hmem hload)⟩
  · have hcount := memHeld_move hmem [y, z]
    change n.memRefs + 1 = (s.move a x [y, z]).memHeld a + (if s.ht n.key = some a then 1 else 0)
    rw [hok.mem]
    simp only [length_cons, length_nil] at hcount
    omega
  · have hcount := dlHeld_move hmem [y, z]
    change n.dlRefs = (s.move a x [y, z]).dlHeld a
    rw [hok.dl hdyn]
    simp only [map_cons, map_nil, sum_cons, sum_nil] at hcount
    omega

end

/-- `node_wrapper_dlopen` opens a new library with both functions, or leaves none open. -/
lemma wrapperDlopen_cases (s : Amdb) (n : AmdbNode) (opens : Bool) (r : AmdbResolve) :
    (opens = true ∧ r = .found ∧ s.wrapperDlopen n opens r = (true,
        { n with
          hDlopen := some s.nextLib
          getStaticPropertiesF := some (.library s.nextLib)
          initF := some (.library s.nextLib) },
        { s with openLibs := s.nextLib :: s.openLibs, nextLib := s.nextLib + 1 })) ∨
    ((opens = false ∨ r ≠ .found) ∧ ∃ f g k, s.nextLib ≤ k ∧ s.wrapperDlopen n opens r =
      (false, { n with hDlopen := none, getStaticPropertiesF := f, initF := g },
        { s with nextLib := k })) := by
  cases opens with
  | false => exact Or.inr ⟨Or.inl rfl, _, _, _, Nat.le_refl _, rfl⟩
  | true =>
    cases r with
    | found => exact Or.inl ⟨rfl, rfl, rfl⟩
    | noMemory =>
      refine Or.inr ⟨Or.inr (by simp), n.getStaticPropertiesF, n.initF, _, Nat.le_succ _, ?_⟩
      simp [wrapperDlopen, AmdbNode.resolveSymbols, dlclose]
    | noStaticProperties =>
      refine Or.inr ⟨Or.inr (by simp), none, n.initF, _, Nat.le_succ _, ?_⟩
      simp [wrapperDlopen, AmdbNode.resolveSymbols, dlclose]
    | noInit =>
      refine Or.inr ⟨Or.inr (by simp), some (.library s.nextLib), none, _, Nat.le_succ _, ?_⟩
      simp [wrapperDlopen, AmdbNode.resolveSymbols, dlclose]

/-- The loader threads. -/
lemma Sound.dynamicLoader (h : s.Sound fallback) (hmem : (a, .toLoad) ∈ s.holders) (opens : Bool)
    (r : AmdbResolve) : (s.dynamicLoader fallback a opens r).Sound fallback := by
  obtain ⟨n, hn⟩ := h.owner hmem
  have hok := h.node a n hn
  have hdyn : n.isStatic = false := by
    refine Bool.eq_false_iff.mpr fun hstatic => ?_
    have hle := le_held_of_mem (w := fun h : AmdbHolder => if h = .toLoad then 1 else 0) hmem
    have hzero := hok.loading hstatic
    unfold loadHeld at hzero
    rw [if_pos rfl] at hle
    omega
  have hloading : ∀ y, n.isStatic = true → (s.move a .toLoad [y]).loadHeld a = 0 := by
    intro y hstatic
    rw [hdyn] at hstatic
    cases hstatic
  have hmem' : ∀ y, n.memRefs =
      (s.move a .toLoad [y]).memHeld a + (if s.ht n.key = some a then 1 else 0) := by
    intro y
    have hcount := memHeld_move hmem [y]
    rw [length_singleton] at hcount
    rw [hok.mem]
    omega
  have hdlHeld : ∀ y, (s.move a .toLoad [y]).dlHeld a = n.dlRefs + y.dl := by
    intro y
    have hcount := dlHeld_move hmem [y]
    rw [hok.dl hdyn]
    exact hcount
  have hframe : ∀ y libs k nodes, (∀ l ∈ s.openLibs, l ∈ libs) →
      ((∀ l ∈ s.openLibs, l < s.nextLib) → ∀ l ∈ libs, l < k) →
      Frame a s { s.move a .toLoad [y] with nodes := nodes, openLibs := libs, nextLib := k } :=
    fun y _ _ _ hlibs hfresh => frame_move hmem [y] rfl rfl
      (fun _ _ l _ _ _ hl => hlibs l hl) hfresh rfl rfl
  have hnew : ∀ l, l = s.nextLib → l ∉ s.openLibs := by
    intro l heq hl
    exact absurd (h.fresh l hl) (heq ▸ Nat.lt_irrefl _)
  unfold Amdb.dynamicLoader
  rw [use_of_some hn]
  split
  · rename_i hzero
    rcases s.wrapperDlopen_cases n opens r with ⟨-, -, heq⟩ | ⟨-, f, g, k, hk, heq⟩
    · rw [heq]
      refine h.write (hframe .loaded (s.nextLib :: s.openLibs) (s.nextLib + 1) _
        (fun l hl => mem_cons_of_mem _ hl) fun hfresh l hl => ?_) hn rfl rfl (fun l hl => ?_)
        ⟨hmem' .loaded, hok.pos, fun _ => (hdlHeld .loaded).symm, fun _ => ?_, fun _ hl => ?_,
          hloading .loaded⟩
      · rcases mem_cons.mp hl with rfl | hl
        · exact Nat.lt_succ_self _
        · exact Nat.lt_succ_of_lt (hfresh l hl)
      · cases hl
        exact Or.inr (hnew _ rfl)
      · exact ⟨hdyn, Nat.succ_pos _, s.nextLib, rfl, mem_cons_self .., rfl, rfl⟩
      · cases hl
    · rw [heq]
      have hfresh : (∀ l ∈ s.openLibs, l < s.nextLib) → ∀ l ∈ s.openLibs, l < k :=
        fun hfresh l hl => Nat.lt_of_lt_of_le (hfresh l hl) hk
      dsimp only
      split
      · rename_i hfall
        exact h.write (hframe .loaded s.openLibs k _ (fun _ hl => hl) hfresh) hn rfl rfl
          (fun l hl => by cases hl)
          ⟨hmem' .loaded, hok.pos, fun _ => (hdlHeld .loaded).symm, fun hl => absurd rfl hl,
            fun _ _ _ => ⟨hfall, rfl, rfl, rfl⟩, hloading .loaded⟩
      · refine h.write (hframe .failing s.openLibs k _ (fun _ hl => hl) hfresh) hn rfl rfl
          (fun l hl => by cases hl)
          ⟨hmem' .failing, hok.pos, fun _ => (hdlHeld .failing).symm, fun hl => absurd rfl hl,
            fun _ _ hpos => ?_, hloading .failing⟩
        exact absurd hzero (Nat.pos_iff_ne_zero.mp hpos)
  · rename_i hpos
    have hpos : 0 < n.dlRefs := Nat.pos_of_ne_zero hpos
    exact h.write (hframe .loaded s.openLibs s.nextLib _ (fun _ hl => hl) id) hn rfl rfl
      (fun l hl => Or.inl hl)
      ⟨hmem' .loaded, hok.pos, fun _ => (hdlHeld .loaded).symm,
        fun hl => ⟨hdyn, Nat.succ_pos _, (hok.lib hl).2.2⟩, fun _ hl _ => hok.replaced hdyn hl hpos,
        hloading .loaded⟩

lemma frame_cons (y : AmdbHolder) (nodes : ℕ → Option AmdbNode) :
    Frame a s { s with holders := (a, y) :: s.holders, nodes := nodes } where
  held w b hne := by
    rw [held_cons, if_neg (Ne.symm hne), Nat.zero_add]
  ht _ := Or.inl rfl
  libs _ _ _ _ _ _ hl := hl
  fresh := id
  registering := rfl
  unused := rfl

/-- The handles of a request. -/
lemma Sound.getNode (h : s.Sound fallback) (moduleId : ℕ) : (s.getNode moduleId).Sound fallback := by
  unfold Amdb.getNode
  split
  · exact h
  · rename_i a hht
    obtain ⟨n, hn, -⟩ := h.table moduleId a hht
    have hok := h.node a n hn
    have hheld : ∀ (w : AmdbHolder → ℕ) y, held w ((a, y) :: s.holders) a =
        w y + held w s.holders a := by
      intro w y
      rw [held_cons, if_pos rfl]
    have hmem : ∀ y, n.memRefs + 1 = held (fun _ : AmdbHolder => 1) ((a, y) :: s.holders) a +
        (if s.ht n.key = some a then 1 else 0) := by
      intro y
      rw [hheld, hok.mem]
      unfold memHeld
      omega
    rw [use_of_some hn]
    split
    · rename_i hstatic
      unfold incMemRef
      rw [use_of_some (s := { s with holders := (a, .loaded) :: s.holders }) hn]
      refine h.write (frame_cons .loaded _) hn rfl rfl (fun l hl => Or.inl hl)
        ⟨hmem .loaded, Nat.succ_pos _, fun hdyn => ?_, hok.lib, hok.replaced, fun _ => ?_⟩
      · rw [hstatic] at hdyn
        cases hdyn
      · exact (hheld _ .loaded).trans (by rw [if_neg (by simp), Nat.zero_add]; exact hok.loading hstatic)
    · rename_i hdyn
      have hdyn : n.isStatic = false := Bool.eq_false_iff.mpr hdyn
      have hloading : ∀ y, n.isStatic = true →
          held (fun h : AmdbHolder => if h = .toLoad then 1 else 0) ((a, y) :: s.holders) a = 0 := by
        intro y hstatic
        rw [hdyn] at hstatic
        cases hstatic
      split
      · rename_i hnone
        unfold incMemRef
        rw [use_of_some (s := { s with holders := (a, .toLoad) :: s.holders }) hn]
        refine h.write (frame_cons .toLoad _) hn rfl rfl (fun l hl => Or.inl hl)
          ⟨hmem .toLoad, Nat.succ_pos _, fun _ => ?_, hok.lib, hok.replaced, hloading .toLoad⟩
        exact (hok.dl hdyn).trans ((hheld _ .toLoad).trans (Nat.zero_add _)).symm
      · rename_i hopen
        unfold incMemRef incDlRef
        rw [use_of_some (s := { s with holders := (a, .loaded) :: s.holders }) hn,
          if_neg (by rw [hdyn]; simp),
          use_of_some (update_self ..)]
        refine h.write (frame_cons .loaded _) hn (update_idem ..) rfl (fun l hl => Or.inl hl)
          ⟨hmem .loaded, Nat.succ_pos _, fun _ => ?_, fun hl => ?_, fun _ hl => ?_,
            hloading .loaded⟩
        · refine Eq.trans ?_ (hheld _ .loaded).symm
          rw [hok.dl hdyn]
          exact Nat.add_comm ..
        · exact ⟨hdyn, Nat.succ_pos _, (hok.lib hl).2.2⟩
        · exact absurd hl hopen

lemma Sound.aside (h : s.Sound fallback) (reg : Option ℕ) (queries : List ℕ)
    (hreg : ∀ moduleId, reg = some moduleId → s.ht moduleId = none) :
    ({ s with registering := reg, queries := queries } : Amdb).Sound fallback where
  table := h.table
  node a n hn :=
    let hok := h.node a n hn
    ⟨hok.mem, hok.pos, hok.dl, hok.lib, hok.replaced, hok.loading⟩
  freed := h.freed
  distinct := h.distinct
  fresh := h.fresh
  pending := hreg
  unused := h.unused

lemma held_eq_zero (hzero : s.memHeld a = 0) (w : AmdbHolder → ℕ) : held w s.holders a = 0 := by
  refine Nat.eq_zero_of_not_pos fun hpos => ?_
  obtain ⟨y, hmem, -⟩ := exists_of_held_pos hpos
  have hle := le_held_of_mem (w := fun _ : AmdbHolder => 1) hmem
  unfold memHeld at hzero
  omega

lemma init_eq_some {m : AmdbModule} (hinit : AmdbNode.init m moduleId = some n) :
    n.key = moduleId ∧ n.memRefs = 1 ∧ n.dlRefs = 0 ∧ n.hDlopen = none := by
  unfold AmdbNode.init at hinit
  dsimp only at hinit
  split at hinit
  · cases hinit
  · cases hinit
    exact ⟨rfl, rfl, rfl, rfl⟩

lemma sameCounts_write (hn : s.nodes a = some n) (hnodes : s'.nodes = update s.nodes a (some n'))
    (hmem : n'.memRefs = n.memRefs) (hdl : n'.dlRefs = n.dlRefs) : s.SameCounts s' := by
  intro b
  rw [hnodes]
  refine apply_update_eq (p := Option.map fun n : AmdbNode => (n.memRefs, n.dlRefs)) ?_ b
  rw [hn, Option.map_some, Option.map_some, hmem, hdl]

lemma resolveSymbols_snd (hr : n.hDlopen ≠ none → r = .found ∨ r = .noMemory)
    (hlib : n.hDlopen ≠ none → s.FromLibrary n) : (n.resolveSymbols r).2 = n := by
  unfold AmdbNode.resolveSymbols
  rcases hl : n.hDlopen with _ | l
  · rfl
  · have hsome : n.hDlopen ≠ none := by simp [hl]
    obtain ⟨l', hl', -, hget, hinit⟩ := hlib hsome
    rw [hl] at hl'
    cases hl'
    rcases hr hsome with rfl | rfl
    · cases n
      simp_all
    · rfl

section

variable (h : s.Sound fallback)
include h

/-- A node is inserted with the reference of the table. -/
lemma Sound.insertNode {m : AmdbModule} (hfree : s.nodes a = none)
    (hinit : AmdbNode.init m moduleId = some n) (hht : s.ht moduleId = none) :
    ({ s with
      registering := none
      nodes := update s.nodes a (some n)
      ht := update s.ht moduleId (some a) } : Amdb).Sound fallback := by
  obtain ⟨hkey, hrefs, hdl, hlib⟩ := init_eq_some hinit
  have hzero := held_eq_zero (h.freed a hfree)
  have hne : ∀ b m', s.nodes b = some m' → b ≠ a := by
    intro b m' hm heq
    rw [heq, hfree] at hm
    cases hm
  refine ⟨fun k b hk => ?_, fun b m' hm => ?_, fun b hb => ?_, ?_, h.fresh,
    fun k hk => (by cases hk), h.unused⟩
  · dsimp only at hk ⊢
    by_cases hmod : k = moduleId
    · rw [hmod, update_self] at hk
      cases hk
      exact ⟨n, update_self .., hkey.trans hmod.symm⟩
    · rw [update_of_ne hmod] at hk
      obtain ⟨m', hm, hkey'⟩ := h.table k b hk
      exact ⟨m', by rw [update_of_ne (hne b m' hm), hm], hkey'⟩
  · by_cases hb : b = a
    · subst hb
      have hm : update s.nodes b (some n) b = some m' := hm
      rw [update_self] at hm
      cases hm
      refine ⟨?_, ?_, fun _ => ?_, fun hl => absurd hlib hl, fun _ _ hpos => ?_, fun _ => hzero _⟩
      · change n.memRefs = held (fun _ => 1) s.holders b +
          (if update s.ht moduleId (some b) n.key = some b then 1 else 0)
        rw [hzero, hkey, update_self, if_pos rfl, hrefs]
      · rw [hrefs]
        exact Nat.one_pos
      · rw [hdl]
        exact (hzero _).symm
      · rw [hdl] at hpos
        exact absurd hpos (Nat.lt_irrefl 0)
    · have hm : update s.nodes a (some n) b = some m' := hm
      rw [update_of_ne hb] at hm
      have hok := h.node b m' hm
      refine ⟨?_, hok.pos, hok.dl, hok.lib, hok.replaced, hok.loading⟩
      rw [hok.mem]
      change _ = s.memHeld b + (if update s.ht moduleId (some a) m'.key = some b then 1 else 0)
      by_cases hmod : m'.key = moduleId
      · rw [hmod, hht, update_self, if_neg (by simp), if_neg (by simp [Ne.symm hb])]
      · rw [update_of_ne hmod]
  · have hb : update s.nodes a (some n) b = none := hb
    by_cases heq : b = a
    · rw [heq, update_self] at hb
      cases hb
    · rw [update_of_ne heq] at hb
      exact h.freed b hb
  · intro b c m' k l hm hk hl hl'
    have hold : ∀ d m', update s.nodes a (some n) d = some m' → m'.hDlopen = some l →
        s.nodes d = some m' :=
      forall_update_some (fun _ _ hm _ => hm) fun hl => by rw [hlib] at hl; cases hl
    exact h.distinct b c m' k l (hold b m' hm hl) (hold c k hk hl') hl hl'

lemma Sound.registerInsert (m : AmdbModule) (addr : Option ℕ) :
    (s.registerInsert m addr).Sound fallback := by
  have hnone : ({ s with registering := none } : Amdb).Sound fallback :=
    h.aside none s.queries fun _ hk => by cases hk
  unfold Amdb.registerInsert
  split
  · exact h
  · exact hnone
  · rename_i moduleId a _
    split
    · exact h
    · rename_i hfree
      have hfree : s.nodes a = none := Option.not_isSome_iff_eq_none.mp hfree
      split
      · rename_i n hinit hht
        exact h.insertNode hfree hinit hht
      · exact hnone

/-- The reference of the table is dropped. -/
lemma Sound.deregister (moduleId : ℕ) : (s.deregister moduleId).Sound fallback := by
  unfold Amdb.deregister
  split
  · exact h
  · rename_i a hht
    obtain ⟨n, hn, hkey⟩ := h.table moduleId a hht
    rw [use_of_some hn]
    split
    · exact h
    · have hmem := (h.node a n hn).mem
      rw [hkey, if_pos hht] at hmem
      have hframe : Frame a s { s with ht := update s.ht moduleId none } := by
        refine ⟨fun _ _ _ => rfl, fun k => ?_, fun _ _ _ _ _ _ hl => hl, id, rfl, rfl⟩
        by_cases hk : k = moduleId
        · exact Or.inr ⟨hk ▸ hht, by rw [hk]; exact update_self ..⟩
        · exact Or.inl (update_of_ne hk ..)
      refine h.dropRef hframe hn rfl rfl ?_ rfl (Nat.le_refl _)
      rw [hkey, hmem]
      change _ = s.memHeld a + (if update s.ht moduleId none moduleId = some a then 1 else 0) + 1
      rw [update_self, if_neg (by simp)]

lemma Sound.sameCounts_dynamicLoader (opens : Bool) (hfails : ∀ n, s.nodes a = some n →
      n.dlRefs = 0 ∧ (opens = false ∨ r ≠ .found) ∧ fallback n.key = false)
    : s.SameCounts (s.as a .toLoad (s.dynamicLoader fallback a opens r)) := by
  unfold Amdb.as
  split
  · rename_i hmem
    obtain ⟨n, hn⟩ := h.owner hmem
    obtain ⟨hzero, hr, hfall⟩ := hfails n hn
    unfold Amdb.dynamicLoader
    rw [use_of_some hn, if_pos hzero]
    rcases s.wrapperDlopen_cases n opens r with ⟨rfl, rfl, -⟩ | ⟨-, f, g, k, hk, heq⟩
    · simp at hr
    · rw [heq]
      dsimp only
      rw [hfall]
      exact sameCounts_write hn rfl rfl rfl
  · intro _
    rfl

/-- A query that fits writes nothing but what was there, or the failed attempt to open. -/
lemma Sound.dynModuleVersion (hn : s.nodes a = some n) (opens : Bool)
    (hfits : if n.dlRefs = 0 then opens = false ∨ r ≠ .found else n.hDlopen ≠ none →
      r = .found ∨ r = .noMemory)
    :
    (s.dynModuleVersion a n opens r).Sound fallback ∧
      s.SameCounts (s.dynModuleVersion a n opens r) := by
  have hok := h.node a n hn
  unfold Amdb.dynModuleVersion
  split
  · rename_i hzero
    rw [if_pos hzero] at hfits
    rcases s.wrapperDlopen_cases n opens r with ⟨rfl, rfl, -⟩ | ⟨-, f, g, k, hk, heq⟩
    · simp at hfits
    · rw [heq]
      refine ⟨h.write ⟨fun _ _ _ => rfl, fun _ => Or.inl rfl, fun _ _ _ _ _ _ hl => hl,
        fun hfresh l hl => Nat.lt_of_lt_of_le (hfresh l hl) hk, rfl, rfl⟩ hn rfl rfl
        (fun l hl => by cases hl) ⟨hok.mem, hok.pos, hok.dl, fun hl => absurd rfl hl,
          fun _ _ hpos => ?_, hok.loading⟩, sameCounts_write hn rfl rfl rfl⟩
      exact absurd hzero (Nat.pos_iff_ne_zero.mp hpos)
  · rename_i hpos
    rw [if_neg hpos] at hfits
    rw [resolveSymbols_snd hfits fun hl => (hok.lib hl).2.2]
    have hsame : s.setNode a n = s := by
      unfold setNode
      rw [← hn, update_eq_self]
    rw [hsame]
    exact ⟨h, fun _ => rfl⟩

lemma Sound.moduleVersion (opens : Bool) (hfits : s.Fits (.moduleVersion a opens r)) :
    (s.moduleVersion a opens r).Sound fallback ∧ s.SameCounts (s.moduleVersion a opens r) := by
  unfold Amdb.moduleVersion
  split
  · rename_i hmem
    obtain ⟨n, hn, hquery⟩ := hfits hmem
    have hs := h.aside s.registering (s.queries.erase a) h.pending
    rw [use_of_some (s := { s with queries := s.queries.erase a }) hn]
    split
    · exact ⟨hs, fun _ => rfl⟩
    · rename_i hdyn
      have hdyn : n.isStatic = false := Bool.eq_false_iff.mpr hdyn
      exact hs.dynModuleVersion hn opens (hquery hdyn)
  · exact ⟨h, fun _ => rfl⟩

lemma Sound.getDetails (moduleId : ℕ) :
    (s.getDetails moduleId).Sound fallback ∧ s.SameCounts (s.getDetails moduleId) := by
  unfold Amdb.getDetails
  split
  · exact ⟨h, fun _ => rfl⟩
  · rename_i a hht
    obtain ⟨n, hn, -⟩ := h.table moduleId a hht
    rw [use_of_some hn]
    split
    · exact ⟨h, fun _ => rfl⟩
    · exact ⟨h.aside s.registering (a :: s.queries) h.pending, fun _ => rfl⟩

lemma Sound.as (hs' : (a, x) ∈ s.holders → s'.Sound fallback) : (s.as a x s').Sound fallback := by
  unfold Amdb.as
  split
  · rename_i hmem
    exact hs' hmem
  · exact h

/-- **Each section keeps the invariant.** -/
theorem Sound.step (e : AmdbStep) (hfits : s.Fits e) : (Amdb.step fallback s e).Sound fallback := by
  cases e with
  | registerFind moduleId =>
    change Sound fallback (if s.registering = none ∧ s.ht moduleId = none then
      { s with registering := some moduleId } else s)
    split
    · rename_i hnew
      refine h.aside (some moduleId) s.queries fun k hk => ?_
      cases hk
      exact hnew.2
    · exact h
  | registerInsert m addr => exact h.registerInsert m addr
  | deregister moduleId => exact h.deregister moduleId
  | getNode moduleId => exact h.getNode moduleId
  | dynamicLoader a opens r => exact h.as fun hmem => h.dynamicLoader hmem opens r
  | dropFailed a => exact h.as fun hmem => h.drop hmem rfl
  | releaseDl a => exact h.as fun hmem => h.dropLibrary hmem rfl rfl (by decide)
  | releaseMem a => exact h.as fun hmem => h.drop hmem rfl
  | wrapperInitDl a => exact h.as fun hmem => h.takeLibrary hmem (by decide) rfl (by decide)
  | wrapperInitMem a => exact h.as fun hmem => h.takeNode hmem rfl (by decide)
  | wrapperEndDl a => exact h.as fun hmem => h.dropLibrary hmem rfl rfl (by decide)
  | wrapperEndMem a => exact h.as fun hmem => h.drop hmem rfl
  | getDetails moduleId => exact (h.getDetails moduleId).1
  | moduleVersion a opens r => exact (h.moduleVersion opens hfits).1

lemma Sound.keepsCounts (e : AmdbStep) (hfits : s.Fits e) : KeepsCounts fallback s e := by
  cases e with
  | dynamicLoader a opens r => exact h.sameCounts_dynamicLoader opens
  | getDetails moduleId => exact (h.getDetails moduleId).2
  | moduleVersion a opens r => exact (h.moduleVersion opens hfits).2
  | _ => trivial

end

end Invariant

/-! ## Runs -/

/-- **The references of the module database are exact in every run** that fits: each counter of a
node is the number of its owners, the node is freed with the last of them, and what is loaded has
the functions of a library that is open, or those of the image that replace it. -/
theorem references_exact (fallback : ℕ → Bool) (steps : List AmdbStep)
    (hfits : Meets (step fallback) Fits init steps) :
    Along (step fallback) (fun s => s.RefsExact ∧ s.Served fallback) init steps ∧
      Meets (step fallback) (KeepsCounts fallback) init steps := by
  have hsound : Along (step fallback) (Sound fallback) init steps :=
    along_of_meets (fun _ e h hfit => h.step e hfit) (sound_init fallback) hfits
  refine ⟨hsound.mono fun s h => ⟨h.refsExact, h.served⟩, ?_⟩
  exact meets_of_along (fun _ e h hfit => h.keepsCounts e hfit) hsound hfits

/-- A module with a library. -/
def dynamicModule : AmdbModule where
  isFramework := false
  hasFunctions := false
  hasFilename := true
  filenameLen := 8
  hasTag := true
  isBuiltIn := false

/-- A module is registered and loaded, an instance is created, its version is read, and all is
given back. -/
theorem references_exact_wholeLife :
    let steps : List AmdbStep :=
      [.registerFind 7, .registerInsert dynamicModule (some 0), .getNode 7,
        .dynamicLoader 0 true .found, .wrapperInitDl 0, .wrapperInitMem 0, .getDetails 7,
        .moduleVersion 0 true .found, .wrapperEndDl 0, .wrapperEndMem 0, .releaseDl 0,
        .releaseMem 0, .deregister 7]
    Along (step fun _ => false) (fun s => s.RefsExact ∧ s.Served fun _ => false) init steps ∧
      Meets (step fun _ => false) (KeepsCounts fun _ => false) init steps :=
  references_exact (fun _ => false) _
    ⟨trivial, trivial, trivial, trivial, trivial, trivial, trivial,
      fun _ => ⟨_, rfl, fun _ => fun _ => Or.inl rfl⟩, trivial, trivial, trivial, trivial, trivial,
      trivial⟩

/-- A module that is run from the image because its library can not be opened has references but
no library. -/
theorem not_references_exact_replaced : ¬ ∀ (fallback : ℕ → Bool) (steps : List AmdbStep),
      Along (step fallback) (fun s => s.RefsExact ∧ s.Served fun _ => false) init steps ∧
        Meets (step fallback) (KeepsCounts fallback) init steps := by
  intro h
  obtain ⟨halong, -⟩ := h (fun _ => true)
    [.registerFind 7, .registerInsert dynamicModule (some 0), .getNode 7,
      .dynamicLoader 0 false .noMemory]
  have hopened := halong.last.2.opened 0 _ rfl rfl
  rcases hopened.2 (by decide) with hopen | ⟨hreplaced, -⟩
  · exact hopen rfl
  · cases hreplaced

end Amdb

end AudioReach
