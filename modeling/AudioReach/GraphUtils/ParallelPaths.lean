import Mathlib.Data.Set.Card
import AudioReach.GraphUtils.SortOrder
import AudioReach.Library.Flood

/-!
# Parallel paths

`gu_update_parallel_paths` gives every module the index of the path that it is on.  From a module
without an index it goes along all links, in both directions, and gives the index to every module it
comes to; it stops at modules that have the index already.  An attached module, which has no links
of its own, takes the index of its host, and a module without ports has the index zero.

The walk is the flood of the library, with the links of a module as entries and attached modules as
tags.  `Assigned` is what holds between two modules of the outer loop: the modules with an index are
whole components, one for each index so far.
-/

namespace AudioReach

open Function (update update_of_ne update_self)
open Library List Option

/-- `INVALID_PATH_INDEX`. -/
def invalidPathIndex : ℕ := 255

/-- `path_index` of the modules, `num_parallel_paths`, and the index to be given next. -/
structure PathState where
  /-- `path_index`. -/
  path : Addr → ℕ
  /-- The local `path_index`. -/
  pathIndex : ℕ
  numParallelPaths : ℕ

namespace GuWorld

/-- `gu_propagate_path_index_backward`; `next` is `gu_propagate_path_index`. -/
def guPropagatePathIndexBackward (w : GuWorld)
    (next : (Addr → ℕ) → Addr → ℕ → Option (Addr → ℕ)) (path : Addr → ℕ) (ip : Addr)
    (pathIndex : ℕ) : Option (Addr → ℕ) :=
  match w.connOutPort ip with
  | none => some path
  | some op =>
    if pathIndex = path (w.outModule op) then some path else next path (w.outModule op) pathIndex

/-- `gu_propagate_path_index_forward`. -/
def guPropagatePathIndexForward (w : GuWorld)
    (next : (Addr → ℕ) → Addr → ℕ → Option (Addr → ℕ)) (path : Addr → ℕ) (op : Addr)
    (pathIndex : ℕ) : Option (Addr → ℕ) :=
  match w.connInPort op with
  | none => some path
  | some ip =>
    if pathIndex = path (w.inModule ip) then some path else next path (w.inModule ip) pathIndex

/-- `gu_propagate_path_index`; `none` if the rounds do not suffice. -/
def guPropagatePathIndex (w : GuWorld) : ℕ → (Addr → ℕ) → Addr → ℕ → Option (Addr → ℕ)
  | 0, _, _, _ => none
  | rounds + 1, path, m, pathIndex => do
    let path := update path m pathIndex
    let path ← (w.inputPortList m).foldlM (fun path ip =>
      w.guPropagatePathIndexBackward (w.guPropagatePathIndex rounds) path ip (path m)) path
    (w.outputPortList m).foldlM (fun path op =>
      let path := match w.attachedModule op with
        | some a => update path a (path m)
        | none => path
      w.guPropagatePathIndexForward (w.guPropagatePathIndex rounds) path op (path m)) path

/-- One round of the loop that assigns the indices.  The field of a module has eight bits. -/
def guAssignPathIndex (w : GuWorld) (rounds : ℕ) (s : PathState) (m : Addr) : Option PathState :=
  if (w.hostOutputPort m).isSome then some s
  else if s.path m ≠ invalidPathIndex then some s
  else if w.inputPortList m = [] ∧ w.outputPortList m = [] then
    some { s with path := update s.path m 0 }
  else do
    let path ← w.guPropagatePathIndex rounds s.path m (s.pathIndex % 256)
    let pathIndex := (s.pathIndex + 1) % 65536
    if pathIndex = invalidPathIndex then return ⟨path, 0, pathIndex % 256⟩
    else return ⟨path, pathIndex, s.numParallelPaths⟩

/-- `gu_update_parallel_paths`: the indices of the modules and `num_parallel_paths`. -/
def guUpdateParallelPaths (w : GuWorld) (rounds : ℕ) (path : Addr → ℕ) :
    Option ((Addr → ℕ) × ℕ) := do
  let path := w.modules.foldl (fun path m => update path m invalidPathIndex) path
  let s ← w.modules.foldlM (w.guAssignPathIndex rounds) ⟨path, 0, 0⟩
  return (s.path, if s.numParallelPaths = 0 then s.pathIndex % 256 else s.numParallelPaths)

/-! ## Components -/

/-- A module that has ports and is not attached. -/
structure PathModule (w : GuWorld) (m : Addr) : Prop where
  mem : m ∈ w.modules
  host : w.hostOutputPort m = none
  ports : w.inputPortList m ≠ [] ∨ w.outputPortList m ≠ []

/-- The modules are connected by internal links, whatever their direction. -/
def WeaklyConnected (w : GuWorld) : Addr → Addr → Prop := Relation.EqvGen w.Linked

/-- The component of a module. -/
def pathOf (w : GuWorld) (m : Addr) : Set Addr := {n | w.PathModule n ∧ w.WeaklyConnected m n}

/-- The weakly connected components of the modules that have ports and are not attached. -/
def parallelPaths (w : GuWorld) : Set (Set Addr) := w.pathOf '' {m | w.PathModule m}

/-- A container graph with symmetric links and attachments. -/
structure SymmetricLinks (w : GuWorld) : Prop where
  outs_own : ∀ m ∈ w.modules, ∀ o ∈ w.outputPortList m, w.outModule o = m
  ins_own : ∀ m ∈ w.modules, ∀ p ∈ w.inputPortList m, w.inModule p = m
  /-- A link leads to an input port of the graph that leads back. -/
  conn_in : ∀ m ∈ w.modules, ∀ o ∈ w.outputPortList m, ∀ p, w.connInPort o = some p →
    w.inModule p ∈ w.modules ∧ p ∈ w.inputPortList (w.inModule p) ∧ w.connOutPort p = some o
  conn_out : ∀ m ∈ w.modules, ∀ p ∈ w.inputPortList m, ∀ o, w.connOutPort p = some o →
    w.outModule o ∈ w.modules ∧ o ∈ w.outputPortList (w.outModule o) ∧ w.connInPort o = some p
  attached : ∀ m ∈ w.modules, ∀ o ∈ w.outputPortList m, ∀ a, w.attachedModule o = some a →
    w.hostOutputPort a = some o
  /-- A host port belongs to a module of the graph, which is not attached itself. -/
  host : ∀ a ∈ w.modules, ∀ o, w.hostOutputPort a = some o →
    w.outModule o ∈ w.modules ∧ o ∈ w.outputPortList (w.outModule o) ∧
      w.attachedModule o = some a ∧ w.hostOutputPort (w.outModule o) = none
  free : ∀ a ∈ w.modules, w.hostOutputPort a ≠ none →
    (∀ p ∈ w.inputPortList a, w.connOutPort p = none) ∧
      ∀ o ∈ w.outputPortList a, w.connInPort o = none

/-- Links that agree are symmetric. -/
lemma symmetricLinks_of_wired {w : GuWorld} (h : w.linkView.Wired) : w.SymmetricLinks := by
  have hw := h.wires
  refine ⟨fun m hm o ho => (hw.outs_own m hm o ho).1, fun m hm p hp => (hw.ins_own m hm p hp).1,
    fun m hm o ho p hp => ?_, fun m hm p hp o ho => ?_, fun m hm o ho a ha => ?_,
    fun a ha o ho => ?_, fun a ha hhost => ?_⟩
  · obtain ⟨hlive, hback⟩ := hw.conn.right o p (hw.outLive hm ho) hp
    exact ⟨hlive.1, hlive.2, hback⟩
  · obtain ⟨hlive, hback⟩ := hw.conn.left p o (hw.inLive hm hp) ho
    exact ⟨hlive.1, hlive.2, hback⟩
  · exact (hw.att.right o a (hw.outLive hm ho) ha).2
  · obtain ⟨hlive, hback⟩ := hw.att.left a o ha ho
    exact ⟨hlive.1, hlive.2, hback, (hw.shape a ha o ho).2.2⟩
  · obtain ⟨op, hop⟩ := ne_none_iff_exists'.mp hhost
    obtain ⟨⟨i, o, hins, houts, hup, -, hdown, -, -⟩, -⟩ := hw.shape a ha op hop
    rw [show w.inputPortList a = [i] from hins, show w.outputPortList a = [o] from houts]
    refine ⟨fun p hp => ?_, fun o' ho' => ?_⟩
    · rw [mem_singleton.mp hp]
      exact hup
    · rw [mem_singleton.mp ho']
      exact hdown

/-- Every module has the index of its path. -/
structure PathsRight (w : GuWorld) (path : Addr → ℕ) (numParallelPaths : ℕ) : Prop where
  /-- Two modules have the same index exactly if links connect them. -/
  same : ∀ m n, w.PathModule m → w.PathModule n → (path m = path n ↔ w.WeaklyConnected m n)
  attached : ∀ a ∈ w.modules, ∀ o, w.hostOutputPort a = some o → path a = path (w.outModule o)
  count : numParallelPaths = w.parallelPaths.ncard
  /-- An index is zero or below the number of paths. -/
  bound : ∀ m ∈ w.modules, path m ≠ 0 → path m < numParallelPaths

/-! ## The walk is a flood -/

/-- The links of a module as the walk goes through them, with the modules attached to outputs. -/
def pathEntries (w : GuWorld) (m : Addr) : List (FloodEntry Addr) :=
  (w.inputPortList m).map (fun p => ⟨none, (w.connOutPort p).map w.outModule⟩) ++
    (w.outputPortList m).map (fun o => ⟨w.attachedModule o, (w.connInPort o).map w.inModule⟩)

/-- The propagation floods the graph of the entries. -/
lemma guPropagatePathIndex_eq (w : GuWorld) (rounds : ℕ) :
    w.guPropagatePathIndex rounds = flood w.pathEntries rounds := by
  induction rounds with
  | zero => rfl
  | succ rounds ih =>
    funext path m pathIndex
    simp only [guPropagatePathIndex, flood, pathEntries, foldlM_append, foldlM_map, ih]
    congr 1
    · congr 1
      funext path p
      unfold guPropagatePathIndexBackward floodEntry floodTag
      cases w.connOutPort p with
      | none => rfl
      | some o => simp only [map_some, eq_comm]
    · funext path
      congr 1
      funext path o
      unfold guPropagatePathIndexForward floodEntry floodTag
      cases w.connInPort o with
      | none => cases w.attachedModule o <;> rfl
      | some p => cases w.attachedModule o <;> simp only [map_some, eq_comm]

/-- The modules that are not attached. -/
def pathVerts (w : GuWorld) : Finset Addr :=
  w.modules.toFinset.filter fun m => w.hostOutputPort m = none

/-- The vertices are the modules that are not attached. -/
lemma mem_pathVerts {w : GuWorld} {m : Addr} :
    m ∈ w.pathVerts ↔ m ∈ w.modules ∧ w.hostOutputPort m = none := by
  simp [pathVerts]

variable {rounds : ℕ}

namespace SymmetricLinks

variable {w : GuWorld} (h : w.SymmetricLinks)

include h

variable {m n : Addr}

/-- Linked modules are on paths. -/
lemma pathModules_of_linked (hlink : w.Linked m n) : w.PathModule m ∧ w.PathModule n := by
  obtain ⟨hm, o, ho, p, hp, rfl⟩ := hlink
  obtain ⟨hn, hpn, hback⟩ := h.conn_in m hm o ho p hp
  refine ⟨⟨hm, ?_, Or.inr (ne_nil_of_mem ho)⟩, hn, ?_, Or.inl (ne_nil_of_mem hpn)⟩
  · by_contra hhost
    rw [(h.free m hm hhost).2 o ho] at hp
    cases hp
  · by_contra hhost
    rw [(h.free _ hn hhost).1 p hpn] at hback
    cases hback

/-- An entry leads along a link, in one direction or the other. -/
lemma linked_of_leads (hm : m ∈ w.modules) (hlead : Leads w.pathEntries m n) :
    w.Linked n m ∨ w.Linked m n := by
  obtain ⟨e, he, htarget⟩ := hlead
  rcases mem_append.mp he with he | he
  · obtain ⟨p, hp, rfl⟩ := List.mem_map.mp he
    obtain ⟨o, ho, rfl⟩ := map_eq_some_iff.mp htarget
    obtain ⟨hmem, hout, hback⟩ := h.conn_out m hm p hp o ho
    exact Or.inl ⟨hmem, o, hout, p, hback, h.ins_own m hm p hp⟩
  · obtain ⟨o, ho, rfl⟩ := List.mem_map.mp he
    obtain ⟨p, hp, rfl⟩ := map_eq_some_iff.mp htarget
    exact Or.inr ⟨hm, o, ho, p, hp, rfl⟩

/-- The entries of the modules form a graph that can be flooded. -/
lemma floodGraph : FloodGraph w.pathEntries w.pathVerts where
  target_mem := by
    intro m hm e he k hk
    have hm' := (mem_pathVerts.mp hm).1
    rcases h.linked_of_leads hm' ⟨e, he, hk⟩ with hlink | hlink
    · have hk := (h.pathModules_of_linked hlink).1
      exact mem_pathVerts.mpr ⟨hk.mem, hk.host⟩
    · have hk := (h.pathModules_of_linked hlink).2
      exact mem_pathVerts.mpr ⟨hk.mem, hk.host⟩
  tag_not_mem := by
    intro m hm e he a ha hmem
    rcases mem_append.mp he with he | he
    · obtain ⟨p, -, rfl⟩ := List.mem_map.mp he
      cases ha
    · obtain ⟨o, ho, rfl⟩ := List.mem_map.mp he
      have hhost := h.attached m (mem_pathVerts.mp hm).1 o ho a ha
      rw [(mem_pathVerts.mp hmem).2] at hhost
      cases hhost

/-- What is reached is on the same path. -/
lemma connected_of_reached (hm : w.PathModule m)
    (hreach : Relation.ReflTransGen (Leads w.pathEntries) m n) :
    w.PathModule n ∧ w.WeaklyConnected m n := by
  induction hreach with
  | refl => exact ⟨hm, .refl m⟩
  | tail _ hlead ih =>
    rcases h.linked_of_leads ih.1.mem hlead with hlink | hlink
    · exact ⟨(h.pathModules_of_linked hlink).1, ih.2.trans _ _ _ (.symm _ _ (.rel _ _ hlink))⟩
    · exact ⟨(h.pathModules_of_linked hlink).2, ih.2.trans _ _ _ (.rel _ _ hlink)⟩

omit h in
/-- What links keep is the same all over a path. -/
lemma iff_of_connected {P : Addr → Prop} (hclosed : ∀ m n, w.Linked m n → (P m ↔ P n))
    (hconn : w.WeaklyConnected m n) : P m ↔ P n := by
  induction hconn with
  | rel m n hlink => exact hclosed m n hlink
  | refl m => exact Iff.rfl
  | symm m n _ ih => exact ih.symm
  | trans m n k _ _ ih ih' => exact ih.trans ih'

/-- **One walk.**  From a module without an index, where no module has the index to be given: the
modules of its component have the index now, and so have the modules attached to them; all others
are as they were. -/
lemma walk {path : Addr → ℕ} {k : ℕ} (hm : w.PathModule m)
    (hfresh : ∀ n, w.PathModule n → path n ≠ k) (hrounds : w.modules.length ≤ rounds) :
    ∃ path', w.guPropagatePathIndex rounds path m k = some path' ∧
      (∀ n, w.PathModule n → w.WeaklyConnected m n → path' n = k) ∧
      (∀ a o, w.hostOutputPort a = some o → a ∈ w.modules →
        w.WeaklyConnected m (w.outModule o) → path' a = k) ∧
      ∀ n ∈ w.modules, path' n ≠ path n → w.PathModule n ∧ w.WeaklyConnected m n ∨
          ∃ o, w.hostOutputPort n = some o ∧ w.WeaklyConnected m (w.outModule o) := by
  have hcard : (others w.pathVerts k path).card ≤ rounds := by
    refine le_trans (Finset.card_le_card (Finset.filter_subset _ _)) ?_
    refine le_trans (Finset.card_le_card (Finset.filter_subset _ _)) ?_
    exact le_trans (toFinset_card_le _) hrounds
  obtain ⟨path', hresult, hspec⟩ := flood_spec h.floodGraph
    (mem_pathVerts.mpr ⟨hm.mem, hm.host⟩) (hfresh m hm) hcard
  have hnewly : ∀ n, w.PathModule n → path' n = k → Newly w.pathVerts k path path' n :=
    fun n hn hk => ⟨mem_pathVerts.mpr ⟨hn.mem, hn.host⟩, hfresh n hn, hk⟩
  -- links do not leave the modules with the index
  have hclosed : ∀ a b, w.Linked a b → ((w.PathModule a ∧ path' a = k) ↔
      (w.PathModule b ∧ path' b = k)) := by
    intro a b hlink
    obtain ⟨ha, hb⟩ := h.pathModules_of_linked hlink
    obtain ⟨-, o, ho, p, hp, rfl⟩ := hlink
    obtain ⟨-, hpb, hback⟩ := h.conn_in a ha.mem o ho p hp
    constructor
    · rintro ⟨-, hk⟩
      refine ⟨hb, (hspec.closed a (hnewly a ha hk) (fun hfalse => hfalse)
        ⟨w.attachedModule o, (w.connInPort o).map w.inModule⟩ ?_).1 _ (by simp [hp])⟩
      exact mem_append_right _ (List.mem_map.mpr ⟨o, ho, rfl⟩)
    · rintro ⟨-, hk⟩
      have hown := h.outs_own a ha.mem o ho
      refine ⟨ha, (hspec.closed _ (hnewly _ hb hk) (fun hfalse => hfalse)
        ⟨none, (w.connOutPort p).map w.outModule⟩ ?_).1 _ (by simp [hback, hown])⟩
      exact mem_append_left _ (List.mem_map.mpr ⟨p, hpb, rfl⟩)
  have hcomponent : ∀ n, w.WeaklyConnected m n → w.PathModule n ∧ path' n = k := by
    intro n hconn
    exact (iff_of_connected hclosed hconn).mp ⟨hm, hspec.root⟩
  refine ⟨path', by rw [guPropagatePathIndex_eq]; exact hresult,
    fun n _ hconn => (hcomponent n hconn).2, fun a o hhost ha hconn => ?_, fun n hn hne => ?_⟩
  · obtain ⟨hmod, hout, hatt, -⟩ := h.host a ha o hhost
    obtain ⟨hpath, hk⟩ := hcomponent _ hconn
    refine (hspec.closed _ (hnewly _ hpath hk) (fun hfalse => hfalse)
      ⟨w.attachedModule o, (w.connInPort o).map w.inModule⟩ ?_).2 a hatt
    exact mem_append_right _ (List.mem_map.mpr ⟨o, hout, rfl⟩)
  · rcases hspec.tags n hne with hvert | ⟨d, hd, e, he, htag⟩
    · have hk : path' n = k := (hspec.kept n).resolve_left hne
      have hold : path n ≠ k := fun heq => hne (hk.trans heq.symm)
      exact Or.inl (h.connected_of_reached hm (hspec.reach n ⟨hvert, hold, hk⟩))
    · obtain ⟨hd', hconn⟩ := h.connected_of_reached hm (hspec.reach d hd)
      rcases mem_append.mp he with he | he
      · obtain ⟨p, -, rfl⟩ := List.mem_map.mp he
        cases htag
      · obtain ⟨o, ho, rfl⟩ := List.mem_map.mp he
        refine Or.inr ⟨o, h.attached d hd'.mem o ho n htag, ?_⟩
        rw [h.outs_own d hd'.mem o ho]
        exact hconn

end SymmetricLinks

/-! ## The loop over the modules -/

/-- Between two rounds of the loop: the modules `done` have been gone through, and the indices below
`k` have been given. -/
structure Assigned (w : GuWorld) (done : List Addr) (k : ℕ) (path : Addr → ℕ) : Prop where
  seen : ∀ m ∈ done, m ∈ w.modules → w.hostOutputPort m = none → path m ≠ invalidPathIndex
  /-- A module without ports has the index zero or none. -/
  dangling : ∀ m ∈ w.modules, w.hostOutputPort m = none → ¬ w.PathModule m →
    path m = invalidPathIndex ∨ path m = 0
  /-- The other indices are below `k`. -/
  small : ∀ m, w.PathModule m → path m = invalidPathIndex ∨ path m < k
  same : ∀ m n, w.PathModule m → w.PathModule n → path m ≠ invalidPathIndex →
    (path m = path n ↔ w.WeaklyConnected m n)
  attached : ∀ a ∈ w.modules, ∀ o, w.hostOutputPort a = some o → path a = path (w.outModule o)
  /-- Each of the indices below `k` has been used. -/
  used : ∀ i < k, ∃ m, w.PathModule m ∧ path m = i

namespace Assigned

variable {w : GuWorld} {done : List Addr} {k : ℕ} {path : Addr → ℕ}

/-- There are finitely many paths. -/
lemma finite_parallelPaths (w : GuWorld) : w.parallelPaths.Finite :=
  (w.modules.toFinset.finite_toSet.subset fun _ hm => by
    exact List.mem_toFinset.mpr hm.mem).image _

/-- Before the loop no module has an index. -/
lemma init (w : GuWorld) (path : Addr → ℕ) (hsym : w.SymmetricLinks) :
    w.Assigned [] 0 (w.modules.foldl (fun path m => update path m invalidPathIndex) path) := by
  have hall : ∀ (l : List Addr) (path : Addr → ℕ) (m : Addr), (m ∈ l ∨ path m = invalidPathIndex) →
        l.foldl (fun path m => update path m invalidPathIndex) path m = invalidPathIndex := by
    intro l
    induction l with
    | nil =>
      intro path m hm
      exact hm.resolve_left not_mem_nil
    | cons d l ih =>
      intro path m hm
      apply ih
      by_cases hd : m = d
      · subst hd
        exact Or.inr (update_self _ _ _)
      · change m ∈ l ∨ update path d invalidPathIndex m = invalidPathIndex
        rw [update_of_ne hd]
        exact hm.imp (fun hm => (mem_cons.mp hm).resolve_left hd) id
  have hinvalid := fun m (hm : m ∈ w.modules) => hall w.modules path m (Or.inl hm)
  refine ⟨(fun m hm => nomatch hm), fun m hm _ _ => Or.inl (hinvalid m hm),
    fun m hm => Or.inl (hinvalid m hm.mem), fun m n hm _ hne => absurd (hinvalid m hm.mem) hne,
    fun a ha o hhost => ?_, fun i hi => absurd hi (Nat.not_lt_zero i)⟩
  rw [hinvalid a ha, hinvalid _ (hsym.host a ha o hhost).1]

section

variable {m : Addr} (h : w.Assigned done k path)
include h

/-- The modules with an index below `k` are a component. -/
lemma component (hk : k ≤ invalidPathIndex) {i : ℕ} (hi : i < k) :
    {n | w.PathModule n ∧ path n = i} ∈ w.parallelPaths := by
  obtain ⟨m, hm, hpath⟩ := h.used i hi
  have hvalid : path m ≠ invalidPathIndex := by omega
  refine ⟨m, hm, ?_⟩
  ext n
  constructor
  · rintro ⟨hn, hconn⟩
    exact ⟨hn, ((h.same m n hm hn hvalid).mpr hconn).symm.trans hpath⟩
  · rintro ⟨hn, hpathn⟩
    exact ⟨hn, (h.same m n hm hn hvalid).mp (hpath.trans hpathn.symm)⟩

/-- There are as many classes as indices. -/
lemma ncard_image :
    ((fun i => {n | w.PathModule n ∧ path n = i}) '' (Finset.range k : Set ℕ)).ncard = k := by
  rw [Set.InjOn.ncard_image, Set.ncard_coe_finset, Finset.card_range]
  intro i hi j _ heq
  obtain ⟨m, hm, hpath⟩ := h.used i (Finset.mem_range.mp hi)
  have heq : {n | w.PathModule n ∧ path n = i} = {n | w.PathModule n ∧ path n = j} := heq
  have hmem : m ∈ {n | w.PathModule n ∧ path n = j} := heq ▸ ⟨hm, hpath⟩
  exact hpath.symm.trans hmem.2

/-- No more indices are used than there are paths. -/
lemma le_ncard (hk : k ≤ invalidPathIndex) : k ≤ w.parallelPaths.ncard := by
  have hsub : (fun i => {n | w.PathModule n ∧ path n = i}) ''
      (Finset.range k : Set ℕ) ⊆ w.parallelPaths := by
    rintro C ⟨i, hi, rfl⟩
    exact h.component hk (Finset.mem_range.mp hi)
  have hle := Set.ncard_le_ncard hsub (finite_parallelPaths w)
  rwa [h.ncard_image] at hle

/-- A module that is done or attached is skipped. -/
lemma skip (hm : w.hostOutputPort m = none → path m ≠ invalidPathIndex) :
    w.Assigned (done ++ [m]) k path := by
  refine { h with seen := fun n hn hmem hhost => ?_ }
  rcases mem_append.mp hn with hn | hn
  · exact h.seen n hn hmem hhost
  · obtain rfl := mem_singleton.mp hn
    exact hm hhost

/-- A module without ports. -/
lemma dangle (hsym : w.SymmetricLinks) (hhost : w.hostOutputPort m = none)
    (hports : ¬ w.PathModule m) : w.Assigned (done ++ [m]) k (update path m 0) := by
  have hpath : ∀ n, w.PathModule n → update path m 0 n = path n := by
    intro n hn
    refine update_of_ne ?_ _ _
    rintro rfl
    exact hports hn
  refine ⟨fun n hn hmem hnhost => ?_, fun n hn hnhost hnports => ?_, fun n hn => ?_,
    fun n d hn hd hne => ?_, fun a ha o ho => ?_, fun i hi => ?_⟩
  · by_cases heq : n = m
    · subst heq
      rw [update_self]
      decide
    · rw [update_of_ne heq]
      rcases mem_append.mp hn with hn | hn
      · exact h.seen n hn hmem hnhost
      · exact absurd (mem_singleton.mp hn) heq
  · by_cases heq : n = m
    · subst heq
      exact Or.inr (update_self _ _ _)
    · rw [update_of_ne heq]
      exact h.dangling n hn hnhost hnports
  · rw [hpath n hn]
    exact h.small n hn
  · rw [hpath n hn] at hne ⊢
    rw [hpath d hd]
    exact h.same n d hn hd hne
  · obtain ⟨hmod, hout, -, hfree⟩ := hsym.host a ha o ho
    have hne : a ≠ m := ne_of_apply_eq ho hhost nofun
    rw [update_of_ne hne, hpath _ ⟨hmod, hfree, Or.inr (ne_nil_of_mem hout)⟩]
    exact h.attached a ha o ho
  · obtain ⟨n, hn, heq⟩ := h.used i hi
    exact ⟨n, hn, (hpath n hn).trans heq⟩

/-- A walk from a module without an index gives its component the next index. -/
lemma walk (hsym : w.SymmetricLinks) (hk : k < invalidPathIndex) (hm : w.PathModule m)
    (hnone : path m = invalidPathIndex) (hrounds : w.modules.length ≤ rounds) :
    ∃ path', w.guPropagatePathIndex rounds path m k = some path' ∧
      w.Assigned (done ++ [m]) (k + 1) path' := by
  have hfresh : ∀ n, w.PathModule n → path n ≠ k := by
    intro n hn
    rcases h.small n hn with heq | hlt
    · omega
    · omega
  obtain ⟨path', hresult, hcomponent, hattached, hchanged⟩ := hsym.walk hm hfresh hrounds
  -- outside the component nothing changes, and in it no module had an index
  have hother : ∀ n, w.PathModule n → ¬ w.WeaklyConnected m n → path' n = path n := by
    intro n hn hconn
    by_contra hne
    rcases hchanged n hn.mem hne with ⟨-, hconn'⟩ | ⟨o, ho, -⟩
    · exact hconn hconn'
    · rw [hn.host] at ho
      cases ho
  have hunassigned : ∀ n, w.PathModule n → w.WeaklyConnected m n → path n = invalidPathIndex := by
    intro n hn hconn
    by_contra hne
    have heq := (h.same n m hn hm hne).mpr (.symm _ _ hconn)
    exact hne (heq.trans hnone)
  have hcases : ∀ n, w.PathModule n → w.WeaklyConnected m n ∧ path' n = k ∨
      ¬ w.WeaklyConnected m n ∧ path' n = path n := by
    intro n hn
    by_cases hconn : w.WeaklyConnected m n
    · exact Or.inl ⟨hconn, hcomponent n hn hconn⟩
    · exact Or.inr ⟨hconn, hother n hn hconn⟩
  have hdangling : ∀ n ∈ w.modules, w.hostOutputPort n = none → ¬ w.PathModule n →
      path' n = path n := by
    intro n hn hhost hports
    by_contra hne
    rcases hchanged n hn hne with ⟨hpath, -⟩ | ⟨o, ho, -⟩
    · exact hports hpath
    · rw [hhost] at ho
      cases ho
  refine ⟨path', hresult, fun n hn hmem hhost => ?_, fun n hn hhost hports => ?_, fun n hn => ?_,
    fun n d hn hd hne => ?_, fun a ha o ho => ?_, fun i hi => ?_⟩
  · rcases mem_append.mp hn with hn | hn
    · have hseen := h.seen n hn hmem hhost
      by_cases heq : path' n = path n
      · rwa [heq]
      · rcases hchanged n hmem heq with ⟨hpath, hconn⟩ | ⟨o, ho, -⟩
        · exact absurd (hunassigned n hpath hconn) hseen
        · rw [hhost] at ho
          cases ho
    · obtain rfl := mem_singleton.mp hn
      rw [hcomponent n hm (.refl n)]
      omega
  · rw [hdangling n hn hhost hports]
    exact h.dangling n hn hhost hports
  · rcases hcases n hn with ⟨-, heq⟩ | ⟨-, heq⟩
    · exact Or.inr (by omega)
    · rw [heq]
      exact (h.small n hn).imp_right fun hlt => Nat.lt_succ_of_lt hlt
  · rcases hcases n hn with ⟨hconn, heq⟩ | ⟨hconn, heq⟩
    · rcases hcases d hd with ⟨hconn', heq'⟩ | ⟨hconn', heq'⟩
      · rw [heq, heq']
        exact iff_of_true rfl (.trans _ _ _ (.symm _ _ hconn) hconn')
      · rw [heq, heq']
        refine iff_of_false (fun hkd => hfresh d hd hkd.symm) fun hnd => ?_
        exact hconn' (.trans _ _ _ hconn hnd)
    · rw [heq] at hne ⊢
      rcases hcases d hd with ⟨hconn', heq'⟩ | ⟨hconn', heq'⟩
      · rw [heq']
        refine iff_of_false (hfresh n hn) fun hnd => ?_
        exact hconn (.trans _ _ _ hconn' (.symm _ _ hnd))
      · rw [heq']
        exact h.same n d hn hd hne
  · obtain ⟨hmod, hout, -, hfree⟩ := hsym.host a ha o ho
    have hpath : w.PathModule (w.outModule o) :=
      ⟨hmod, hfree, Or.inr (ne_nil_of_mem hout)⟩
    rcases hcases _ hpath with ⟨hconn, heq⟩ | ⟨hconn, heq⟩
    · rw [heq, hattached a o ho ha hconn]
    · rw [heq, ← h.attached a ha o ho]
      by_contra hne
      rcases hchanged a ha hne with ⟨hpatha, -⟩ | ⟨o', ho', hconn'⟩
      · rw [hpatha.host] at ho
        cases ho
      · obtain rfl := Option.some.inj (ho.symm.trans ho')
        exact hconn hconn'
  · rcases Nat.lt_succ_iff_lt_or_eq.mp hi with hlt | rfl
    · obtain ⟨n, hn, heq⟩ := h.used i hlt
      refine ⟨n, hn, ?_⟩
      rcases hcases n hn with ⟨hconn, -⟩ | ⟨-, hsame⟩
      · have hinvalid := hunassigned n hn hconn
        omega
      · rw [hsame, heq]
    · exact ⟨m, hm, hcomponent m hm (.refl m)⟩

end

/-- One round of the loop. -/
lemma round {s : PathState} (h : w.Assigned done s.pathIndex s.path) (hsym : w.SymmetricLinks)
    (hfew : w.parallelPaths.ncard ≤ 254) (hnum : s.numParallelPaths = 0)
    (hindex : s.pathIndex ≤ 254) {m : Addr} (hm : m ∈ w.modules)
    (hrounds : w.modules.length ≤ rounds) :
    ∃ s', w.guAssignPathIndex rounds s m = some s' ∧
      w.Assigned (done ++ [m]) s'.pathIndex s'.path ∧ s'.numParallelPaths = 0 ∧
      s'.pathIndex ≤ 254 := by
  unfold guAssignPathIndex
  cases hhost : w.hostOutputPort m with
  | some o =>
    refine ⟨s, rfl, h.skip fun hnone => ?_, hnum, hindex⟩
    rw [hhost] at hnone
    cases hnone
  | none =>
    by_cases hassigned : s.path m ≠ invalidPathIndex
    · rw [if_pos hassigned]
      exact ⟨s, rfl, h.skip fun _ => hassigned, hnum, hindex⟩
    · rw [if_neg hassigned]
      by_cases hports : w.inputPortList m = [] ∧ w.outputPortList m = []
      · rw [if_pos hports]
        refine ⟨_, rfl, h.dangle hsym hhost fun hpath => ?_, hnum, hindex⟩
        exact hpath.ports.elim (fun hin => hin hports.1) fun hout => hout hports.2
      · rw [if_neg hports]
        have hpath : w.PathModule m := by
          refine ⟨hm, hhost, ?_⟩
          by_contra hnone
          push Not at hnone
          exact hports hnone
        have hlt : s.pathIndex < invalidPathIndex := Nat.lt_succ_of_le hindex
        obtain ⟨path', hresult, h'⟩ := h.walk hsym hlt hpath (not_not.mp hassigned) hrounds
        -- the new index is one of the components, so the numbers do not run out
        have hle := h'.le_ncard (Nat.succ_le_of_lt hlt)
        have hmod : s.pathIndex % 256 = s.pathIndex := Nat.mod_eq_of_lt (by omega)
        have hnext : (s.pathIndex + 1) % 65536 = s.pathIndex + 1 := Nat.mod_eq_of_lt (by omega)
        have hne : ¬ s.pathIndex + 1 = invalidPathIndex := by
          unfold invalidPathIndex
          omega
        rw [hmod, hresult]
        simp only [bind_eq_bind, bind_some, hnext, if_neg hne]
        have hindex' : s.pathIndex + 1 ≤ 254 := hle.trans hfew
        exact ⟨_, rfl, h', hnum, hindex'⟩

/-- The loop gives each path its index. -/
lemma loop (hsym : w.SymmetricLinks) (hfew : w.parallelPaths.ncard ≤ 254)
    (hrounds : w.modules.length ≤ rounds) {rest : List Addr} (hrest : ∀ m ∈ rest, m ∈ w.modules)
    {done : List Addr} {s : PathState} (h : w.Assigned done s.pathIndex s.path)
    (hnum : s.numParallelPaths = 0) (hindex : s.pathIndex ≤ 254) :
    ∃ s', rest.foldlM (w.guAssignPathIndex rounds) s = some s' ∧
      w.Assigned (done ++ rest) s'.pathIndex s'.path ∧ s'.numParallelPaths = 0 ∧
      s'.pathIndex ≤ 254 := by
  induction rest generalizing done s with
  | nil => exact ⟨s, rfl, by rwa [append_nil], hnum, hindex⟩
  | cons m rest ih =>
    obtain ⟨s₁, hround, h₁, hnum₁, hindex₁⟩ :=
      h.round hsym hfew hnum hindex (hrest m mem_cons_self) hrounds
    obtain ⟨s₂, hloop, h₂, hnum₂, hindex₂⟩ :=
      ih (fun n hn => hrest n (mem_cons_of_mem m hn)) h₁ hnum₁ hindex₁
    refine ⟨s₂, ?_, ?_, hnum₂, hindex₂⟩
    · rw [foldlM_cons, hround]
      exact hloop
    · rw [append_assoc] at h₂
      exact h₂

/-- In the end the indices are as many as the paths. -/
lemma ncard_eq (h : w.Assigned w.modules k path) (hk : k ≤ invalidPathIndex) :
    k = w.parallelPaths.ncard := by
  have heq : (fun i => {n | w.PathModule n ∧ path n = i}) '' (Finset.range k : Set ℕ) =
      w.parallelPaths := by
    apply Set.Subset.antisymm
    · rintro C ⟨i, hi, rfl⟩
      exact h.component hk (Finset.mem_range.mp hi)
    · rintro C ⟨m, hm, rfl⟩
      have hseen := h.seen m hm.mem hm.mem hm.host
      have hlt := (h.small m hm).resolve_left hseen
      refine ⟨path m, Finset.mem_range.mpr hlt, ?_⟩
      ext n
      constructor
      · rintro ⟨hn, hpathn⟩
        exact ⟨hn, (h.same m n hm hn hseen).mp hpathn.symm⟩
      · rintro ⟨hn, hconn⟩
        exact ⟨hn, ((h.same m n hm hn hseen).mpr hconn).symm⟩
  rw [← heq, h.ncard_image]

/-- In the end the indices are those of the paths. -/
lemma pathsRight (h : w.Assigned w.modules k path) (hsym : w.SymmetricLinks)
    (hk : k ≤ invalidPathIndex) : w.PathsRight path k := by
  have hsmall : ∀ m, w.PathModule m → path m < k := fun m hm =>
    (h.small m hm).resolve_left (h.seen m hm.mem hm.mem hm.host)
  refine ⟨fun m n hm hn => h.same m n hm hn (h.seen m hm.mem hm.mem hm.host), h.attached,
    h.ncard_eq hk, fun m hm hne => ?_⟩
  cases hhost : w.hostOutputPort m with
  | some o =>
    obtain ⟨hmod, hout, -, hfree⟩ := hsym.host m hm o hhost
    rw [h.attached m hm o hhost]
    exact hsmall _ ⟨hmod, hfree, Or.inr (ne_nil_of_mem hout)⟩
  | none =>
    by_cases hpath : w.PathModule m
    · exact hsmall m hpath
    · rcases h.dangling m hm hhost hpath with hinvalid | hzero
      · exact absurd hinvalid (h.seen m hm hm hhost)
      · exact absurd hzero hne

end Assigned

/-- **Parallel paths.**  On a graph with symmetric links and at most 254 components, as many rounds
as there are modules are enough for every walk, and every module gets the index of its path. -/
theorem guUpdateParallelPaths_right {w : GuWorld} (h : w.SymmetricLinks)
    (hfew : w.parallelPaths.ncard ≤ 254) (path : Addr → ℕ) {rounds : ℕ}
    (hrounds : w.modules.length ≤ rounds) :
    ∃ path' numParallelPaths, w.guUpdateParallelPaths rounds path = some (path', numParallelPaths) ∧
      w.PathsRight path' numParallelPaths := by
  obtain ⟨s, hloop, hs, hnum, hindex⟩ := Assigned.loop h hfew hrounds (fun m hm => hm)
    (s := ⟨_, 0, 0⟩) (Assigned.init w path h) rfl (Nat.zero_le _)
  refine ⟨s.path, s.pathIndex, ?_, ?_⟩
  · unfold guUpdateParallelPaths
    simp only [hloop, bind_eq_bind, bind_some, hnum, if_true]
    rw [Nat.mod_eq_of_lt (by omega)]
    rfl
  · exact hs.pathsRight h (by unfold invalidPathIndex; omega)

/-- There are no more paths than modules. -/
lemma ncard_parallelPaths_le (w : GuWorld) : w.parallelPaths.ncard ≤ w.modules.length := by
  have hsub : {m | w.PathModule m} ⊆ (w.modules.toFinset : Set Addr) := fun m hm =>
    List.mem_toFinset.mpr hm.mem
  have hfinite := w.modules.toFinset.finite_toSet
  calc w.parallelPaths.ncard ≤ {m | w.PathModule m}.ncard :=
        Set.ncard_image_le (hfinite.subset hsub)
    _ ≤ (w.modules.toFinset : Set Addr).ncard := Set.ncard_le_ncard hsub hfinite
    _ = w.modules.toFinset.card := Set.ncard_coe_finset _
    _ ≤ w.modules.length := toFinset_card_le _

end GuWorld

/-! ## A cycle, an attached module, a module without ports and one more path -/

/-- The modules 2 and 3 form a cycle, 4 is attached to the output port 10 of module 2, module 5 has
no ports and module 6 has one input port without a link. -/
def cycleGraph : GuWorld :=
  { GuWorld.init with
    gu := { Gu.empty with sgList := [1] }
    sgModuleList := fun sg => if sg = 1 then [2, 3, 4, 5, 6] else []
    inputPortList := fun m =>
      if m = 2 then [11] else if m = 3 then [12] else if m = 4 then [14]
      else if m = 6 then [16] else []
    outputPortList := fun m =>
      if m = 2 then [10] else if m = 3 then [13] else if m = 4 then [15] else []
    inModule := fun p => if p = 11 then 2 else if p = 12 then 3 else if p = 14 then 4 else 6
    outModule := fun o => if o = 10 then 2 else if o = 13 then 3 else 4
    connInPort := fun o => if o = 10 then some 12 else if o = 13 then some 11 else none
    connOutPort := fun p => if p = 12 then some 10 else if p = 11 then some 13 else none
    attachedModule := fun o => if o = 10 then some 4 else none
    hostOutputPort := fun m => if m = 4 then some 10 else none }

example : (cycleGraph.guUpdateParallelPaths 5 fun _ => 0).map
    (fun out => (cycleGraph.modules.map out.1, out.2)) = some ([0, 0, 0, 0, 1], 2) := by decide

/-- The modules of the example. -/
lemma forall_modules_cycleGraph {P : Addr → Prop} :
    (∀ m ∈ cycleGraph.modules, P m) ↔ P 2 ∧ P 3 ∧ P 4 ∧ P 5 ∧ P 6 := by
  change (∀ m ∈ [2, 3, 4, 5, 6], P m) ↔ _
  simp

/-- The links of the example are symmetric. -/
lemma symmetricLinks_cycleGraph : cycleGraph.SymmetricLinks where
  outs_own := by decide
  ins_own := by decide
  conn_in := by
    rw [forall_modules_cycleGraph]
    refine ⟨?_, ?_, ?_, ?_, ?_⟩ <;> simp [cycleGraph, GuWorld.modules]
  conn_out := by
    rw [forall_modules_cycleGraph]
    refine ⟨?_, ?_, ?_, ?_, ?_⟩ <;> simp [cycleGraph, GuWorld.modules]
  attached := by
    rw [forall_modules_cycleGraph]
    refine ⟨?_, ?_, ?_, ?_, ?_⟩ <;> simp [cycleGraph]
  host := by
    rw [forall_modules_cycleGraph]
    refine ⟨?_, ?_, ?_, ?_, ?_⟩ <;> simp [cycleGraph, GuWorld.modules]
  free := by
    rw [forall_modules_cycleGraph]
    refine ⟨?_, ?_, ?_, ?_, ?_⟩ <;> simp [cycleGraph]

/-- The cycle is one path, beside that of the other modules. -/
theorem guUpdateParallelPaths_right_cycleGraph :
    ∃ path' numParallelPaths, cycleGraph.guUpdateParallelPaths 5 (fun _ => 0) =
        some (path', numParallelPaths) ∧
      cycleGraph.PathsRight path' numParallelPaths :=
  GuWorld.guUpdateParallelPaths_right symmetricLinks_cycleGraph
    (le_trans cycleGraph.ncard_parallelPaths_le (by decide)) (fun _ => 0) (by decide)

end AudioReach
