import AudioReach.GraphUtils.LinkAttach

/-!
# What an open adds to the links

A synchronous `gu_create_graph` that succeeds grows the graph by a few kinds of steps:
subgraphs, modules, limits, links.  `Grown` lists them as changes of the view.
A property that survives every such step survives the whole creation, whatever the
command; `GrowClosed` names this, and the programs up to the links are described by it
alone.

Failures are of no interest here: the judgments only speak about programs that return.
-/

namespace AudioReach

open Function (update update_idem update_of_ne update_self)
open Library

namespace LinkView

/-- An allocation. -/
def alloc (v : LinkView) : LinkView :=
  { v with next := v.next + 1 }

/-- A new subgraph. -/
def addSg (v : LinkView) : LinkView :=
  { v.alloc with
    sgMods := update v.sgMods v.next []
    sgs := v.sgs ++ [v.next] }

/-- A new module in a subgraph. -/
def addMod (v : LinkView) (sg : Addr) (iid : UInt32) : LinkView :=
  (v.alloc.blank v.next).adopt sg v.next iid

/-- Limits for a module. -/
def setMax (v : LinkView) (m : Addr) (a b : ℕ) : LinkView :=
  { v with
    maxIn := update v.maxIn m a
    maxOut := update v.maxOut m b }

/-- Port lists after an insertion: the module is not left with default status, and nobody
else is set back to it. -/
def Touched (v : LinkView) (m : Addr) (status : Addr → GuStatus) : Prop :=
  status m ≠ .default ∧ ∀ m', v.status m' ≠ .default → status m' ≠ .default

/-- A module with default status was not touched, and had it before. -/
lemma Touched.kept {v : LinkView} {m m' : Addr} {status : Addr → GuStatus}
    (h : v.Touched m status) (hm' : status m' = .default) : m' ≠ m ∧ v.status m' = .default := by
  refine ⟨?_, by_contra fun hne => h.2 m' hne hm'⟩
  rintro rfl
  exact h.1 hm'

/-- The end `s` of a link: a module of the graph among those that may get links, with room. -/
structure SrcEnd (L : List UInt32) (v : LinkView) (s : Addr) (ports : List Addr)
    (status : Addr → GuStatus) : Prop where
  mem : s ∈ v.mods
  named : v.iid s ∈ L
  room : v.numOut s < v.maxOut s
  ports : ports.Perm (v.next :: v.outs s)
  touched : v.Touched s status

/-- The end `d` of a link. -/
structure DstEnd (L : List UInt32) (v : LinkView) (d : Addr) (ports : List Addr)
    (status : Addr → GuStatus) : Prop where
  mem : d ∈ v.mods
  named : v.iid d ∈ L
  room : v.numIn d < v.maxIn d
  ports : ports.Perm (v.next :: v.ins d)
  touched : v.Touched d status

/-- The view after the source end of a link was made. -/
def withOut (v : LinkView) (s : Addr) (ports : List Addr) (status : Addr → GuStatus)
    (boundary : Bool) : LinkView :=
  v.alloc.addOut s v.next ports status boundary

/-- The view after the destination end of a link was made. -/
def withIn (v : LinkView) (d : Addr) (ports : List Addr) (status : Addr → GuStatus) : LinkView :=
  v.alloc.addIn d v.next ports status

/-- The steps of a creation.  `L` names the instances that may get links. -/
inductive Grown (L : List UInt32) (v : LinkView) : LinkView → Prop
  /-- Memory for something else. -/
  | alloc : Grown L v v.alloc
  /-- Modules are marked as updated. -/
  | status (m : Addr) (status : Addr → GuStatus) (touched : v.Touched m status) :
      Grown L v { v with status := status }
  /-- A subgraph. -/
  | subgraph : Grown L v v.addSg
  /-- A module. -/
  | module (sg : Addr) (mem : sg ∈ v.sgs) (iid : UInt32) : Grown L v (v.addMod sg iid)
  /-- Limits. -/
  | limits (m : Addr) (a b : ℕ) (ha : a ≤ 100) (hb : b ≤ 100) : Grown L v (v.setMax m a b)
  /-- A link between two modules. -/
  | both (s d : Addr) (outs ins : List Addr) (st st' : Addr → GuStatus) (src : SrcEnd L v s outs st)
      (dst : DstEnd L (v.withOut s outs st (decide (v.sg s ≠ v.sg d))) d ins st') :
      Grown L v (((v.withOut s outs st (decide (v.sg s ≠ v.sg d))).withIn d ins st').connect
        v.next (v.next + 1))
  /-- A link to another container. -/
  | out (s : Addr) (outs : List Addr) (st : Addr → GuStatus) (src : SrcEnd L v s outs st) :
      Grown L v ((v.withOut s outs st true).alloc.extendOut v.next (v.next + 1))
  /-- A link from another container. -/
  | inp (d : Addr) (ins : List Addr) (st : Addr → GuStatus) (dst : DstEnd L v d ins st) :
      Grown L v ((v.withIn d ins st).alloc.extendIn v.next (v.next + 1))

/-- The property survives every step of a creation. -/
def GrowClosed (L : List UInt32) (P : LinkView → Prop) : Prop :=
  ∀ v v', P v → Grown L v v' → P v'

end LinkView

/-! ## Programs that return -/

section Programs

open LinkView (GrowClosed Grown SrcEnd DstEnd)

/-- A property of the view in a synchronous open. -/
def Sync (P : LinkView → Prop) (w : GuWorld) : Prop :=
  w.asyncGu = none ∧ P w.linkView

/-- What holds when the program returns. -/
abbrev Returns {α : Type} (P : LinkView → Prop) (x : GuM α) (Q : α → LinkView → Prop) : Prop :=
  Triple (Sync P) x (fun a => Sync (Q a)) fun _ => True

/-- What a synchronous open looks at. -/
def syncView (w : GuWorld) : Option GuAsyncGraph × LinkView := (w.asyncGu, w.linkView)

/-- What leaves the view alone keeps every property of it. -/
lemma returns_of_leaves {α : Type} {x : GuM α} {P : LinkView → Prop} (h : Leaves syncView x) :
    Returns P x fun _ => P :=
  (h.keeps fun s => s.1 = none ∧ P s.2).exits fun _ _ => trivial

/-- An allocation leaves the links alone. -/
lemma malloc_leaves_syncView : Leaves syncView malloc :=
  malloc_leaves_unsorted.comp syncView

/-- A check leaves the links alone. -/
lemma verify_leaves_syncView (c : Bool) : Leaves syncView (verify c) :=
  Leaves.ite (Leaves.pure _) (Leaves.throw _)

variable {P : LinkView → Prop} {L : List UInt32}

/-- After a check its condition holds. -/
lemma verify_returns (c : Bool) : Returns P (verify c) fun _ v => P v ∧ c = true := by
  refine Triple.ite (fun hc => Triple.pure fun w hw => ⟨hw.1, hw.2, hc⟩) fun _ => Triple.throw ?_
  exact fun _ _ => trivial

/-- An object gets the next address. -/
lemma mallocObj_returns : Returns P mallocObj fun a v' => ∃ v, P v ∧ a = v.next ∧ v' = v.alloc := by
  refine Triple.bind (returns_of_leaves malloc_leaves_syncView) fun _ =>
    Triple.get_bind fun w hw => ?_
  rintro w' ⟨rfl, -⟩
  exact ⟨hw.1, w'.linkView, hw.2, rfl, rfl⟩

variable {w : GuWorld}

/-- A synchronous open works on the graph itself. -/
lemma Sync.openGu (h : Sync P w) : w.openGu = w.gu := by
  unfold GuWorld.openGu
  rw [h.1]

/-- A change of the open graph changes the graph itself. -/
lemma Sync.setOpenGu (h : Sync P w) (f : Gu → Gu) : w.setOpenGu f = { w with gu := f w.gu } := by
  unfold GuWorld.setOpenGu
  rw [h.1]

/-- One view at a time. -/
lemma Returns.of_view {α : Type} {x : GuM α} {Q : α → LinkView → Prop}
    (h : ∀ v, P v → Returns (· = v) x Q) : Returns P x Q :=
  fun w hw => h w.linkView hw.2 w ⟨hw.1, rfl⟩

section View

variable {α β : Type} {v u : LinkView} {Q : β → LinkView → Prop}

/-- What follows a check may use its condition. -/
lemma verify_bind {c : Bool} {x : GuM β} (h : c = true → Returns P x Q) :
    Returns P (verify c >>= fun _ => x) Q := by
  refine Triple.bind (verify_returns c) fun _ => ?_
  rintro w ⟨hasync, hv, hc⟩
  exact h hc w ⟨hasync, hv⟩

/-- What follows a program that only returns in one way. -/
lemma Returns.bind_eq {x : GuM α} {k : α → GuM β} {a : α}
    (hx : Returns (· = v) x fun b v' => b = a ∧ v' = u) (hk : Returns (· = u) (k a) Q) :
    Returns (· = v) (x >>= k) Q := by
  refine Triple.bind hx fun b => ?_
  rintro w ⟨hasync, rfl, hview⟩
  exact hk w ⟨hasync, hview⟩

/-- An object gets the next address, from a given view. -/
lemma mallocObj_eq : Returns (· = v) mallocObj fun a v' => a = v.next ∧ v' = v.alloc := by
  refine (mallocObj_returns).post ?_ fun _ h => h
  rintro _ w ⟨hasync, _, rfl, h⟩
  exact ⟨hasync, h⟩

/-- An assignment, as the view sees it. -/
lemma modify_view (g : LinkView → LinkView) {f : GuWorld → GuWorld}
    (h : ∀ w, w.asyncGu = none → (f w).asyncGu = none ∧ (f w).linkView = g w.linkView) :
    Returns (· = v) (modify f) fun _ v' => v' = g v := by
  refine Triple.modify ?_
  rintro w ⟨hasync, rfl⟩
  exact h w hasync

/-- A change of the graph, on the view. -/
lemma setOpenGu_view (g : LinkView → LinkView) {f : Gu → Gu}
    (h : ∀ w : GuWorld, { w with gu := f w.gu }.linkView = g w.linkView) :
    Returns (· = v) (modify fun w => w.setOpenGu f) fun _ v' => v' = g v := by
  refine modify_view g fun w hasync => ?_
  rw [Sync.setOpenGu (P := fun _ => True) ⟨hasync, trivial⟩]
  exact ⟨hasync, h w⟩

end View

/-! ### Ports -/

/-- The ports before the free index and those from it on. -/
lemma smallestAvailableIndex_append (index : Addr → ℕ) (prev : Option ℕ) (n : ℕ)
    (ports : List Addr) :
    (GuWorld.smallestAvailableIndex index prev n ports).2.1 ++
      (GuWorld.smallestAvailableIndex index prev n ports).2.2 = ports := by
  induction ports generalizing prev n with
  | nil => cases prev <;> rfl
  | cons p ports ih =>
    cases prev with
    | none =>
      unfold GuWorld.smallestAvailableIndex
      split
      · rfl
      · exact congrArg (p :: ·) (ih _ _)
    | some q =>
      unfold GuWorld.smallestAvailableIndex
      split
      · rfl
      · exact congrArg (p :: ·) (ih _ _)

/-- The insertion adds one port. -/
lemma insertByIndex_perm (index : Addr → ℕ) (ports : List Addr) (p : Addr) :
    (GuWorld.insertByIndex index ports p).Perm (p :: ports) := by
  have happend := smallestAvailableIndex_append index none 0 ports
  refine List.perm_middle.trans ?_
  rw [happend]

/-- The module is touched, the others are as before. -/
lemma markUpdated_touched (w : GuWorld) (m : Addr) :
    w.linkView.Touched m (w.markUpdated m).moduleGuStatus := by
  have hne : ∀ s : GuStatus, guSetStatus s .updated ≠ .default := by
    intro s
    cases s <;> decide
  refine ⟨?_, ?_⟩
  · change update w.moduleGuStatus m _ m ≠ _
    rw [update_self]
    exact hne _
  · intro m' hm'
    change update w.moduleGuStatus m _ m' ≠ _
    by_cases hmm : m' = m
    · subst hmm
      rw [update_self]
      exact hne _
    · rw [update_of_ne hmm]
      exact hm'

/-- The output port joins the list of its module. -/
lemma guInsertOutputPort_returns {v : LinkView} (m p : Addr) :
    Returns (· = v) (guInsertOutputPort m p) fun _ v' => ∃ ports status,
      ports.Perm (p :: v.outs m) ∧ v.Touched m status ∧ v' = { v with
        outs := update v.outs m ports
        numOut := update v.numOut m (incU8 (v.numOut m))
        status := status } := by
  refine Triple.bind (returns_of_leaves malloc_leaves_syncView) fun _ => ?_
  rintro w ⟨hasync, rfl⟩
  exact ⟨hasync, _, _, insertByIndex_perm _ _ _, markUpdated_touched _ m, rfl⟩

/-- The input port joins the list of its module. -/
lemma guInsertInputPort_returns {v : LinkView} (m p : Addr) :
    Returns (· = v) (guInsertInputPort m p) fun _ v' => ∃ ports status,
      ports.Perm (p :: v.ins m) ∧ v.Touched m status ∧ v' = { v with
        ins := update v.ins m ports
        numIn := update v.numIn m (incU8 (v.numIn m))
        status := status } := by
  refine Triple.bind (returns_of_leaves malloc_leaves_syncView) fun _ => ?_
  rintro w ⟨hasync, rfl⟩
  exact ⟨hasync, _, _, insertByIndex_perm _ _ _, markUpdated_touched _ m, rfl⟩

section

variable {v : LinkView} (m : Addr) (id : UInt32) (internal : Bool)

/-- The source end of a link. -/
lemma guHandleSrcPort_returns :
    Returns (· = v) (guHandleSrcPort m id internal) fun o v' => ∃ ports status,
      v.numOut m < v.maxOut m ∧ ports.Perm (v.next :: v.outs m) ∧ v.Touched m status ∧
      o = v.next ∧ v' = v.withOut m ports status (!internal) := by
  refine Triple.get_bind fun w hw => (verify_bind fun hroom => ?_).pre fun _ h => h.2
  obtain ⟨-, rfl⟩ := hw
  refine Returns.bind_eq (Returns.bind_eq mallocObj_eq (Triple.bind (modify_view (fun u => { u with
    outMod := update u.outMod w.next m
    connIn := update u.connIn w.next none
    extOut := update u.extOut w.next none
    attached := update u.attached w.next none
    pending := update u.pending w.next false }) fun _ h => ⟨h, rfl⟩) fun _ =>
        Triple.pure fun _ h => ⟨h.1, rfl, h.2⟩))
    (Triple.bind (Triple.get_bind fun w' hw' => Triple.ite (fun _ => ?_) fun hnot => ?_) fun _ =>
      Triple.pure fun _ h => h)
  · refine Triple.bind ((guInsertOutputPort_returns m _).pre fun _ h => h.2) fun _ =>
      Triple.modify ?_
    rintro t ⟨hasync, ports, status, hperm, htouched, heq⟩
    exact ⟨hasync, ports, status, of_decide_eq_true hroom, hperm, htouched, rfl,
      congrArg (fun u : LinkView => { u with flag := update u.flag m (u.flag m || !internal) }) heq⟩
  · exact absurd (Or.inr (by simp [hw'.1])) hnot

/-- The destination end of a link. -/
lemma guHandleDstPort_returns :
    Returns (· = v) (guHandleDstPort m id internal) fun o v' => ∃ ports status,
      v.numIn m < v.maxIn m ∧ ports.Perm (v.next :: v.ins m) ∧ v.Touched m status ∧
      o = v.next ∧ v' = v.withIn m ports status := by
  refine Triple.get_bind fun w hw => (verify_bind fun hroom => ?_).pre fun _ h => h.2
  obtain ⟨-, rfl⟩ := hw
  refine Returns.bind_eq (Returns.bind_eq mallocObj_eq (Triple.bind (modify_view (fun u => { u with
    inMod := update u.inMod w.next m
    connOut := update u.connOut w.next none
    extIn := update u.extIn w.next none }) fun _ h => ⟨h, rfl⟩) fun _ =>
        Triple.pure fun _ h => ⟨h.1, rfl, h.2⟩))
    (Triple.bind (Triple.get_bind fun w' hw' => Triple.ite (fun _ => ?_) fun hnot => ?_) fun _ =>
      Triple.pure fun _ h => h)
  · refine Triple.bind ((guInsertInputPort_returns m _).pre fun _ h => h.2) fun _ =>
      Triple.modify ?_
    rintro t ⟨hasync, ports, status, hperm, htouched, heq⟩
    exact ⟨hasync, ports, status, of_decide_eq_true hroom, hperm, htouched, rfl, heq⟩
  · exact absurd (Or.inr (by simp [hw'.1])) hnot

end

/-! ### Links -/

/-- The output port gets a new external port. -/
lemma guCreateExtOutPort_returns (v : LinkView) (o : Addr) (conn : ApmModuleConnCfg) :
    Returns (· = v) (guCreateExtOutPort o conn) fun _ v' => v' = v.alloc.extendOut o v.next := by
  refine Triple.bind (modify_view (fun u => { u with connIn := update u.connIn o none })
    fun _ h => ⟨h, rfl⟩) fun _ => Returns.bind_eq mallocObj_eq <|
      Triple.bind (modify_view (fun u => { u with
        extOutSg := update u.extOutSg v.next (u.sg (u.outMod o))
        intOut := update u.intOut v.next none }) fun _ h => ⟨h, rfl⟩) fun _ =>
      Triple.get_bind fun w _ => (verify_bind fun _ => ?_).pre fun _ h => h.2
  refine Triple.bind (returns_of_leaves malloc_leaves_syncView) fun _ =>
    Triple.bind (setOpenGu_view (fun u => { u with extOuts := u.extOuts ++ [v.next] })
      fun _ => rfl) fun _ => Triple.modify ?_
  rintro w ⟨hasync, heq⟩
  refine ⟨hasync, (congrArg (fun u : LinkView => { u with
    intOut := update u.intOut v.next (some o)
    extOut := update u.extOut o (some v.next) }) heq).trans ?_⟩
  simp only [update_idem]
  rfl

/-- The input port gets a new external port. -/
lemma guCreateExtInPort_returns (v : LinkView) (i : Addr) (conn : ApmModuleConnCfg) :
    Returns (· = v) (guCreateExtInPort i conn) fun _ v' => v' = v.alloc.extendIn i v.next := by
  refine Triple.bind (modify_view (fun u => { u with connOut := update u.connOut i none })
    fun _ h => ⟨h, rfl⟩) fun _ => Returns.bind_eq mallocObj_eq <|
      Triple.bind (modify_view (fun u => { u with
        extInSg := update u.extInSg v.next (u.sg (u.inMod i))
        intIn := update u.intIn v.next none }) fun _ h => ⟨h, rfl⟩) fun _ =>
      Triple.get_bind fun w _ => (verify_bind fun _ => ?_).pre fun _ h => h.2
  refine Triple.bind (returns_of_leaves malloc_leaves_syncView) fun _ =>
    Triple.bind (setOpenGu_view (fun u => { u with extIns := u.extIns ++ [v.next] })
      fun _ => rfl) fun _ => Triple.modify ?_
  rintro w ⟨hasync, heq⟩
  refine ⟨hasync, (congrArg (fun u : LinkView => { u with
    intIn := update u.intIn v.next (some i)
    extIn := update u.extIn i (some v.next) }) heq).trans ?_⟩
  simp only [update_idem]
  rfl

/-- The module of a link end in a synchronous open. -/
lemma connModule_sync (hasync : w.asyncGu = none) {fromMain : Bool} {iid : UInt32}
    {m : Addr} (h : w.connModule fromMain iid = some m) :
    iid ≠ 0 ∧ m ∈ w.linkView.mods ∧ w.linkView.iid m = iid := by
  have hopen : w.openGu = w.gu := by
    unfold GuWorld.openGu
    rw [hasync]
  unfold GuWorld.connModule at h
  rw [hasync, hopen] at h
  by_cases hiid : iid = 0
  · rw [if_pos hiid] at h
    simp at h
  · rw [if_neg hiid] at h
    cases hfind : w.guFindModule w.gu iid with
    | none =>
      rw [hfind] at h
      simp at h
    | some m' =>
      rw [hfind] at h
      cases h
      have heq : w.moduleInstanceId m = iid := by simpa using List.find?_some hfind
      exact ⟨hiid, List.mem_of_find?_eq_some hfind, heq⟩

/-- The source end of a link was made, if it lies in this container. -/
inductive OutMade (L : List UInt32) (v : LinkView) (boundary : Bool) :
    Option Addr → Option Addr → LinkView → Prop
  | none : OutMade L v boundary none none v
  | some (s : Addr) (ports : List Addr) (status : Addr → GuStatus) (src : SrcEnd L v s ports status) :
      OutMade L v boundary (some s) (some v.next) (v.withOut s ports status boundary)

/-- The destination end of a link was made, if it lies in this container. -/
inductive InMade (L : List UInt32) (v : LinkView) : Option Addr → Option Addr → LinkView → Prop
  | none : InMade L v none none v
  | some (d : Addr) (ports : List Addr) (status : Addr → GuStatus) (dst : DstEnd L v d ports status) :
      InMade L v (some d) (some v.next) (v.withIn d ports status)

section

variable {v u : LinkView} {boundary : Bool} {src o : Option Addr} (h : OutMade L v boundary src o u)
include h

/-- A new source end adds no module. -/
lemma OutMade.mods : u.mods = v.mods := by
  cases h <;> rfl

/-- A new source end changes no instance id. -/
lemma OutMade.iid : u.iid = v.iid := by
  cases h <;> rfl

end

/-- The ends of a link are connected, or get external ports. -/
lemma guLinkPorts_returns (hP : GrowClosed L P) {v : LinkView} (hv : P v) (conn : ApmModuleConnCfg)
    (hsg : w.moduleSg = v.sg) {src dst o i : Option Addr} :
    Returns (fun v' => ∃ u, OutMade L v (!w.isSgInternalConnection src dst) src o u ∧
        InMade L u dst i v') (guLinkPorts conn o i) fun _ => P := by
  rintro w' ⟨hasync, u, hout, hin⟩
  generalize hview : w'.linkView = v' at hin
  cases hout with
  | none =>
    cases hin with
    | none => exact ⟨hasync, hview ▸ hv⟩
    | some d ports status dst =>
      refine (guCreateExtInPort_returns w'.linkView v.next conn).post ?_
        (fun _ h => h) w' ⟨hasync, rfl⟩
      rintro _ t ⟨hasync', heq⟩
      refine ⟨hasync', ?_⟩
      rw [heq, hview]
      exact hP v _ hv (.inp d ports status dst)
  | some s ports status src =>
    cases hin with
    | none =>
      refine (guCreateExtOutPort_returns w'.linkView v.next conn).post ?_
        (fun _ h => h) w' ⟨hasync, rfl⟩
      rintro _ t ⟨hasync', heq⟩
      refine ⟨hasync', ?_⟩
      rw [heq, hview]
      exact hP v _ hv (.out s ports status src)
    | some d ports' status' dst =>
      refine ⟨hasync, ?_⟩
      have hboundary : (!w.isSgInternalConnection (some s) (some d)) =
          decide (v.sg s ≠ v.sg d) := by
        simp [GuWorld.isSgInternalConnection, hsg]
      rw [hboundary] at dst hview
      change P (LinkView.connect w'.linkView v.next (v.next + 1))
      rw [hview]
      exact hP v _ hv (.both s d ports ports' status status' src dst)

/-- **Data links are growth.** -/
theorem guHandleConnection_grows (hP : GrowClosed L P) (fromMain : Bool) (conn : ApmModuleConnCfg)
    (hsrc : conn.srcModInstId ≠ 0 → conn.srcModInstId ∈ L)
    (hdst : conn.dstModInstId ≠ 0 → conn.dstModInstId ∈ L) :
    Returns P (guHandleConnection fromMain conn) fun _ => P := by
  refine Triple.get_bind fun w hw => ?_
  let v := w.linkView
  let src := w.connModule fromMain conn.srcModInstId
  let dst := w.connModule fromMain conn.dstModInstId
  let boundary := !w.isSgInternalConnection src dst
  have hs : ∀ s, src = some s → s ∈ v.mods ∧ v.iid s ∈ L := by
    intro s h
    obtain ⟨hne, hmem, hiid⟩ := connModule_sync hw.1 h
    exact ⟨hmem, hiid ▸ hsrc hne⟩
  have hd : ∀ d, dst = some d → d ∈ v.mods ∧ v.iid d ∈ L := by
    intro d h
    obtain ⟨hne, hmem, hiid⟩ := connModule_sync hw.1 h
    exact ⟨hmem, hiid ▸ hdst hne⟩
  refine Triple.bind (Q := fun _ => Sync (· = v)) ?_ fun _ =>
    Triple.ite (fun _ => Triple.throw fun _ _ => trivial) fun _ =>
      Triple.bind (Q := fun o => Sync (OutMade L v boundary src o)) ?_ fun o =>
        Triple.bind (Q := fun i => Sync fun v' => ∃ u, OutMade L v boundary src o u ∧
          InMade L u dst i v') ?_ fun i =>
          guLinkPorts_returns hP hw.2 conn rfl
  · refine (returns_of_leaves (verify_leaves_syncView _)).conseq ?_ (fun _ _ h => h)
      fun _ h => h
    rintro w' ⟨rfl, hw'⟩
    exact ⟨hw'.1, rfl⟩
  · change Triple _ (onModule src _) _ _
    cases hsrc' : src with
    | none =>
      refine Triple.pure ?_
      rintro w' ⟨hasync, heq⟩
      refine ⟨hasync, ?_⟩
      rw [show w'.linkView = v from heq]
      exact .none
    | some s =>
      refine Triple.bind ?_ fun o =>
        Triple.pure fun _ h => h
      refine (guHandleSrcPort_returns s _ _).post ?_ fun _ h => h
      rintro o w' ⟨hasync, ports, status, hroom, hperm, htouched, rfl, heq⟩
      refine ⟨hasync, ?_⟩
      rw [heq]
      exact .some s ports status ⟨(hs s hsrc').1, (hs s hsrc').2, hroom, hperm, htouched⟩
  · change Triple _ (onModule dst _) _ _
    cases hdst' : dst with
    | none =>
      refine Triple.pure ?_
      rintro w' ⟨hasync, hout⟩
      exact ⟨hasync, w'.linkView, hout, .none⟩
    | some d =>
      refine Triple.bind ?_ fun i => Triple.pure fun _ h => h
      refine Returns.of_view fun u hout => (guHandleDstPort_returns d _ _).post
        ?_ fun _ h => h
      rintro i w' ⟨hasync, ports, status, hroom, hperm, htouched, rfl, heq⟩
      refine ⟨hasync, u, hout, ?_⟩
      rw [heq]
      have hmem : d ∈ u.mods ∧ u.iid d ∈ L := by
        rw [hout.mods, hout.iid]
        exact hd d hdst'
      exact .some d ports status ⟨hmem.1, hmem.2, hroom, hperm, htouched⟩

/-! ### Subgraphs and modules -/

/-- A new subgraph is a step of the creation. -/
lemma guCreateSubgraph_grows (hP : GrowClosed L P) (cfg : ApmSubGraphCfg) :
    Returns P (guCreateSubgraph cfg) fun _ => P := by
  refine Returns.of_view fun v hv => Triple.get_bind fun _ _ =>
    (verify_bind fun _ => Returns.bind_eq mallocObj_eq ?_).pre fun _ h => h.2
  refine Triple.bind (modify_view (fun u => { u with sgMods := update u.sgMods v.next [] })
      fun _ h => ⟨h, rfl⟩) fun _ =>
    Triple.bind (setOpenGu_view (fun u => u) fun _ => rfl) fun _ =>
      Triple.bind (returns_of_leaves malloc_leaves_syncView) fun _ =>
        Triple.bind (setOpenGu_view (fun u => { u with sgs := u.sgs ++ [v.next] }) fun _ => rfl)
          fun _ => (returns_of_leaves (verify_leaves_syncView _)).pre ?_
  rintro w ⟨hasync, heq⟩
  exact ⟨hasync, heq ▸ hP v _ hv .subgraph⟩

/-- A subgraph stays in the graph. -/
lemma mem_sgs_growClosed (sg : Addr) : GrowClosed L fun v => sg ∈ v.sgs := by
  intro v v' hv hg
  cases hg with
  | alloc => exact hv
  | status m status touched => exact hv
  | subgraph => exact List.mem_append_left _ hv
  | module sg' mem iid => exact hv
  | limits m a b ha hb => exact hv
  | both s d outs ins st st' src dst => exact hv
  | out s outs st src => exact hv
  | inp d ins st dst => exact hv

/-- Two properties survive together. -/
lemma LinkView.GrowClosed.and {P Q : LinkView → Prop} (hP : GrowClosed L P) (hQ : GrowClosed L Q) :
    GrowClosed L fun v => P v ∧ Q v :=
  fun v v' hv hg => ⟨hP v v' hv.1 hg, hQ v v' hv.2 hg⟩

/-- The end points get their port towards the client. -/
lemma guHandleGraphBoundaryModules_grows (hP : GrowClosed L P) (m : Addr) :
    Returns (fun v => P v ∧ v.iid m ∈ L) (guHandleGraphBoundaryModules m) fun _ => P := by
  have hlimits : ∀ {w : GuWorld} {a b : ℕ}, a ≤ 100 → b ≤ 100 →
      Triple (fun w' => w' = w ∧ Sync (fun v => P v ∧ v.iid m ∈ L) w')
        (modify fun w => { w with
          maxInputPorts := update w.maxInputPorts m a
          maxOutputPorts := update w.maxOutputPorts m b } : GuM Unit)
        (fun _ => Sync P) fun _ => True := by
    intro w a b ha hb
    refine Triple.modify ?_
    rintro w' ⟨rfl, hasync, hv, -⟩
    exact ⟨hasync, hP _ _ hv (.limits m a b ha hb)⟩
  refine Triple.get_bind fun w hw => Triple.ite (fun _ => ?_) fun _ => Triple.ite (fun _ => ?_)
    fun _ => Triple.pure fun _ h => ⟨h.2.1, h.2.2.1⟩
  · refine Triple.bind (hlimits (by decide) (by decide)) fun _ =>
      guHandleConnection_grows hP false _ ?_ fun _ => hw.2.2
    intro h
    exact absurd rfl h
  · refine Triple.bind (hlimits (by decide) (by decide)) fun _ =>
      guHandleConnection_grows hP false _ (fun _ => hw.2.2) ?_
    intro h
    exact absurd rfl h

/-- A new module is a step of the creation. -/
lemma guCreateModule_grows (hP : GrowClosed L P) {sg : Addr} {cfg : ApmModuleCfg}
    (hcfg : cfg.instanceId ∈ L) :
    Returns (fun v => P v ∧ sg ∈ v.sgs) (guCreateModule sg cfg) fun _ v => P v ∧ sg ∈ v.sgs := by
  have hPsg := hP.and (mem_sgs_growClosed sg)
  refine Triple.get_bind fun w hw =>
    Triple.bind (Q := fun _ w' => w' = { w with next := w.next + 1 }) (Triple.modify ?_) fun _ =>
    Triple.bind (Q := fun _ => Sync (· = w.linkView.alloc.blank w.next)) (Triple.modify ?_) fun _ =>
    Triple.bind (returns_of_leaves malloc_leaves_syncView) fun _ =>
    Triple.bind
      (Triple.modify ?_) fun _ =>
    Triple.bind (guHandleGraphBoundaryModules_grows hPsg w.next) fun _ =>
      Triple.bind (returns_of_leaves malloc_leaves_syncView) fun _ =>
        Triple.bind (returns_of_leaves malloc_leaves_syncView) fun _ => Triple.pure fun _ h => h
  · rintro w' ⟨rfl, -⟩
    rfl
  · rintro w' rfl
    exact ⟨hw.1, rfl⟩
  · rintro w' ⟨hasync, heq⟩
    refine ⟨hasync, ?_⟩
    have hview : w.linkView.addMod sg cfg.instanceId =
        w'.linkView.adopt sg w.next cfg.instanceId := by
      rw [show w'.linkView = _ from heq]
      rfl
    have hgrown : Grown L w.linkView (w'.linkView.adopt sg w.next cfg.instanceId) := by
      rw [← hview]
      exact .module sg hw.2.2 cfg.instanceId
    refine ⟨hPsg _ _ hw.2 hgrown, ?_⟩
    change update w'.moduleInstanceId w.next cfg.instanceId w.next ∈ L
    rw [update_self]
    exact hcfg

/-- The resources of a subgraph leave the links alone. -/
lemma guSgAllocateResource_leaves_syncView (size : ℕ) :
    Leaves syncView (guSgAllocateResource size) :=
  Leaves.ite (Leaves.pure _) (Leaves.bind malloc_leaves_syncView fun _ => malloc_leaves_syncView)

/-- The modules of a list are steps of the creation. -/
lemma guCreateModules_grows (hP : GrowClosed L P) {l : ApmModulesList}
    (hl : ∀ cfg ∈ l.modules, cfg.instanceId ∈ L) : Returns P (guCreateModules l) fun _ => P := by
  refine Triple.get_bind fun w hw => ?_
  split
  · exact Triple.throw fun _ _ => trivial
  · rename_i sg hsg
    have hmem : sg ∈ w.linkView.sgs := by
      rw [hw.openGu] at hsg
      exact List.mem_of_find?_eq_some hsg
    refine Triple.bind (Q := fun _ => Sync fun v => P v ∧ sg ∈ v.sgs) (Triple.modify ?_) fun _ =>
        Triple.bind (returns_of_leaves (guSgAllocateResource_leaves_syncView _)) fun _ => ?_
    · rintro w' ⟨rfl, hw'⟩
      exact ⟨hw'.1, hw'.2, hmem⟩
    · exact (Triple.mapM fun cfg hcfg => guCreateModule_grows hP (hl cfg hcfg)).conseq
        (fun _ h => h) (fun _ _ h => ⟨h.1, h.2.1⟩) fun _ h => h

/-! ### Limits and control links -/

/-- The properties of a module are steps of the creation. -/
lemma guParseModuleProps_grows (hP : GrowClosed L P) (env : OpenEnv) (cfg : ApmModulePropCfg) :
    Returns P (guParseModuleProps env cfg) fun _ => P := by
  have hverify : ∀ c, Returns P (verify c) fun _ => P :=
    fun c => returns_of_leaves (verify_leaves_syncView c)
  have hlimits : ∀ {m : Addr} {c : Bool} {a b : ℕ}, (c = true → a ≤ 100 ∧ b ≤ 100) → Returns P (do
        verify c
        modify fun w => { w with
          maxInputPorts := update w.maxInputPorts m a
          maxOutputPorts := update w.maxOutputPorts m b }) fun _ => P := by
    intro m c a b hab
    refine Triple.bind (verify_returns c) fun _ => Triple.modify ?_
    rintro w ⟨hasync, hv, hc⟩
    exact ⟨hasync, hP _ _ hv (.limits m a b (hab hc).1 (hab hc).2)⟩
  refine Triple.get_bind fun w hw => ?_
  split
  · exact Triple.throw fun _ _ => trivial
  · refine (Triple.forM fun prop _ => ?_).pre fun _ h => h.2
    cases prop with
    | unsupported => exact Triple.throw fun _ _ => trivial
    | heapId id =>
      exact Triple.ite (fun _ => Triple.throw fun _ _ => trivial) fun _ => Triple.pure fun _ h => h
    | portInfo size ip op =>
      refine Triple.bind (hverify _) fun _ => Triple.get_bind fun w' _ =>
        Triple.ite (fun _ => ?_) fun _ => Triple.ite (fun _ => ?_) fun _ =>
          Triple.ite (fun _ => ?_) fun _ => Triple.ite (fun _ => ?_) fun _ => ?_
      · exact (hverify _).pre fun _ h => h.2
      · exact (hverify _).pre fun _ h => h.2
      · refine (hlimits ?_).pre fun _ h => h.2
        intro hc
        obtain ⟨rfl, -⟩ := of_decide_eq_true hc
        exact ⟨by decide, by decide⟩
      · refine (hlimits ?_).pre fun _ h => h.2
        intro hc
        obtain ⟨-, rfl⟩ := of_decide_eq_true hc
        exact ⟨by decide, by decide⟩
      · refine (hlimits ?_).pre fun _ h => h.2
        intro hc
        obtain ⟨hip, hop⟩ := of_decide_eq_true hc
        exact ⟨UInt32.le_iff_toNat_le.mp hip, UInt32.le_iff_toNat_le.mp hop⟩

/-- Control links touch no data link. -/
lemma guCreateControlLink_grows (hP : GrowClosed L P) (env : OpenEnv) (cmd : GraphOpenCmd)
    (link : ApmModuleCtrlLinkCfg) : Returns P (guCreateControlLink env cmd link) fun _ => P := by
  have hblind : CtrlBlind (Sync P) :=
    { malloc := malloc_leaves_syncView.keeps fun s => s.1 = none ∧ P s.2
      alloc := fun w hw => ⟨hw.1, hP _ _ hw.2 .alloc⟩
      mark := fun w m hw => ⟨hw.1, hP _ _ hw.2 (.status m _ (markUpdated_touched w m))⟩
      list := fun w ext hw => by
        rw [hw.setOpenGu]
        exact hw
      ports := fun _ _ _ _ _ _ _ _ _ _ _ _ hw => hw }
  exact (guCreateControlLink_keeps hblind env cmd link).exits fun _ _ => trivial

end Programs

end AudioReach
