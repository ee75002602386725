import AudioReach.GraphUtils.PortBudget

/-!
# What a data link does to the ports

`gu_handle_connection` creates a port at each end of a link that lies in this container.
The port is inserted into its module at once, or it waits: `PlacedOut` and `PlacedIn` say
which, in terms of the view.  Everything else the programs of an open do leaves the view
alone, or only allocates memory and marks modules as updated.

The main result is that a data link keeps the budget, `guHandleConnection_on`: a port that waits is
paid from the links to come.
-/

namespace AudioReach

open Function (update)
open Library

/-- The instances that an open command creates. -/
def GraphOpenCmd.newIids (cmd : GraphOpenCmd) : List UInt32 :=
  (cmd.modList.flatMap ApmModulesList.modules).map ApmModuleCfg.instanceId

/-! ## Programs that leave the view alone -/

section Leaves

open GuWorld (portView)

/-- An allocation leaves the ports alone. -/
lemma malloc_leaves : Leaves portView malloc :=
  malloc_leaves_unsorted.comp portView

/-- A check leaves the ports alone. -/
lemma verify_leaves (c : Bool) : Leaves portView (verify c) :=
  Leaves.ite (Leaves.pure _) (Leaves.throw _)

/-- An attachment leaves the ports alone. -/
lemma attachAt_portView (w : GuWorld) (op e i o : Addr) :
    (w.attachAt op e i o).portView = w.portView := by
  unfold GuWorld.attachAt
  cases w.connInPort o with
  | some next => rfl
  | none =>
    cases w.extOutPort o with
    | some ext => rfl
    | none => rfl

/-- `gu_attach_module` leaves the ports alone. -/
lemma guAttachModule_leaves (op : Addr) : Leaves portView (guAttachModule op) := by
  refine Leaves.get_bind fun w => Leaves.ite ?_ (Leaves.pure _)
  split
  · exact Leaves.throw _
  · split
    · exact Leaves.modify fun w => attachAt_portView w _ _ _ _
    · exact Leaves.throw _

/-- An attempt to attach leaves the ports alone. -/
lemma guTryAttachModule_leaves (op : Addr) : Leaves portView (guTryAttachModule op) :=
  Leaves.modify fun w => guAttachModule_leaves op w

/-- Attaching after parsing leaves the ports alone. -/
lemma guParseAndAttach_leaves (src dst : Option Addr) :
    Leaves portView (guParseAndAttachElementaryModule src dst) := by
  refine Leaves.get_bind fun w => ?_
  split
  · exact Leaves.pure _
  · split
    · exact Leaves.pure _
    · split
      · exact Leaves.bind (Leaves.modify fun _ => rfl) fun _ =>
          Leaves.bind (Leaves.modify fun _ => rfl) fun _ => guTryAttachModule_leaves _
      · exact Leaves.bind (Leaves.modify fun _ => rfl) fun _ =>
          Leaves.ite (guTryAttachModule_leaves _) (Leaves.pure _)
      · exact Leaves.pure _

/-- Sorting leaves the ports alone. -/
lemma guUpdateSortedList_leaves : Leaves portView guUpdateSortedList :=
  guUpdateSortedList_leaves_unsorted.comp portView

end Leaves

/-! ## What the programs of an open do to the view -/

/-- A property of the view, read on the graph. -/
def On (P : PortView → Prop) (w : GuWorld) : Prop := P w.portView

/-- Properties that survive an allocation and a status that stays as new as it was. -/
structure Robust (P : PortView → Prop) : Prop where
  alloc : ∀ v, P v → P { v with next := v.next + 1 }
  status : ∀ v status, (∀ m, status m = .new ↔ v.status m = .new) → P v →
    P { v with status := status }

/-- The budget survives allocations. -/
lemma PortView.Inv.robust (srcs dsts : List UInt32) : Robust (PortView.Inv srcs dsts) :=
  ⟨fun _ h => h.alloc, fun _ _ hstatus h => h.of_status hstatus⟩

/-- What leaves the ports alone keeps every property of them. -/
lemma keepsOn {α : Type} {x : GuM α} {P : PortView → Prop} (h : Leaves GuWorld.portView x) :
    Keeps (On P) x :=
  h.keeps P

variable {v : PortView} {m : Addr}

section Effects

variable {P : PortView → Prop}

/-- After a check its condition holds. -/
lemma verify_spec {P : GuWorld → Prop} (c : Bool) :
    Triple P (verify c) (fun _ w => P w ∧ c = true) P := by
  refine Triple.ite (fun hc => Triple.pure fun w hw => ⟨hw, hc⟩) fun _ => Triple.throw ?_
  exact fun _ hw => hw

/-- An object gets the next address. -/
lemma mallocObj_on :
    Triple (On P) mallocObj
      (fun a w => ∃ v, P v ∧ a = v.next ∧ w.portView = { v with next := v.next + 1 }) (On P) := by
  refine Triple.bind (keepsOn malloc_leaves) fun _ => Triple.get_bind fun w hw => ?_
  rintro w' ⟨rfl, -⟩
  exact ⟨w'.portView, hw, rfl, rfl⟩

/-- An update makes nothing new or old. -/
lemma guSetStatus_updated (s : GuStatus) : guSetStatus s .updated = .new ↔ s = .new := by
  cases s <;> decide

/-- A mark makes no module new or old. -/
lemma markUpdated_status (m : Addr) (w : GuWorld) (m' : Addr) :
    (w.markUpdated m).moduleGuStatus m' = .new ↔ w.moduleGuStatus m' = .new := by
  simp only [GuWorld.markUpdated]
  by_cases hm : m' = m
  · subst hm
    rw [Function.update_self]
    exact guSetStatus_updated _
  · rw [Function.update_of_ne hm]

section

variable {f : Gu → Gu} (hf : ∀ gu, (f gu).sgList = gu.sgList)
include hf

/-- A change of the open graph that leaves the ports alone. -/
lemma setOpenGu_portView (w : GuWorld) : (w.setOpenGu f).portView = w.portView := by
  unfold GuWorld.setOpenGu
  cases ha : w.asyncGu with
  | none => simp only [GuWorld.portView, GuWorld.ins, GuWorld.outs, hf, ha]
  | some a =>
    simp only [GuWorld.portView, GuWorld.ins, GuWorld.outs, ha, Option.map_some, hf]

/-- The same, as a program. -/
lemma setOpenGu_on : Keeps (On P) (modify fun w => w.setOpenGu f : GuM Unit) := by
  refine Keeps.modify fun w hw => ?_
  change P _
  rw [setOpenGu_portView hf]
  exact hw

end

/-- A new object keeps what survives allocations. -/
lemma mallocObj_keeps (hP : Robust P) : Keeps (On P) mallocObj :=
  mallocObj_on.post
    (fun _ w ⟨v, hv, _, hw⟩ => by
      change P w.portView
      rw [hw]
      exact hP.alloc v hv)
    fun _ h => h

/-- A new external output port keeps it. -/
lemma guCreateExtOutPort_keeps (hP : Robust P) (o : Addr) (conn : ApmModuleConnCfg) :
    Keeps (On P) (guCreateExtOutPort o conn) := by
  exact Keeps.bind (Keeps.modify fun _ h => h) fun _ => Keeps.bind (mallocObj_keeps hP) fun ext =>
    Keeps.bind (Keeps.modify fun _ h => h) fun _ => Keeps.bind Keeps.get fun _ =>
      Keeps.bind (keepsOn (verify_leaves _)) fun _ => Keeps.bind (keepsOn malloc_leaves) fun _ =>
        Keeps.bind (setOpenGu_on fun _ => rfl) fun _ => Keeps.modify fun _ h => h

/-- A new external input port keeps it. -/
lemma guCreateExtInPort_keeps (hP : Robust P) (i : Addr) (conn : ApmModuleConnCfg) :
    Keeps (On P) (guCreateExtInPort i conn) := by
  exact Keeps.bind (Keeps.modify fun _ h => h) fun _ => Keeps.bind (mallocObj_keeps hP) fun ext =>
    Keeps.bind (Keeps.modify fun _ h => h) fun _ => Keeps.bind Keeps.get fun _ =>
      Keeps.bind (keepsOn (verify_leaves _)) fun _ => Keeps.bind (keepsOn malloc_leaves) fun _ =>
        Keeps.bind (setOpenGu_on fun _ => rfl) fun _ => Keeps.modify fun _ h => h

/-- A link between two ports keeps it. -/
lemma guLinkPorts_keeps (hP : Robust P) (conn : ApmModuleConnCfg) (o i : Option Addr) :
    Keeps (On P) (guLinkPorts conn o i) := by
  cases o with
  | none =>
    cases i with
    | none => exact Keeps.pure _
    | some i => exact guCreateExtInPort_keeps hP i conn
  | some o =>
    cases i with
    | none => exact guCreateExtOutPort_keeps hP o conn
    | some i => exact Keeps.modify fun _ h => h

/-- What the source end of a link does: the port is inserted, or it waits. -/
inductive PlacedOut (m : Addr) (v v' : PortView) : Prop
  | insert (room : v.outs.num m < v.outs.max m) (now : v.status m = .new ∨ v.async = none)
      (status : Addr → GuStatus) (same : ∀ m', status m' = .new ↔ v.status m' = .new)
      (eq : v' = { v with
        outs := (v.outs.create v.next m).insert m v.next, status := status, next := v.next + 1 })
  | push (room : v.outs.num m < v.outs.max m) (old : v.status m ≠ .new)
      (eq : v' = { v with
        outs := v.outs.create v.next m, next := v.next + 1
        async := v.async.map fun a => (a.1, a.2 ++ [.output v.next]) })

/-- What the destination end of a link does. -/
inductive PlacedIn (m : Addr) (v v' : PortView) : Prop
  | insert (room : v.ins.num m < v.ins.max m) (now : v.status m = .new ∨ v.async = none)
      (status : Addr → GuStatus) (same : ∀ m', status m' = .new ↔ v.status m' = .new)
      (eq : v' = { v with
        ins := (v.ins.create v.next m).insert m v.next, status := status, next := v.next + 1 })
  | push (room : v.ins.num m < v.ins.max m) (old : v.status m ≠ .new)
      (eq : v' = { v with
        ins := v.ins.create v.next m, next := v.next + 1
        async := v.async.map fun a => (a.1, a.2 ++ [.input v.next]) })

/-- A port joins those that wait. -/
lemma pushPending_portView (w : GuWorld) (port : GuCmnPort) :
    GuWorld.portView { w with
      asyncGu := w.asyncGu.map fun async => { async with portList := async.portList ++ [port] } } =
    { w.portView with async := w.portView.async.map fun a => (a.1, a.2 ++ [port]) } := by
  unfold GuWorld.portView
  cases w.asyncGu with
  | none => rfl
  | some a => rfl

/-! ### One end of a link

The two ends run the same program, each on its own side of the view. -/

/-- A port is inserted by changes to its module, which is then marked. -/
lemma insertPort_on {f : GuWorld → GuWorld} (v' : PortView)
    (hf : ∀ w, w.portView = v → (f w).portView = v') :
    Triple (On (· = v)) (do malloc; modify f; modify fun w => w.markUpdated m : GuM Unit)
      (fun _ => On fun u => ∃ status, (∀ m', status m' = .new ↔ v'.status m' = .new) ∧
        u = { v' with status := status }) (On (· = v)) := by
  refine Triple.bind (keepsOn malloc_leaves) fun _ =>
    Triple.bind (Q := fun _ => On (· = v')) (Triple.modify hf) fun _ =>
      Triple.modify ?_
  intro w hw
  refine ⟨(w.markUpdated m).moduleGuStatus, ?_, ?_⟩
  · have := markUpdated_status m w
    rw [show w.moduleGuStatus = v'.status from congrArg PortView.status hw] at this
    exact this
  · change { w.portView with status := (w.markUpdated m).moduleGuStatus } = _
    rw [show w.portView = _ from hw]

/-- A port is inserted into a module that is new or when nothing else runs, else it waits. -/
lemma placePort_on {m : Addr} {now : GuM Unit} {port : GuCmnPort} {v : PortView}
    {Q : PortView → Prop}
    (hinsert : v.status m = .new ∨ v.async = none →
      Triple (On (· = v)) now (fun _ => On Q) (On (· = v)))
    (hpush : v.status m ≠ .new →
      Q { v with async := v.async.map fun a => (a.1, a.2 ++ [port]) }) :
    Triple (On (· = v))
      (do let w ← get
          if w.moduleGuStatus m = .new ∨ w.asyncGu.isNone then now else guPushPendingPort port)
      (fun _ => On Q) (On (· = v)) := by
  refine Triple.get_bind fun w hw => Triple.ite (fun hnow => ?_) fun hlater => ?_
  · refine (hinsert (hnow.imp (fun h => ?_) fun h => ?_)).pre fun _ h => h.2
    · rw [← h]
      exact (congrFun (congrArg PortView.status hw) m).symm
    · have hasync := congrArg PortView.async hw
      change w.asyncGu.map _ = v.async at hasync
      rw [← hasync, Option.isNone_iff_eq_none.mp h]
      rfl
  · have hold : v.status m ≠ .new := by
      intro h
      refine hlater (Or.inl ?_)
      rw [← h]
      exact congrFun (congrArg PortView.status hw) m
    refine Triple.bind ((keepsOn malloc_leaves : Keeps (On (· = v)) malloc).conseq
      (fun _ h => h.2) (fun _ _ h => h) fun _ h => h) fun _ => Triple.modify ?_
    intro w' hw'
    change Q _
    rw [pushPending_portView, show w'.portView = _ from hw']
    exact hpush hold

/-- One end of a link: if there is room, a port is created and placed. -/
lemma handlePort_on {room : PortView → Prop} {c : GuWorld → Bool} {create : GuM Addr}
    {place : Addr → GuM Unit} {after : PortView → PortView} {Q : PortView → PortView → Prop}
    (hc : ∀ w, c w = true → room w.portView)
    (hcreate : ∀ R : PortView → Prop, Triple (On R) create
      (fun p w => ∃ v, R v ∧ p = v.next ∧ w.portView = after v) (On R))
    (hplace : ∀ v, room v →
      Triple (On (· = after v)) (place v.next) (fun _ => On (Q v)) (On (· = after v))) :
    Triple (On P)
      (do let w ← get
          verify (c w)
          let p ← create
          place p
          return p)
      (fun _ w => ∃ v, P v ∧ Q v w.portView)
      (fun w => ∃ v, P v ∧ (w.portView = v ∨ w.portView = after v)) := by
  refine Triple.get_bind fun w hw =>
    Triple.bind (Q := fun _ => On fun v => P v ∧ room v)
      ?_ fun _ => Triple.bind (Q := fun p w => ∃ v, (P v ∧ room v) ∧
        p = v.next ∧ w.portView = after v)
      ?_ fun p => Triple.bind ?_ fun _ =>
        Triple.pure fun _ h => h
  · refine (verify_spec _).post ?_ ?_
    · rintro _ w' ⟨⟨rfl, hP⟩, hroom⟩
      exact ⟨hP, hc w' hroom⟩
    · rintro w' ⟨rfl, hP⟩
      exact ⟨w'.portView, hP, Or.inl rfl⟩
  · exact (hcreate _).exits fun w' h => ⟨w'.portView, h.1, Or.inl rfl⟩
  · rintro w' ⟨v, ⟨hP, hroom⟩, rfl, hw'⟩
    have := hplace v hroom w' hw'
    split at this
    · exact ⟨v, hP, this⟩
    · exact ⟨v, hP, Or.inr this⟩

/-- The view after an output port was created at the next address. -/
def PortView.createOut (v : PortView) (m : Addr) : PortView :=
  { v with outs := v.outs.create v.next m, next := v.next + 1 }

/-- A new output port gets the next address. -/
lemma guCreateOutputPort_on (m : Addr) (id : UInt32) :
    Triple (On P) (guCreateOutputPort m id)
      (fun p w => ∃ v, P v ∧ p = v.next ∧ w.portView = v.createOut m) (On P) := by
  refine Triple.bind mallocObj_on fun p => ?_
  rintro w ⟨v, hv, rfl, hw⟩
  refine ⟨v, hv, rfl, ?_⟩
  change { w.portView with outs := w.portView.outs.create v.next m } = v.createOut m
  rw [hw]
  rfl

/-- An output port is inserted, and nothing becomes new or old. -/
lemma guInsertOutputPort_on (v : PortView) (m p : Addr) :
    Triple (On (· = v)) (guInsertOutputPort m p)
      (fun _ => On fun v' => ∃ status, (∀ m', status m' = .new ↔ v.status m' = .new) ∧
        v' = { v with outs := v.outs.insert m p, status := status }) (On (· = v)) := by
  refine insertPort_on { v with outs := v.outs.insert m p } ?_
  rintro w rfl
  rfl

/-- An output port is inserted or waits. -/
lemma guPlaceOutputPort_on (v : PortView) (m : Addr) (internal : Bool)
    (hroom : v.outs.num m < v.outs.max m) :
    Triple (On (· = v.createOut m)) (guPlaceOutputPort m v.next internal)
      (fun _ => On (PlacedOut m v)) (On (· = v.createOut m)) := by
  refine placePort_on (fun hnow => ?_) fun hold => .push hroom hold rfl
  refine Triple.bind (guInsertOutputPort_on (v.createOut m) m v.next) fun _ => Triple.modify ?_
  rintro w' ⟨status, hstatus, heq⟩
  exact .insert hroom hnow status hstatus heq

/-- **The source end of a link.** The port is inserted or waits; on failure it may have been
created. -/
theorem guHandleSrcPort_on (m : Addr) (id : UInt32) (internal : Bool) :
    Triple (On P) (guHandleSrcPort m id internal)
      (fun _ w => ∃ v, P v ∧ PlacedOut m v w.portView)
      (fun w => ∃ v, P v ∧ (w.portView = v ∨ w.portView = v.createOut m)) :=
  handlePort_on (fun _ => of_decide_eq_true) (fun _ => guCreateOutputPort_on m id)
    fun v hroom => guPlaceOutputPort_on v m internal hroom

/-- The view after an input port was created at the next address. -/
def PortView.createIn (v : PortView) (m : Addr) : PortView :=
  { v with ins := v.ins.create v.next m, next := v.next + 1 }

/-- A new input port gets the next address. -/
lemma guCreateInputPort_on (m : Addr) (id : UInt32) :
    Triple (On P) (guCreateInputPort m id)
      (fun p w => ∃ v, P v ∧ p = v.next ∧ w.portView = v.createIn m) (On P) := by
  refine Triple.bind mallocObj_on fun p => ?_
  rintro w ⟨v, hv, rfl, hw⟩
  refine ⟨v, hv, rfl, ?_⟩
  change { w.portView with ins := w.portView.ins.create v.next m } = v.createIn m
  rw [hw]
  rfl

/-- An input port is inserted, and nothing becomes new or old. -/
lemma guInsertInputPort_on (v : PortView) (m p : Addr) :
    Triple (On (· = v)) (guInsertInputPort m p)
      (fun _ => On fun v' => ∃ status, (∀ m', status m' = .new ↔ v.status m' = .new) ∧
        v' = { v with ins := v.ins.insert m p, status := status }) (On (· = v)) := by
  refine insertPort_on { v with ins := v.ins.insert m p } ?_
  rintro w rfl
  rfl

/-- An input port is inserted or waits. -/
lemma guPlaceInputPort_on (v : PortView) (m : Addr) (internal : Bool)
    (hroom : v.ins.num m < v.ins.max m) :
    Triple (On (· = v.createIn m)) (guPlaceInputPort m v.next internal)
      (fun _ => On (PlacedIn m v)) (On (· = v.createIn m)) := by
  refine placePort_on (fun hnow => ?_) fun hold => .push hroom hold rfl
  refine Triple.bind (guInsertInputPort_on (v.createIn m) m v.next) fun _ => Triple.modify ?_
  rintro w' ⟨status, hstatus, heq⟩
  exact .insert hroom hnow status hstatus heq

/-- **The destination end of a link.** The port is inserted or waits; on failure it may have been
created. -/
theorem guHandleDstPort_on (m : Addr) (id : UInt32) (internal : Bool) :
    Triple (On P) (guHandleDstPort m id internal)
      (fun _ w => ∃ v, P v ∧ PlacedIn m v w.portView)
      (fun w => ∃ v, P v ∧ (w.portView = v ∨ w.portView = v.createIn m)) :=
  handlePort_on (fun _ => of_decide_eq_true) (fun _ => guCreateInputPort_on m id)
    fun v hroom => guPlaceInputPort_on v m internal hroom

end Effects

/-! ## Data links keep the budget -/

section Links

open PortView (Inv)

variable {srcs dsts : List UInt32}

/-- The link that is being made, as far as it may have to wait: only links of the command
itself reach modules that already run. -/
def coming (fromMain : Bool) (iid : UInt32) : List UInt32 :=
  bif fromMain then [iid] else []

variable {fromMain : Bool} {iid : UInt32}

/-- The source of the link is done. -/
lemma PortView.Inv.drop_src (h : Inv (coming fromMain iid ++ srcs) dsts v) : Inv srcs dsts v := by
  cases fromMain with
  | false => exact h
  | true => exact h.tail_src

/-- The destination of the link is done. -/
lemma PortView.Inv.drop_dst (h : Inv srcs (coming fromMain iid ++ dsts) v) : Inv srcs dsts v := by
  cases fromMain with
  | false => exact h
  | true => exact h.tail_dst

/-- What the look-up of a link end says about the module: in an asynchronous open, a
module that is not new was found in the main graph. -/
def LinkEnd (fromMain : Bool) (iid : UInt32) (m : Option Addr) (v : PortView) : Prop :=
  ∀ a, m = some a → a < v.next ∧
    (v.status a ≠ .new → v.async ≠ none → fromMain = true ∧ v.find iid = some a)

/-- The look-up of the code finds a link end. -/
lemma connModule_linkEnd {w : GuWorld} (h : Inv srcs dsts w.portView) (fromMain : Bool)
    (iid : UInt32) : LinkEnd fromMain iid (w.connModule fromMain iid) w.portView := by
  have hmem : ∀ {gu : Gu} {a : Addr}, w.guFindModule gu iid = some a →
      ∃ sg ∈ gu.sgList, a ∈ w.sgModuleList sg := by
    intro gu a ha
    exact List.mem_flatMap.mp (List.mem_of_find?_eq_some ha)
  have hmain : ∀ {a : Addr}, w.guFindModule w.gu iid = some a → a < w.next := by
    intro a ha
    obtain ⟨sg, hsg, hm⟩ := hmem ha
    exact (h.sgs sg hsg).2 a hm
  intro a ha
  unfold GuWorld.connModule at ha
  cases hopen : (if iid = 0 then none else w.guFindModule w.openGu iid) with
  | some m =>
    rw [hopen] at ha
    cases ha
    have hfound : w.guFindModule w.openGu iid = some a := by
      by_cases hiid : iid = 0
      · rw [if_pos hiid] at hopen
        cases hopen
      · rw [if_neg hiid] at hopen
        exact hopen
    unfold GuWorld.openGu at hfound
    cases hasync : w.asyncGu with
    | none =>
      rw [hasync] at hfound
      refine ⟨hmain hfound, fun _ hne => absurd ?_ hne⟩
      simp only [GuWorld.portView, hasync, Option.map_none]
    | some async =>
      rw [hasync] at hfound
      obtain ⟨sg, hsg, hm⟩ := hmem hfound
      have hview : w.portView.async = some (async.gu.sgList, async.portList) := by
        simp only [GuWorld.portView, hasync, Option.map_some]
      obtain ⟨-, -, hms⟩ := h.async_sgs _ hview sg hsg
      exact ⟨(hms a hm).1, fun hne => absurd (hms a hm).2 hne⟩
  | none =>
    rw [hopen] at ha
    simp only at ha
    split at ha
    · have hboth : fromMain = true := by
        have := ‹(fromMain && w.asyncGu.isSome) = true›
        exact (Bool.and_eq_true _ _ ▸ this).1
      exact ⟨hmain ha, fun _ _ => ⟨hboth, ha⟩⟩
    · cases ha

variable {v' : PortView}

/-- The end of the link is still one after a port was placed. -/
lemma PlacedOut.linkEnd {m' : Option Addr} (hend : LinkEnd fromMain iid m' v)
    (hp : PlacedOut m v v') : LinkEnd fromMain iid m' v' := by
  intro a ha
  obtain ⟨halloc, hfind⟩ := hend a ha
  cases hp with
  | insert room now status same eq =>
    rw [eq]
    exact ⟨halloc.trans (Nat.lt_succ_self _),
      fun hne hasync => hfind (fun hnew => hne ((same a).mpr hnew)) hasync⟩
  | push room old eq =>
    rw [eq]
    refine ⟨halloc.trans (Nat.lt_succ_self _), fun hne hasync => hfind hne ?_⟩
    intro hnone
    exact hasync (by simp [hnone])

/-- A placed port keeps the budget, on account of its link if it has to wait. -/
lemma PlacedOut.inv {fromMain : Bool} (h : Inv (coming fromMain iid ++ srcs) dsts v)
    (hend : LinkEnd fromMain iid (some m) v) (hp : PlacedOut m v v') : Inv srcs dsts v' := by
  obtain ⟨hm, hfind⟩ := hend m rfl
  have h' := h.drop_src
  cases hp with
  | insert room now status same eq =>
    rw [eq]
    rw [h.outs.count] at room
    exact ((h'.createOut m).insertOut (h'.freeOut_create hm room) now).of_status same
  | push room old eq =>
    rw [eq]
    rw [h.outs.count] at room
    cases ha : v.async with
    | none =>
      have hcreate := h'.createOut m
      rw [ha] at hcreate
      exact hcreate
    | some a =>
      obtain ⟨rfl, hfound⟩ := hfind old (by simp [ha])
      have hcreate : Inv (iid :: srcs) dsts (v.createOut m) := h.createOut m
      have hpush := hcreate.pushOut (h'.freeOut_create hm room) old hfound
      simp only [PortView.createOut, ha] at hpush
      exact hpush

/-- A placed port keeps the budget, on account of its link if it has to wait. -/
lemma PlacedIn.inv {fromMain : Bool} (h : Inv srcs (coming fromMain iid ++ dsts) v)
    (hend : LinkEnd fromMain iid (some m) v) (hp : PlacedIn m v v') : Inv srcs dsts v' := by
  obtain ⟨hm, hfind⟩ := hend m rfl
  have h' := h.drop_dst
  cases hp with
  | insert room now status same eq =>
    rw [eq]
    rw [h.ins.count] at room
    exact ((h'.createIn m).insertIn (h'.freeIn_create hm room) now).of_status same
  | push room old eq =>
    rw [eq]
    rw [h.ins.count] at room
    cases ha : v.async with
    | none =>
      have hcreate := h'.createIn m
      rw [ha] at hcreate
      exact hcreate
    | some a =>
      obtain ⟨rfl, hfound⟩ := hfind old (by simp [ha])
      have hcreate : Inv srcs (iid :: dsts) (v.createIn m) := h.createIn m
      have hpush := hcreate.pushIn (h'.freeIn_create hm room) old hfound
      simp only [PortView.createIn, ha] at hpush
      exact hpush

/-- **A data link keeps the budget.** -/
theorem guHandleConnection_on (fromMain : Bool) (conn : ApmModuleConnCfg) :
    Triple (On (Inv (coming fromMain conn.srcModInstId ++ srcs)
        (coming fromMain conn.dstModInstId ++ dsts)))
      (guHandleConnection fromMain conn) (fun _ => On (Inv srcs dsts)) (On (Inv [] [])) := by
  refine Triple.get_bind fun w hw => ?_
  have hsrc := connModule_linkEnd hw fromMain conn.srcModInstId
  have hdst := connModule_linkEnd hw fromMain conn.dstModInstId
  -- both ends are looked up in the same graph, before anything is created
  let src := w.connModule fromMain conn.srcModInstId
  let dst := w.connModule fromMain conn.dstModInstId
  let P : PortView → Prop := fun v =>
    Inv (coming fromMain conn.srcModInstId ++ srcs) (coming fromMain conn.dstModInstId ++ dsts) v ∧
      LinkEnd fromMain conn.srcModInstId src v ∧ LinkEnd fromMain conn.dstModInstId dst v
  let P' : PortView → Prop := fun v =>
    Inv srcs (coming fromMain conn.dstModInstId ++ dsts) v ∧
      LinkEnd fromMain conn.dstModInstId dst v
  refine Triple.bind (Q := fun _ => On P) ?_ fun _ =>
    Triple.ite (fun _ => Triple.throw fun _ h => h.1.nil) fun _ =>
      Triple.bind (Q := fun _ => On P') ?_ fun o =>
        Triple.bind ?_ fun i =>
          (guLinkPorts_keeps (Inv.robust srcs dsts) conn o i).exits
            fun _ h => h.nil
  · refine (verify_spec _).post ?_ ?_
    · rintro _ w' ⟨⟨rfl, hw'⟩, -⟩
      exact ⟨hw', hsrc, hdst⟩
    · rintro w' ⟨rfl, hw'⟩
      exact hw'.nil
  · change Triple (On P) (onModule src _) _ _
    cases hs : src with
    | none => exact Triple.pure fun w' h => ⟨h.1.drop_src, h.2.2⟩
    | some m =>
      refine Triple.bind ?_ fun p => Triple.pure fun _ h => h
      refine (guHandleSrcPort_on m _ _).post ?_ ?_
      · rintro p w' ⟨v, ⟨hinv, hse, hde⟩, hplaced⟩
        exact ⟨hplaced.inv hinv (hs ▸ hse), hplaced.linkEnd hde⟩
      · rintro w' ⟨v, ⟨hinv, -, -⟩, heq | heq⟩
        · exact (heq ▸ hinv : Inv _ _ w'.portView).nil
        · change Inv [] [] w'.portView
          rw [heq]
          exact (hinv.createOut m).nil
  · change Triple (On P') (onModule dst _) _ _
    cases hd : dst with
    | none => exact Triple.pure fun w' h => h.1.drop_dst
    | some m =>
      refine Triple.bind ?_ fun p => Triple.pure fun _ h => h
      refine (guHandleDstPort_on m _ _).post ?_ ?_
      · rintro p w' ⟨v, ⟨hinv, hde⟩, hplaced⟩
        exact hplaced.inv hinv (hd ▸ hde)
      · rintro w' ⟨v, ⟨hinv, -⟩, heq | heq⟩
        · exact (heq ▸ hinv : Inv _ _ w'.portView).nil
        · change Inv [] [] w'.portView
          rw [heq]
          exact (hinv.createIn m).nil

end Links

end AudioReach
