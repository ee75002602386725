import AudioReach.ParallelCmds.Exclusion

/-!
# The deferred list and the flag of `CLOSE_ALL`

`Consistent` is what the bookkeeping promises in every state of a run: the mask and the wait
mask say which slots are taken, the deferred list holds pending commands in the order of
arrival, and `close_all_deferred` tells whether a `CLOSE_ALL` waits.  `ResumedInOrder` is
what it promises about a step: no command overtakes a deferred one that it conflicts with.

Two things break the promises.  A deferred proxy command that comes across a pending
`CLOSE_ALL` stops being pending but stays in the list, and resuming any command clears the
flag, also while a `CLOSE_ALL` goes on waiting.
-/

namespace AudioReach

open CmdCtrl AudioReach.Library ApmCmds
open List

/-- The bookkeeping of the commands is consistent. -/
structure Consistent (n : NumMaxParallelCmd) (s : CmdRun) : Prop where
  /-- The mask has the bits of the commands that were accepted and have not ended. -/
  bit : ∀ i, s.apm.activeCmdMask.testBit i = true ↔ i ∈ s.accepted
  /-- The queue is off the wait mask when all slots are used. -/
  listened : s.apm.cmdQListened = false ↔ ∀ i < n.val, i ∈ s.accepted
  once : s.apm.deferredCmdList.Nodup
  owns : ∀ i ∈ s.apm.deferredCmdList, i ∈ s.accepted ∧ (s.cmd i).listIdx = i
  pending : ∀ i ∈ s.apm.deferredCmdList, (s.cmd i).cmdPending = true
  /-- The deferred commands wait in the order of their arrival. -/
  order : s.apm.deferredCmdList.Sublist s.accepted
  count : s.apm.numDeferred = s.apm.deferredCmdList.length
  /-- The flag tells whether a `CLOSE_ALL` is deferred. -/
  closeAll : s.apm.closeAllDeferred = true ↔
    ∃ i ∈ s.apm.deferredCmdList, (s.cmd i).cmdOpcode = .closeAll

/-- Two commands that must not change places: one is a `CLOSE_ALL`, or they touch the same or
adjacent sub-graphs. -/
def Ordered (conns : List SgConn) (c l : CmdCtrl) : Prop :=
  c.cmdOpcode = .closeAll ∨ l.cmdOpcode = .closeAll ∨ c.Conflicts conns l

/-- A command that leaves the deferred list leaves none behind that arrived earlier and
conflicts with it. -/
def ResumedInOrder (n : NumMaxParallelCmd) (conns : List SgConn) (s : CmdRun) (call : CmdCall) :
    Prop :=
  ∀ pre i post, s.apm.deferredCmdList = pre ++ i :: post →
    i ∉ (cmdStep n conns s call).apm.deferredCmdList →
      ∀ j ∈ pre, ¬ Ordered conns (s.cmd j) (s.cmd i)

/-- A deferred `CLOSE_ALL` is the next command to be resumed, or nothing is resumed: with no
command active it is the first in the list, and otherwise all deferred commands are
blocked. -/
def CloseAllNext (n : NumMaxParallelCmd) (conns : List SgConn) (r : ApmCmds) : Prop :=
  ∀ c ∈ r.deferredCmdList, (r.cmdCtrlList c).cmdOpcode = .closeAll →
    (r.AllDeferred n → r.deferredCmdList.head? = some c) ∧
      (¬ r.AllDeferred n → ∀ i ∈ r.deferredCmdList, Blocked n conns r.cmdCtrlList i)

/-- Each event that goes through the deferred commands leaves no `CLOSE_ALL` behind. -/
def CloseAllNextIn (n : NumMaxParallelCmd) (conns : List SgConn) (s : CmdRun) (call : CmdCall) :
    Prop :=
  ∀ r, Reevaluates n conns s call r → CloseAllNext n conns r

/-- The flag tells whether a `CLOSE_ALL` is deferred. -/
def FlagRight (s : CmdRun) : Prop :=
  s.apm.closeAllDeferred = true ↔ ∃ i ∈ s.apm.deferredCmdList, (s.cmd i).cmdOpcode = .closeAll

variable {n : NumMaxParallelCmd} {conns : List SgConn}
variable {s : CmdRun}

lemma Booked.consistent (h : Booked n s) (hflag : FlagRight s) : Consistent n s where
  bit := h.bit
  listened := h.listened.trans h.mask_eq_fullMask
  once := h.nodup_deferred
  owns := fun i hi => ⟨h.order.subset hi, h.listIdx i (h.order.subset hi)⟩
  pending := fun i hi => (h.pending i).mpr (h.order.subset hi)
  order := h.order
  count := h.count
  closeAll := hflag

/-! ## The flag -/

lemma flagRight_init : FlagRight CmdRun.init := by
  unfold FlagRight
  simp [CmdRun.init, ApmCmds.init]

lemma FlagRight.fewer {r : CmdRun} (h : FlagRight s) (hbooked : Booked n r)
    (hfewer : Fewer r s) : FlagRight r := by
  unfold FlagRight at h ⊢
  rw [hfewer.closeAllDeferred, h, hfewer.deferred]
  constructor
  · rintro ⟨i, hi, hop⟩
    refine ⟨i, hi, ?_⟩
    rwa [hfewer.cmd i (hbooked.order.subset (hfewer.deferred ▸ hi))]
  · rintro ⟨i, hi, hop⟩
    refine ⟨i, hi, ?_⟩
    rwa [hfewer.cmd i (hbooked.order.subset (hfewer.deferred ▸ hi))] at hop

lemma FlagRight.arrived {s' : CmdRun} {cmd : NewCmd} {direct allocated : Bool} {apm : ApmCmds}
    (h : FlagRight s) (hbooked : Booked n s) (halloc : s.apm.allocateCmdCtrlObj n cmd = some apm)
    (harrived : Arrived n conns s cmd direct allocated apm s') : FlagRight s' := by
  obtain ⟨-, -, -, -, hdeferred, -, hflag⟩ := allocateCmdCtrlObj_eq_some halloc
  have hold : ∀ i ∈ s.apm.deferredCmdList, s'.cmd i = s.cmd i := by
    intro i hi
    refine harrived.cmd_of_ne halloc ?_
    rintro rfl
    exact (hbooked.freeSlot_of_alloc halloc).2 (hbooked.order.subset hi)
  -- the new command is not in the list yet
  have hlist : (∃ i ∈ s.apm.deferredCmdList, (s'.cmd i).cmdOpcode = .closeAll) ↔
      s.apm.closeAllDeferred = true := by
    unfold FlagRight at h
    rw [h]
    exact exists_congr fun i => and_congr_right fun hi => by rw [hold i hi]
  cases harrived with
  | active _ | failed _ | exempt _ | unchecked _ _ _ =>
    change apm.closeAllDeferred = true ↔ ∃ i ∈ apm.deferredCmdList, _
    rw [hflag, hdeferred, hlist]
  | deferred hgm =>
    change (if (apm.cmdCtrlList s.apm.freeSlot).cmdOpcode = .closeAll then true
      else apm.closeAllDeferred) = true ↔
        ∃ i ∈ apm.deferredCmdList ++ [s.apm.freeSlot], (apm.cmdCtrlList i).cmdOpcode = .closeAll
    change (∃ i ∈ s.apm.deferredCmdList, (apm.cmdCtrlList i).cmdOpcode = .closeAll) ↔ _ at hlist
    rw [hflag, hdeferred]
    by_cases hop : (apm.cmdCtrlList s.apm.freeSlot).cmdOpcode = .closeAll
    · simp [hop]
    · simp [hop, or_and_right, exists_or, hlist]

lemma FlagRight.reevaluated (hpeers : ∀ a b, Adjacent conns a b → b ≠ 0) {r : CmdRun}
    (hbooked : Booked n r) (h : FlagRight r) (hbusy : r.apm.NoneBusy n conns)
    (hnext : CloseAllNext n conns r.apm) : FlagRight (r.reevaluated n conns) := by
  rcases hbooked.reevaluated_cases hpeers hbusy with heq | ⟨pre, i, post, hlist, heq, hwhich⟩
  · rw [heq]
    exact h
  · have hi : i ∈ r.apm.deferredCmdList := by
      rw [hlist]
      exact mem_append_right _ mem_cons_self
    rw [heq]
    refine iff_of_false Bool.false_ne_true ?_
    rintro ⟨c, hc, hop⟩
    obtain ⟨hne, hmem⟩ := hbooked.nodup_deferred.mem_erase_iff.mp hc
    obtain ⟨hfirst, hblocked⟩ := hnext c hmem hop
    rcases hwhich with ⟨hall, rfl⟩ | ⟨hsome, -, hfree⟩
    · -- the first command was resumed, so it was the `CLOSE_ALL`
      have hhead := hfirst hall
      rw [hlist] at hhead
      exact hne (Option.some.inj hhead).symm
    · exact hfree (hblocked hsome i hi)

lemma FlagRight.cmdStep (hpeers : ∀ a b, Adjacent conns a b → b ≠ 0) {call : CmdCall}
    (h : FlagRight s) (hbooked : Booked n s) (hvalid : ArrivesValid call)
    (hbusy : NoneBusyIn n conns s call) (hnext : CloseAllNextIn n conns s call) :
    FlagRight (cmdStep n conns s call) := by
  have hstepped := stepped_cmdStep hpeers hbooked hvalid
  generalize AudioReach.cmdStep n conns s call = s' at hstepped
  cases hstepped with
  | refused => exact h
  | arrived halloc harrived => exact h.arrived hbooked halloc harrived
  | ended hfewer hr hreevaluates =>
    exact (h.fewer hr hfewer).reevaluated hpeers hr (hbusy _ hreevaluates) (hnext _ hreevaluates)

/-! ## The order of resumption -/

lemma resumedInOrder_of_subset {call : CmdCall}
    (h : ∀ i ∈ s.apm.deferredCmdList, i ∈ (cmdStep n conns s call).apm.deferredCmdList) :
    ResumedInOrder n conns s call := by
  intro pre i post hlist hgone
  refine absurd (h i ?_) hgone
  rw [hlist]
  exact mem_append_right _ mem_cons_self

lemma resumedInOrder_cmdStep (conns : ConnList) {call : CmdCall}
    (hs : BookedSeen n conns.conns (fun c l => c.Conflicts conns.conns l) s)
    (hvalid : ArrivesValid call) (hbusy : NoneBusyIn n conns.conns s call)
    (hnext : CloseAllNextIn n conns.conns s call) : ResumedInOrder n conns.conns s call := by
  have hstepped := stepped_cmdStep conns.peer_ne_zero hs.booked hvalid
  generalize hstep : cmdStep n conns.conns s call = s' at hstepped
  cases hstepped with
  | refused =>
    refine resumedInOrder_of_subset fun i hi => ?_
    rwa [hstep]
  | arrived halloc harrived =>
    refine resumedInOrder_of_subset fun i hi => ?_
    rw [hstep]
    exact harrived.mem_deferred halloc hi
  | @ended _ r hfewer hr hreevaluates =>
    have hnext := hnext _ hreevaluates
    have hdeferred := hfewer.deferred
    rcases hr.reevaluated_cases conns.peer_ne_zero (hbusy _ hreevaluates) with
      heq | ⟨pre, i, post, hlist, heq, hwhich⟩
    · refine resumedInOrder_of_subset fun i hi => ?_
      rwa [hstep, heq, hdeferred]
    · -- only `i` leaves the list
      intro pre' i' post' hlist' hgone j hj hordered
      rw [hstep, heq] at hgone
      rw [← hdeferred] at hlist'
      have hmem : i' ∈ r.apm.deferredCmdList := by
        rw [hlist']
        exact mem_append_right _ mem_cons_self
      have hi : i' = i := by
        by_contra hne
        exact hgone ((mem_erase_of_ne hne).mpr hmem)
      subst hi
      have hjmem : j ∈ r.apm.deferredCmdList := by
        rw [hlist']
        exact mem_append_left _ hj
      have hji : j ≠ i' := by
        have hnodup := hr.nodup_deferred
        rw [hlist', nodup_append] at hnodup
        exact hnodup.2.2 j hj i' mem_cons_self
      rcases hwhich with ⟨-, rfl⟩ | ⟨hsome, -, hfree⟩
      · -- `i'` is the first of the list
        have hhead : r.apm.deferredCmdList.head? = some i' := by
          rw [hlist]
          rfl
        rw [hlist'] at hhead
        cases pre' with
        | nil => exact absurd hj not_mem_nil
        | cons k pre' =>
          have hki : k = i' := Option.some.inj hhead
          have hnodup := hr.nodup_deferred
          rw [hlist', hki] at hnodup
          exact (nodup_cons.mp hnodup).1 (mem_append_right _ mem_cons_self)
      · have hcmd : ∀ k ∈ r.apm.deferredCmdList, s.cmd k = r.cmd k := fun k hk =>
          (hfewer.cmd k (hr.order.subset hk)).symm
        rw [hcmd j hjmem, hcmd i' hmem] at hordered
        rcases hordered with hop | hop | hconflicts
        · exact hfree ((hnext j hjmem hop).2 hsome i' hmem)
        · exact hfree ((hnext i' hmem hop).2 hsome i' hmem)
        · have hsees := (hs.seen.fewer hfewer) i' (hr.order.subset hmem) j
            (hr.order.subset hjmem) (Ne.symm hji) (hconflicts.symm conns.symm)
          refine hfree ⟨j, hr.lt j (hr.order.subset hjmem), ⟨?_, hji⟩, Or.inr hsees⟩
          exact (hr.pending j).mpr (hr.order.subset hjmem)

/-! ## Runs -/

/-- The events that keep the promises: the ids of a command that arrives are valid, it and
each pending command see each other if they conflict, and when a command ends no deferred
command is found busy and no deferred `CLOSE_ALL` is passed over. -/
def KeepsOrder (n : NumMaxParallelCmd) (conns : List SgConn) (s : CmdRun) (call : CmdCall) : Prop :=
  Orderly n conns (fun c l => c.Mutual conns l ∧ c.LinksSeen conns l) s call ∧
    CloseAllNextIn n conns s call

/-- **The books of the parallel commands.** In every run of such events the bookkeeping is
consistent in each state, and no command overtakes a deferred one that it conflicts with. -/
theorem consistent_along (n : NumMaxParallelCmd) (conns : ConnList) (calls : List CmdCall)
    (hcalls : Meets (cmdStep n conns.conns) (KeepsOrder n conns.conns) CmdRun.init calls) :
    Along (cmdStep n conns.conns) (Consistent n) CmdRun.init calls ∧
      Meets (cmdStep n conns.conns) (ResumedInOrder n conns.conns) CmdRun.init calls := by
  have hsees : ∀ c l : CmdCtrl, c.Mutual conns.conns l ∧ c.LinksSeen conns.conns l →
      c.Conflicts conns.conns l → c.Sees conns.conns l ∧ l.Sees conns.conns c :=
    fun c l h hconflicts => h.1.sees_of_conflicts conns.symm h.2 hconflicts
  have halong : Along (cmdStep n conns.conns)
      (fun s => BookedSeen n conns.conns (fun c l => c.Conflicts conns.conns l) s ∧ FlagRight s)
      CmdRun.init calls := by
    refine along_of_meets ?_ ⟨⟨booked_init, allSeen_init⟩, flagRight_init⟩ hcalls
    rintro s call ⟨hs, hflag⟩ ⟨horderly, hnext⟩
    exact ⟨hs.orderly conns (Conflicts.symm conns.symm) hsees horderly,
      hflag.cmdStep conns.peer_ne_zero hs.booked horderly.1 horderly.2.1 hnext⟩
  refine ⟨halong.mono fun s hs => hs.1.booked.consistent hs.2, ?_⟩
  refine meets_of_along ?_ halong hcalls
  rintro s call ⟨hs, -⟩ ⟨horderly, hnext⟩
  exact resumedInOrder_cmdStep conns hs horderly.1 horderly.2.1 hnext

/-! ### Fixed commands -/

/-- A command for sub-graph 1. -/
def startOne : NewCmd := ⟨.graphStart, [1], []⟩

/-- `CLOSE_ALL` comes without a list. -/
def closeAllCmd : NewCmd := ⟨.closeAll, [], []⟩

/-- A second command for a sub-graph and a `CLOSE_ALL` wait; when the first command ends the
second is resumed, and the flag of `CLOSE_ALL` is cleared although it goes on waiting. -/
theorem not_consistent_along :
    ¬ ∀ (n : NumMaxParallelCmd) (conns : ConnList) (calls : List CmdCall),
      Meets (cmdStep n conns.conns) (fun _ call => ArrivesValid call) CmdRun.init calls →
      Along (cmdStep n conns.conns) (Consistent n) CmdRun.init calls ∧
        Meets (cmdStep n conns.conns) (ResumedInOrder n conns.conns) CmdRun.init calls := by
  intro hall
  have hrun := hall defaultNumMaxParallelCmd connList23
    [.arrive startOne true true, .arrive startOne true true, .arrive closeAllCmd true true,
      .finish 0]
    ⟨by simp [ArrivesValid, startOne], by simp [ArrivesValid, startOne],
      by simp [ArrivesValid, closeAllCmd], trivial, trivial⟩
  have hflag := hrun.1.last.closeAll.mpr ⟨2, by decide, by decide⟩
  exact absurd hflag (by decide)

/-- A `CLOSE_ALL` waits for one command and is resumed when that ends. -/
theorem consistent_along_closeAll : Along (cmdStep defaultNumMaxParallelCmd connList23.conns)
      (Consistent defaultNumMaxParallelCmd) CmdRun.init
      [.arrive startOne true true, .arrive closeAllCmd true true, .finish 0] ∧
    Meets (cmdStep defaultNumMaxParallelCmd connList23.conns)
      (ResumedInOrder defaultNumMaxParallelCmd connList23.conns) CmdRun.init
      [.arrive startOne true true, .arrive closeAllCmd true true, .finish 0] := by
  refine consistent_along _ connList23 _ ⟨⟨⟨by simp [ArrivesValid, startOne], ?_, ?_⟩, ?_⟩,
    ⟨⟨by simp [ArrivesValid, closeAllCmd], ?_, ?_⟩, ?_⟩, ⟨⟨trivial, ?_, trivial⟩, ?_⟩, trivial⟩
  · intro r hr
    exact absurd hr (not_reevaluates_arrive rfl)
  · intro j hj
    exact absurd hj not_mem_nil
  · intro r hr
    exact absurd hr (not_reevaluates_arrive rfl)
  · intro r hr
    exact absurd hr (not_reevaluates_arrive rfl)
  · intro j _
    refine ⟨Or.inr (Or.inr (iff_of_false ?_ ?_)), ?_⟩
    · rintro ⟨a, ha, -⟩
      exact absurd ha not_mem_nil
    · rintro ⟨a, ha, -⟩
      exact absurd ha not_mem_nil
    · rintro ⟨a, ha, -⟩
      exact absurd ha not_mem_nil
  · intro r hr
    exact absurd hr (not_reevaluates_arrive rfl)
  · rintro r ⟨-, rfl⟩
    exact Or.inl (by decide)
  · rintro r ⟨-, rfl⟩ c hc -
    have hone : c = 1 := mem_singleton.mp hc
    subst hone
    exact ⟨fun _ => rfl, fun hnot => absurd (by decide) hnot⟩

end AudioReach
