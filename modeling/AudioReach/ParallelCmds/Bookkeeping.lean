import Mathlib.Data.List.Perm.Basic
import AudioReach.ParallelCmds.Resume
import AudioReach.Library.Runs

/-!
# The bookkeeping of parallel commands

Commands arrive, wait, run and end in any order.  `cmdStep` is one such event.  Next to the
state of the APM a run keeps what the source has no field for: the slots of the commands
that were accepted and have not ended, in the order of their arrival, and those of the proxy
commands that were let through in spite of an overlap.

`Booked` is the agreement of the mask, the slots, the wait mask and the deferred list with
that history.  It is kept by every event in which no deferred command is given up as busy.
-/

namespace AudioReach

open CmdCtrl AudioReach.Library ApmCmds
open List

/-! ## Runs -/

/-- The commands of the APM, and the history that is told about them. -/
structure CmdRun where
  apm : ApmCmds
  /-- The slots of the commands accepted and not yet ended, in the order of arrival. -/
  accepted : List ℕ
  /-- The slots of the proxy commands that run although they overlap. -/
  exempt : List ℕ

/-- What happens to the command list. -/
inductive CmdCall
  /-- A command arrives.  `direct` is `is_direct_cmd` of a proxy command, and `allocated`
  tells whether a node of the deferred list can be allocated. -/
  | arrive (cmd : NewCmd) (direct allocated : Bool)
  /-- A command arrives whose payload is not to be had. -/
  | arriveFailed (op : CmdOpcode)
  /-- The sequencer is done with the command in a slot. -/
  | finish (i : ℕ)
  deriving DecidableEq, Repr

namespace CmdRun

variable (n : NumMaxParallelCmd) (conns : List SgConn)

/-- Nothing has arrived yet. -/
def init : CmdRun :=
  { apm := ApmCmds.init, accepted := [], exempt := [] }

/-- The command in a slot. -/
def cmd (s : CmdRun) (i : ℕ) : CmdCtrl := s.apm.cmdCtrlList i

/-- The command in a slot is active: accepted, not ended and not deferred. -/
def Active (s : CmdRun) (i : ℕ) : Prop :=
  i ∈ s.accepted ∧ i ∉ s.apm.deferredCmdList

instance (s : CmdRun) (i : ℕ) : Decidable (s.Active i) :=
  inferInstanceAs (Decidable (_ ∧ _))

/-- The handlers of `apm_gpr_cmd_handler.c` and `apm_spf_cmd_hdlr.c`: allocate a slot, then
defer the command or let the sequencer begin.  A proxy command that is not direct is not
checked, and a busy one ends at once. -/
def arrive (s : CmdRun) (cmd : NewCmd) (direct allocated : Bool) : CmdRun :=
  match s.apm.allocateCmdCtrlObj n cmd with
  | none => s
  | some apm =>
    let i := s.apm.freeSlot
    if cmd.cmdOpcode.isProxyGraphMgmt && !direct then
      { apm := apm
        accepted := s.accepted ++ [i]
        exempt := if s.apm.graphCloseCmdActive n then s.exempt else i :: s.exempt }
    else
      match apm.checkAndDeferCmdProcessing n conns i allocated with
      | (.busy, apm) => { s with apm := apm.endCmd n conns i }
      | (.reverted, apm) =>
        { apm := apm, accepted := s.accepted ++ [i], exempt := i :: s.exempt }
      | (_, apm) => { apm := apm, accepted := s.accepted ++ [i], exempt := s.exempt }

/-- The bailout of the handlers: the command ends right after its slot was allocated. -/
def arriveFailed (s : CmdRun) (op : CmdOpcode) : CmdRun :=
  match s.apm.allocateCmdCtrlObj n ⟨op, [], []⟩ with
  | none => s
  | some apm => { s with apm := apm.endCmd n conns s.apm.freeSlot }

/-- The sequencer ends an active command. -/
def finish (s : CmdRun) (i : ℕ) : CmdRun :=
  if s.Active i then
    { apm := s.apm.endCmd n conns i
      accepted := s.accepted.erase i
      exempt := s.exempt.filter (· ≠ i) }
  else s

end CmdRun

/-- One event. -/
def cmdStep (n : NumMaxParallelCmd) (conns : List SgConn) (s : CmdRun) : CmdCall → CmdRun
  | .arrive cmd direct allocated => s.arrive n conns cmd direct allocated
  | .arriveFailed op => s.arriveFailed n conns op
  | .finish i => s.finish n conns i

/-! ## The invariant -/

/-- The mask, the slots, the wait mask and the deferred list agree with the history. -/
structure Booked (n : NumMaxParallelCmd) (s : CmdRun) : Prop where
  lt : ∀ i ∈ s.accepted, i < n.val
  nodup : s.accepted.Nodup
  /-- The mask has the bits of the accepted commands. -/
  bit : ∀ i, s.apm.activeCmdMask.testBit i = true ↔ i ∈ s.accepted
  pending : ∀ i, (s.cmd i).cmdPending = true ↔ i ∈ s.accepted
  listIdx : ∀ i ∈ s.accepted, (s.cmd i).listIdx = i
  /-- The queue is off the wait mask when the list is full. -/
  listened : s.apm.cmdQListened = false ↔ s.apm.activeCmdMask = fullMask n
  /-- Deferred commands are accepted, and wait in the order of arrival. -/
  order : s.apm.deferredCmdList.Sublist s.accepted
  count : s.apm.numDeferred = s.apm.deferredCmdList.length
  /-- The ids of the commands are ids of sub-graphs. -/
  validIds : ∀ i ∈ s.accepted, (s.cmd i).ValidIds

variable {n : NumMaxParallelCmd} {conns : List SgConn}

lemma booked_init : Booked n CmdRun.init where
  lt := by simp [CmdRun.init]
  nodup := nodup_nil
  bit := by simp [CmdRun.init, ApmCmds.init]
  pending := by simp [CmdRun.init, CmdRun.cmd, ApmCmds.init, CmdCtrl.cleared]
  listIdx := by simp [CmdRun.init]
  listened := by
    have hpos : lowMask n.val ≠ 0 := by
      intro h
      have hbit := testBit_lowMask n.val 0
      rw [h, Nat.zero_testBit, eq_comm, decide_eq_false_iff_not] at hbit
      exact hbit n.property.1
    simpa [CmdRun.init, ApmCmds.init, fullMask] using hpos.symm
  order := List.Sublist.slnil
  count := rfl
  validIds := by simp [CmdRun.init]

namespace Booked

variable {s : CmdRun} (h : Booked n s)

include h

lemma mask_eq_fullMask : s.apm.activeCmdMask = fullMask n ↔ ∀ i < n.val, i ∈ s.accepted := by
  unfold fullMask
  rw [eq_lowMask_iff fun i hi => h.lt i ((h.bit i).mp hi)]
  simp only [h.bit]

lemma nodup_deferred : s.apm.deferredCmdList.Nodup :=
  h.nodup.sublist h.order

lemma multipleCmdsExecuting {i j : ℕ} (hi : i ∈ s.accepted) (hj : j ∈ s.accepted)
    (hij : i ≠ j) : multipleCmdsExecuting s.apm.activeCmdMask = true := by
  have hbits := (h.bit i).mpr hi
  have hbits' := (h.bit j).mpr hj
  unfold ApmCmds.multipleCmdsExecuting
  rw [Bool.and_eq_true, decide_eq_true_eq, decide_eq_true_eq]
  refine ⟨?_, fun hzero => hij (eq_of_testBit_of_and_sub_one hzero hbits hbits')⟩
  by_contra hle
  exact hij (eq_of_testBit_of_le_one (Nat.le_of_not_lt hle) hbits hbits')

lemma getNumAvailableCmd : s.apm.getNumAvailableCmd n = s.accepted.length := by
  have hperm : ((range n.val).filter fun i => (s.apm.cmdCtrlList i).cmdPending).Perm
      s.accepted := by
    rw [perm_ext_iff_of_nodup (nodup_range.filter _) h.nodup]
    intro i
    rw [mem_filter, mem_range]
    have hpending := h.pending i
    have hlt := h.lt i
    tauto
  exact hperm.length_eq

lemma numDeferred_eq_iff :
    s.apm.numDeferred = s.apm.getNumAvailableCmd n ↔ s.apm.AllDeferred n := by
  rw [h.count, h.getNumAvailableCmd]
  constructor
  · intro hlength i _ hpending
    rw [h.order.eq_of_length hlength]
    exact (h.pending i).mp hpending
  · intro hall
    apply Nat.le_antisymm h.order.length_le
    refine (subperm_of_subset h.nodup fun i hi => ?_).length_le
    exact hall i (h.lt i hi) ((h.pending i).mpr hi)

/-! ### A command is accepted -/

lemma freeSlot_spec (hfull : s.apm.activeCmdMask ≠ fullMask n) :
    s.apm.freeSlot < n.val ∧ s.apm.freeSlot ∉ s.accepted := by
  have hfree : ∃ i < n.val, i ∉ s.accepted := by
    by_contra hnone
    push Not at hnone
    exact hfull (h.mask_eq_fullMask.mpr hnone)
  obtain ⟨i, hi, hnot⟩ := hfree
  have hbit : s.apm.activeCmdMask.testBit i = false := by
    rw [← Bool.not_eq_true, h.bit]
    exact hnot
  have hle : s.apm.freeSlot ≤ i := trailingOnes_le_of_testBit hbit
  have hlt : s.apm.freeSlot < 32 := by
    omega
  refine ⟨by omega, ?_⟩
  rw [← h.bit, ApmCmds.freeSlot, testBit_trailingOnes hlt]
  exact Bool.false_ne_true

end Booked

/-- The run after a command was given a slot. -/
def CmdRun.accept (s : CmdRun) (apm : ApmCmds) (exempt : List ℕ) : CmdRun :=
  { apm := apm, accepted := s.accepted ++ [s.apm.freeSlot], exempt := exempt }

/-- The run after the command in a slot was removed. -/
def CmdRun.release (s : CmdRun) (i : ℕ) (exempt : List ℕ) : CmdRun :=
  { apm := s.apm.deallocateCmdCtrlObj i, accepted := s.accepted.erase i, exempt := exempt }

section Accept

variable {s : CmdRun} {cmd : NewCmd} {apm : ApmCmds} {exempt : List ℕ}

section

variable (halloc : s.apm.allocateCmdCtrlObj n cmd = some apm)
include halloc

lemma allocateCmdCtrlObj_eq_some : s.apm.activeCmdMask ≠ fullMask n ∧ apm.cmdCtrlList =
        Function.update s.apm.cmdCtrlList s.apm.freeSlot (cmd.toCtrl s.apm.freeSlot) ∧
      apm.activeCmdMask = s.apm.activeCmdMask ||| 2 ^ s.apm.freeSlot ∧
      apm.cmdQListened = (if apm.activeCmdMask = fullMask n then false else s.apm.cmdQListened) ∧
      apm.deferredCmdList = s.apm.deferredCmdList ∧ apm.numDeferred = s.apm.numDeferred ∧
      apm.closeAllDeferred = s.apm.closeAllDeferred := by
  unfold allocateCmdCtrlObj at halloc
  split at halloc
  · cases halloc
  · rename_i hfull
    cases halloc
    exact ⟨hfull, rfl, rfl, rfl, rfl, rfl, rfl⟩

lemma cmd_accept_self : (s.accept apm exempt).cmd s.apm.freeSlot = cmd.toCtrl s.apm.freeSlot := by
  obtain ⟨-, hslots, -⟩ := allocateCmdCtrlObj_eq_some halloc
  simp [CmdRun.cmd, CmdRun.accept, hslots]

lemma cmd_accept_of_ne {i : ℕ} (hi : i ≠ s.apm.freeSlot) :
    (s.accept apm exempt).cmd i = s.cmd i := by
  obtain ⟨-, hslots, -⟩ := allocateCmdCtrlObj_eq_some halloc
  simp [CmdRun.cmd, CmdRun.accept, hslots, hi]

end

section

variable (h : Booked n s) (halloc : s.apm.allocateCmdCtrlObj n cmd = some apm)
include h halloc

lemma Booked.freeSlot_of_alloc : s.apm.freeSlot < n.val ∧ s.apm.freeSlot ∉ s.accepted :=
  h.freeSlot_spec (allocateCmdCtrlObj_eq_some halloc).1

lemma Booked.accept (hvalid : (cmd.toCtrl s.apm.freeSlot).ValidIds) :
    Booked n (s.accept apm exempt) := by
  obtain ⟨hlt, hfresh⟩ := h.freeSlot_of_alloc halloc
  obtain ⟨hfull, -, hmask, hlistened, hdeferred, hnum, -⟩ := allocateCmdCtrlObj_eq_some halloc
  have hne : ∀ i ∈ s.accepted, i ≠ s.apm.freeSlot := by
    rintro i hi rfl
    exact hfresh hi
  have hmem : ∀ i, i ∈ (s.accept apm exempt).accepted ↔ i ∈ s.accepted ∨ i = s.apm.freeSlot := by
    simp [CmdRun.accept]
  refine
    { lt := ?_, nodup := ?_, bit := ?_, pending := ?_, listIdx := ?_, listened := ?_,
      order := ?_, count := ?_, validIds := ?_ }
  · intro i hi
    rcases (hmem i).mp hi with hi | rfl
    · exact h.lt i hi
    · exact hlt
  · exact nodup_append.mpr ⟨h.nodup, by simp, by simpa using hne⟩
  · intro i
    change apm.activeCmdMask.testBit i = true ↔ _
    rw [hmask, testBit_setBit, h.bit, hmem]
  · intro i
    rw [hmem]
    by_cases hi : i = s.apm.freeSlot
    · subst hi
      rw [cmd_accept_self halloc]
      simp [NewCmd.toCtrl]
    · rw [cmd_accept_of_ne halloc hi, h.pending]
      simp [hi]
  · intro i hi
    rcases (hmem i).mp hi with hi | rfl
    · rw [cmd_accept_of_ne halloc (hne i hi)]
      exact h.listIdx i hi
    · rw [cmd_accept_self halloc]
      rfl
  · change apm.cmdQListened = false ↔ apm.activeCmdMask = fullMask n
    rw [hlistened]
    split
    · rename_i heq
      exact iff_of_true rfl heq
    · rename_i hnot
      rw [h.listened]
      exact iff_of_false hfull hnot
  · change apm.deferredCmdList.Sublist _
    rw [hdeferred]
    exact h.order.trans (sublist_append_left _ _)
  · change apm.numDeferred = apm.deferredCmdList.length
    rw [hnum, hdeferred]
    exact h.count
  · intro i hi
    rcases (hmem i).mp hi with hi | rfl
    · rw [cmd_accept_of_ne halloc (hne i hi)]
      exact h.validIds i hi
    · rw [cmd_accept_self halloc]
      exact hvalid

end

end Accept

section Release

variable {s : CmdRun} {i : ℕ} {exempt : List ℕ}

lemma cmd_release_of_ne {j : ℕ} (hj : j ≠ i) : (s.release i exempt).cmd j = s.cmd j := by
  simp [CmdRun.cmd, CmdRun.release, deallocateCmdCtrlObj, setCmd, hj]

/-- An active command leaves a consistent list behind. -/
lemma Booked.release (h : Booked n s) (hi : s.Active i) : Booked n (s.release i exempt) := by
  have hmem : ∀ j, j ∈ (s.release i exempt).accepted ↔ j ∈ s.accepted ∧ j ≠ i := by
    intro j
    rw [and_comm]
    exact h.nodup.mem_erase_iff
  have hbit : ∀ j, (s.release i exempt).apm.activeCmdMask.testBit j = true ↔
      j ∈ s.accepted ∧ j ≠ i := by
    intro j
    change (Nat.ldiff s.apm.activeCmdMask (2 ^ (s.cmd i).listIdx)).testBit j = true ↔ _
    rw [testBit_clrBit, h.bit, h.listIdx i hi.1]
  refine
    { lt := ?_, nodup := ?_, bit := ?_, pending := ?_, listIdx := ?_, listened := ?_,
      order := ?_, count := ?_, validIds := ?_ }
  · intro j hj
    exact h.lt j ((hmem j).mp hj).1
  · exact h.nodup.erase i
  · intro j
    rw [hbit, hmem]
  · intro j
    rw [hmem]
    by_cases hj : j = i
    · subst hj
      simp [CmdRun.cmd, CmdRun.release, deallocateCmdCtrlObj, setCmd, CmdCtrl.cleared]
    · rw [cmd_release_of_ne hj, h.pending]
      simp [hj]
  · intro j hj
    obtain ⟨hacc, hne⟩ := (hmem j).mp hj
    rw [cmd_release_of_ne hne]
    exact h.listIdx j hacc
  · -- the bit of the command is free now, and the queue is back on the wait mask
    change true = false ↔ _
    refine iff_of_false (by decide) fun hfull => ?_
    have hown := (hbit i).mp (by
      rw [hfull, fullMask, testBit_lowMask]
      exact decide_eq_true (h.lt i hi.1))
    exact hown.2 rfl
  · have hsub := h.order.erase i
    rwa [erase_of_not_mem hi.2] at hsub
  · exact h.count
  · intro j hj
    obtain ⟨hacc, hne⟩ := (hmem j).mp hj
    rw [cmd_release_of_ne hne]
    exact h.validIds j hacc

end Release

section Deferred

variable {s : CmdRun} {i : ℕ}

lemma Booked.defer (h : Booked n s) {xs : List ℕ} (hlast : s.accepted = xs ++ [i])
    (hi : i ∉ s.apm.deferredCmdList) : Booked n { s with apm := s.apm.deferCmd i } := by
  have hsub : s.apm.deferredCmdList.Sublist xs := by
    have herase := h.order.erase i
    have hnot : i ∉ xs := by
      have hnodup := h.nodup
      rw [hlast, nodup_append] at hnodup
      intro hmem
      exact hnodup.2.2 i hmem i mem_cons_self rfl
    rw [erase_of_not_mem hi, hlast, erase_append_right _ hnot,
      erase_cons_head, append_nil] at herase
    exact herase
  refine { h with order := ?_, count := ?_ }
  · rw [hlast]
    exact hsub.append_right [i]
  · change s.apm.numDeferred + 1 = (s.apm.deferredCmdList ++ [i]).length
    rw [h.count, length_append, length_singleton]

lemma Booked.resume (h : Booked n s) (hi : i ∈ s.apm.deferredCmdList) :
    Booked n { s with apm := s.apm.resumeDeferredCmdProc i } := by
  refine { h with order := ?_, count := ?_ }
  · exact (erase_sublist).trans h.order
  · change s.apm.numDeferred - 1 = (s.apm.deferredCmdList.erase i).length
    rw [h.count, length_erase_of_mem hi]

lemma revertDeferral_deferCmd {s : ApmCmds} (hi : i ∉ s.deferredCmdList)
    (hop : (s.cmdCtrlList i).cmdOpcode ≠ .closeAll) : (s.deferCmd i).revertDeferral i = s := by
  simp [ApmCmds.deferCmd, ApmCmds.revertDeferral, hop, erase_append_right _ hi]

lemma deallocateCmdCtrlObj_noteBusy {s : ApmCmds} {check : AcrossCheck} :
    (s.noteBusy i check).deallocateCmdCtrlObj i = s.deallocateCmdCtrlObj i := by
  unfold ApmCmds.noteBusy
  split
  · simp [ApmCmds.deallocateCmdCtrlObj, ApmCmds.setCmd]
  · rfl

end Deferred

/-! ## What an event does -/

/-- How a command that was given a slot goes on. -/
inductive Arrived (n : NumMaxParallelCmd) (conns : List SgConn) (s : CmdRun) (cmd : NewCmd)
    (direct allocated : Bool) (apm : ApmCmds) : CmdRun → Prop
  /-- It runs: it is no graph-management command, it is alone, or nothing blocks it. -/
  | active (h : cmd.cmdOpcode.isGraphMgmt = false ∨ s.accepted = [] ∨
      ¬ Blocked n conns apm.cmdCtrlList s.apm.freeSlot) :
      Arrived n conns s cmd direct allocated apm (s.accept apm s.exempt)
  /-- It should wait, but no list node was to be had. -/
  | failed (h : allocated = false) :
      Arrived n conns s cmd direct allocated apm (s.accept apm s.exempt)
  /-- A proxy command that runs in any case, as there is no close in parallel. -/
  | exempt (h : cmd.cmdOpcode.isProxyGraphMgmt = true) :
      Arrived n conns s cmd direct allocated apm (s.accept apm (s.apm.freeSlot :: s.exempt))
  /-- A proxy command that is not direct is not checked. -/
  | unchecked (hproxy : cmd.cmdOpcode.isProxyGraphMgmt = true) (hdirect : direct = false)
      (hclose : s.apm.graphCloseCmdActive n = true) :
      Arrived n conns s cmd direct allocated apm (s.accept apm s.exempt)
  /-- It waits. -/
  | deferred (h : cmd.cmdOpcode.isGraphMgmt = true) : Arrived n conns s cmd direct allocated apm
        { s.accept apm s.exempt with apm := apm.deferCmd s.apm.freeSlot }

section

variable {s s' : CmdRun} {cmd : NewCmd} {direct allocated : Bool} {apm : ApmCmds}

section

variable (h : Arrived n conns s cmd direct allocated apm s')
include h

lemma Arrived.accepted : s'.accepted = s.accepted ++ [s.apm.freeSlot] := by
  cases h with
  | active _ | failed _ | exempt _ | unchecked _ _ _ | deferred _ => rfl

lemma Arrived.mem_exempt : ∀ j ∈ s.exempt, j ∈ s'.exempt := by
  cases h with
  | active _ | failed _ | unchecked _ _ _ | deferred _ => exact fun _ hj => hj
  | exempt _ => exact fun _ hj => mem_cons_of_mem _ hj

lemma Arrived.cmd_eq (j : ℕ) : s'.cmd j = (s.accept apm s.exempt).cmd j := by
  cases h with
  | active _ | failed _ | exempt _ | unchecked _ _ _ | deferred _ => rfl

end

section

variable {j : ℕ} (h : Arrived n conns s cmd direct allocated apm s')
  (halloc : s.apm.allocateCmdCtrlObj n cmd = some apm)
include h halloc

lemma Arrived.cmd_self : s'.cmd s.apm.freeSlot = cmd.toCtrl s.apm.freeSlot := by
  rw [h.cmd_eq, cmd_accept_self halloc]

lemma Arrived.cmd_of_ne (hj : j ≠ s.apm.freeSlot) : s'.cmd j = s.cmd j := by
  rw [h.cmd_eq, cmd_accept_of_ne halloc hj]

lemma Arrived.mem_deferred (hj : j ∈ s.apm.deferredCmdList) : j ∈ s'.apm.deferredCmdList := by
  obtain ⟨-, -, -, -, hdeferred, -⟩ := allocateCmdCtrlObj_eq_some halloc
  rw [← hdeferred] at hj
  cases h with
  | active _ | failed _ | exempt _ | unchecked _ _ _ => exact hj
  | deferred _ => exact mem_append_left _ hj

end

end

lemma checkAndDeferCmdProcessing_eq {s : ApmCmds} {i : ℕ} {allocated : Bool}
    (hgm : (s.cmdCtrlList i).cmdOpcode.isGraphMgmt = true)
    (hmultiple : multipleCmdsExecuting s.activeCmdMask = true)
    (hall : (s.cmdCtrlList i).cmdOpcode ≠ .closeAll) :
    s.checkAndDeferCmdProcessing n conns i allocated =
      if (s.checkAcross n conns i).result = .ebusy then
        (.busy, s.noteBusy i (s.checkAcross n conns i))
      else if (s.checkAcross n conns i).result ≠ .eok then (.failed, s)
      else if (s.checkAcross n conns i).overlap then
        if !allocated then (.failed, s)
        else if (s.cmdCtrlList i).cmdOpcode.isProxyGraphMgmt && !s.graphCloseCmdActive n then
          (.reverted, (s.deferCmd i).revertDeferral i)
        else (.deferred, s.deferCmd i)
      else (.active, s) := by
  simp [checkAndDeferCmdProcessing, hgm, hmultiple, hall, deferCloseAllCmd]

/-- `CLOSE_ALL` waits for anything else. -/
lemma checkAndDeferCmdProcessing_closeAll {s : ApmCmds} {i : ℕ} {allocated : Bool}
    (hmultiple : multipleCmdsExecuting s.activeCmdMask = true)
    (hall : (s.cmdCtrlList i).cmdOpcode = .closeAll) :
    s.checkAndDeferCmdProcessing n conns i allocated =
      if !allocated then (.failed, s) else (.deferred, s.deferCmd i) := by
  have hmask : s.activeCmdMask ≠ 0 := by
    intro hzero
    rw [hzero] at hmultiple
    cases hmultiple
  simp [checkAndDeferCmdProcessing, hmultiple, hall, deferCloseAllCmd, hmask,
    CmdOpcode.isGraphMgmt, CmdOpcode.isProxyGraphMgmt]

lemma checkAndDeferCmdProcessing_skip {s : ApmCmds} {i : ℕ} {allocated : Bool}
    (h : (s.cmdCtrlList i).cmdOpcode.isGraphMgmt = false ∨
      multipleCmdsExecuting s.activeCmdMask = false) :
    s.checkAndDeferCmdProcessing n conns i allocated = (.active, s) := by
  rcases h with h | h
  · simp [checkAndDeferCmdProcessing, h]
  · simp [checkAndDeferCmdProcessing, h]

section

variable {s : CmdRun} {cmd : NewCmd} {apm : ApmCmds} {direct allocated : Bool}
  (hpeers : ∀ a b, Adjacent conns a b → b ≠ 0)

include hpeers

/-- Each way through the handlers is one of these, or a proxy command is given up at once. -/
lemma arrived_of_alloc (h : Booked n s) (halloc : s.apm.allocateCmdCtrlObj n cmd = some apm)
    (hvalid : (cmd.toCtrl s.apm.freeSlot).ValidIds) :
    Arrived n conns s cmd direct allocated apm (s.arrive n conns cmd direct allocated) ∨
      (direct = true ∧ BusyAt n conns apm.cmdCtrlList s.apm.freeSlot ∧
        s.arrive n conns cmd direct allocated =
          { s with apm := apm.endCmd n conns s.apm.freeSlot }) := by
  obtain ⟨hlt, hfresh⟩ := h.freeSlot_of_alloc halloc
  obtain ⟨-, hslots, -, -, hdeferred, -⟩ := allocateCmdCtrlObj_eq_some halloc
  have hbooked : Booked n (s.accept apm s.exempt) := h.accept halloc hvalid
  have hown : apm.cmdCtrlList s.apm.freeSlot = cmd.toCtrl s.apm.freeSlot := by
    rw [hslots, Function.update_self]
  have hnotDeferred : s.apm.freeSlot ∉ apm.deferredCmdList := by
    rw [hdeferred]
    exact fun hmem => hfresh (h.order.subset hmem)
  have hcurr : (apm.cmdCtrlList s.apm.freeSlot).ValidIds := hown ▸ hvalid
  have hmem : s.apm.freeSlot ∈ (s.accept apm s.exempt).accepted :=
    mem_append_right _ mem_cons_self
  unfold CmdRun.arrive
  rw [halloc]
  by_cases hindirect : (cmd.cmdOpcode.isProxyGraphMgmt && !direct) = true
  · simp only [hindirect, if_true]
    rw [Bool.and_eq_true, Bool.not_eq_true'] at hindirect
    split
    · rename_i hclose
      exact Or.inl (.unchecked hindirect.1 hindirect.2 hclose)
    · exact Or.inl (.exempt hindirect.1)
  simp only [hindirect, Bool.false_eq_true, if_false]
  have hop : (apm.cmdCtrlList s.apm.freeSlot).cmdOpcode = cmd.cmdOpcode := by
    rw [hown]
    rfl
  cases hgm : cmd.cmdOpcode.isGraphMgmt with
  | false =>
    rw [checkAndDeferCmdProcessing_skip (Or.inl (hop ▸ hgm))]
    exact Or.inl (.active (Or.inl hgm))
  | true =>
  cases hmultiple : multipleCmdsExecuting apm.activeCmdMask with
  | false =>
    have halone : s.accepted = [] := by
      by_contra hne
      obtain ⟨j, hj⟩ := exists_mem_of_ne_nil _ hne
      have htwo := hbooked.multipleCmdsExecuting hmem
        (mem_append_left _ hj : j ∈ (s.accept apm s.exempt).accepted) (by
          rintro rfl
          exact hfresh hj)
      exact Bool.false_ne_true (hmultiple.symm.trans htwo)
    rw [checkAndDeferCmdProcessing_skip (Or.inr hmultiple)]
    exact Or.inl (.active (Or.inr (Or.inl halone)))
  | true =>
  by_cases hall : cmd.cmdOpcode = .closeAll
  · rw [checkAndDeferCmdProcessing_closeAll hmultiple (hop.trans hall)]
    cases allocated with
    | false => exact Or.inl (.failed rfl)
    | true => exact Or.inl (.deferred hgm)
  rw [checkAndDeferCmdProcessing_eq (hop ▸ hgm) hmultiple (hop ▸ hall)]
  by_cases hbusy : BusyAt n conns apm.cmdCtrlList s.apm.freeSlot
  · obtain ⟨hresult, -⟩ := checkAcross_of_busyAt hpeers hcurr hbusy
    rw [if_pos hresult]
    simp only [endCmd, deallocateCmdCtrlObj_noteBusy]
    have hproxy : cmd.cmdOpcode.isProxyGraphMgmt = true := hop ▸ hbusy.1
    exact Or.inr ⟨by simpa [hproxy] using hindirect, hbusy, trivial⟩
  obtain ⟨hresult, -, hoverlap⟩ := checkAcross_of_not_busyAt hpeers hcurr hbusy
  rw [if_neg (by simp [hresult]), if_neg (by simp [hresult])]
  cases hover : (apm.checkAcross n conns s.apm.freeSlot).overlap with
  | false =>
    refine Or.inl (.active (Or.inr (Or.inr ?_)))
    rw [← hoverlap, hover]
    exact Bool.false_ne_true
  | true =>
    cases allocated with
    | false => exact Or.inl (.failed rfl)
    | true =>
      by_cases hrevert : (cmd.cmdOpcode.isProxyGraphMgmt && !apm.graphCloseCmdActive n) = true
      · simp only [hop, hrevert, Bool.not_true, Bool.false_eq_true, if_true, if_false,
          revertDeferral_deferCmd hnotDeferred (hop ▸ hall)]
        rw [Bool.and_eq_true] at hrevert
        exact Or.inl (.exempt hrevert.1)
      · simp only [hop, hrevert, Bool.not_true, Bool.false_eq_true, if_true, if_false]
        exact Or.inl (.deferred hgm)

end

/-! ## The end of a command -/

/-- The state in which an event goes through the deferred commands: an active command was
removed, or one that had just arrived. -/
def Reevaluates (n : NumMaxParallelCmd) (conns : List SgConn) (s : CmdRun) :
    CmdCall → ApmCmds → Prop
  | .arrive cmd direct _, r => ∃ apm, s.apm.allocateCmdCtrlObj n cmd = some apm ∧
      direct = true ∧ BusyAt n conns apm.cmdCtrlList s.apm.freeSlot ∧
      r = apm.deallocateCmdCtrlObj s.apm.freeSlot
  | .arriveFailed op, r => ∃ apm, s.apm.allocateCmdCtrlObj n ⟨op, [], []⟩ = some apm ∧
      r = apm.deallocateCmdCtrlObj s.apm.freeSlot
  | .finish i, r => s.Active i ∧ r = s.apm.deallocateCmdCtrlObj i

lemma not_reevaluates_arrive {s : CmdRun} {cmd : NewCmd} {direct allocated : Bool} {r : ApmCmds}
    (h : cmd.cmdOpcode.isProxyGraphMgmt = false) :
    ¬ Reevaluates n conns s (.arrive cmd direct allocated) r := by
  rintro ⟨apm, halloc, -, hbusy, -⟩
  have hproxy := hbusy.1
  rw [(allocateCmdCtrlObj_eq_some halloc).2.1, Function.update_self] at hproxy
  change cmd.cmdOpcode.isProxyGraphMgmt = true at hproxy
  rw [h] at hproxy
  cases hproxy

/-- The run `r` has some of the commands of `s`. -/
structure Fewer (r s : CmdRun) : Prop where
  /-- Its commands are commands of `s`. -/
  accepted : ∀ j ∈ r.accepted, j ∈ s.accepted
  cmd : ∀ j ∈ r.accepted, r.cmd j = s.cmd j
  /-- The deferred commands are those of `s`. -/
  deferred : r.apm.deferredCmdList = s.apm.deferredCmdList
  /-- So is the flag of `CLOSE_ALL`. -/
  closeAllDeferred : r.apm.closeAllDeferred = s.apm.closeAllDeferred
  exempt : ∀ j ∈ r.accepted, j ∈ s.exempt → j ∈ r.exempt

/-- The run after the deferred commands were gone through. -/
def CmdRun.reevaluated (n : NumMaxParallelCmd) (conns : List SgConn) (r : CmdRun) : CmdRun :=
  { r with apm := r.apm.checkDefCmdIsReadyToProcess n conns }

/-- What an event does. -/
inductive Stepped (n : NumMaxParallelCmd) (conns : List SgConn) (s : CmdRun) :
    CmdCall → CmdRun → Prop
  /-- Nothing: the list is full, or the command to end is not active. -/
  | refused (call : CmdCall) : Stepped n conns s call s
  /-- A command is accepted. -/
  | arrived {cmd : NewCmd} {direct allocated : Bool} {apm : ApmCmds} {s' : CmdRun}
      (halloc : s.apm.allocateCmdCtrlObj n cmd = some apm)
      (h : Arrived n conns s cmd direct allocated apm s') :
      Stepped n conns s (.arrive cmd direct allocated) s'
  /-- A command ends. -/
  | ended {call : CmdCall} {r : CmdRun} (hfewer : Fewer r s) (hbooked : Booked n r)
      (hreevaluates : Reevaluates n conns s call r.apm) :
      Stepped n conns s call (r.reevaluated n conns)

/-- The ids that come with a command are ids of sub-graphs. -/
def ArrivesValid : CmdCall → Prop
  | .arrive cmd _ _ => ∀ a, a ∈ cmd.cmdSgIdList ∨ a ∈ cmd.contPortHdlSgList → a ≠ 0
  | .arriveFailed _ => True
  | .finish _ => True

lemma fewer_release {s : CmdRun} {i : ℕ} (h : Booked n s) :
    Fewer (s.release i (s.exempt.filter (· ≠ i))) s where
  accepted := fun _ hj => mem_of_mem_erase hj
  cmd := fun _ hj => cmd_release_of_ne (h.nodup.mem_erase_iff.mp hj).1
  deferred := rfl
  closeAllDeferred := rfl
  exempt := fun _ hj hex =>
    mem_filter.mpr ⟨hex, decide_eq_true (h.nodup.mem_erase_iff.mp hj).1⟩

/-- A command that ends as soon as it was accepted leaves the others alone. -/
lemma Booked.accept_release {s : CmdRun} {cmd : NewCmd} {apm : ApmCmds} (h : Booked n s)
    (halloc : s.apm.allocateCmdCtrlObj n cmd = some apm)
    (hvalid : (cmd.toCtrl s.apm.freeSlot).ValidIds) :
    Booked n { s with apm := apm.deallocateCmdCtrlObj s.apm.freeSlot } ∧
      Fewer { s with apm := apm.deallocateCmdCtrlObj s.apm.freeSlot } s := by
  obtain ⟨-, hfresh⟩ := h.freeSlot_of_alloc halloc
  obtain ⟨-, -, -, -, hdeferred, -, hflag⟩ := allocateCmdCtrlObj_eq_some halloc
  have hactive : (s.accept apm s.exempt).Active s.apm.freeSlot := by
    refine ⟨mem_append_right _ mem_cons_self, fun hmem => ?_⟩
    rw [CmdRun.accept, hdeferred] at hmem
    exact hfresh (h.order.subset hmem)
  have heq : ({ s with apm := apm.deallocateCmdCtrlObj s.apm.freeSlot } : CmdRun) =
      (s.accept apm s.exempt).release s.apm.freeSlot s.exempt := by
    simp [CmdRun.accept, CmdRun.release, erase_append_right _ hfresh]
  refine ⟨?_, ?_⟩
  · rw [heq]
    exact (h.accept halloc hvalid).release hactive
  · refine ⟨fun j hj => hj, fun j hj => ?_, hdeferred, hflag, fun j _ hex => hex⟩
    have hne : j ≠ s.apm.freeSlot := by
      rintro rfl
      exact hfresh hj
    rw [heq, cmd_release_of_ne hne, cmd_accept_of_ne halloc hne]

/-- Every event is one of these. -/
lemma stepped_cmdStep (hpeers : ∀ a b, Adjacent conns a b → b ≠ 0) {s : CmdRun} {call : CmdCall}
    (h : Booked n s) (hvalid : ArrivesValid call) :
    Stepped n conns s call (cmdStep n conns s call) := by
  cases call with
  | arrive cmd direct allocated =>
    change Stepped n conns s _ (s.arrive n conns cmd direct allocated)
    cases halloc : s.apm.allocateCmdCtrlObj n cmd with
    | none =>
      have hrefused : s.arrive n conns cmd direct allocated = s := by
        simp [CmdRun.arrive, halloc]
      rw [hrefused]
      exact .refused _
    | some apm =>
      have hcases : Arrived n conns s cmd direct allocated apm _ ∨ _ :=
        arrived_of_alloc hpeers h halloc hvalid
      rcases hcases with harrived | ⟨hdirect, hbusy, heq⟩
      · exact .arrived halloc harrived
      · obtain ⟨hbooked, hfewer⟩ := h.accept_release halloc hvalid
        rw [heq]
        exact .ended hfewer hbooked ⟨apm, halloc, hdirect, hbusy, rfl⟩
  | arriveFailed op =>
    change Stepped n conns s _ (s.arriveFailed n conns op)
    cases halloc : s.apm.allocateCmdCtrlObj n ⟨op, [], []⟩ with
    | none =>
      have hrefused : s.arriveFailed n conns op = s := by
        simp [CmdRun.arriveFailed, halloc]
      rw [hrefused]
      exact .refused _
    | some apm =>
      have hempty : (NewCmd.toCtrl ⟨op, [], []⟩ s.apm.freeSlot).ValidIds := by
        intro a ha
        simp [CmdCtrl.Touches, NewCmd.toCtrl] at ha
      obtain ⟨hbooked, hfewer⟩ := h.accept_release halloc hempty
      have heq : s.arriveFailed n conns op =
          { s with apm := apm.endCmd n conns s.apm.freeSlot } := by
        simp [CmdRun.arriveFailed, halloc]
      rw [heq]
      exact .ended hfewer hbooked ⟨apm, halloc, rfl⟩
  | finish i =>
    change Stepped n conns s _ (s.finish n conns i)
    by_cases hactive : s.Active i
    · have heq : s.finish n conns i =
          (s.release i (s.exempt.filter (· ≠ i))).reevaluated n conns := by
        simp only [CmdRun.finish, hactive, if_true]
        rfl
      rw [heq]
      exact .ended (fewer_release h) (h.release hactive) ⟨hactive, rfl⟩
    · have heq : s.finish n conns i = s := by
        simp [CmdRun.finish, hactive]
      rw [heq]
      exact .refused _

/-! ## Runs keep the books -/

/-- Each event that goes through the deferred commands finds none of them busy. -/
def NoneBusyIn (n : NumMaxParallelCmd) (conns : List SgConn) (s : CmdRun) (call : CmdCall) : Prop :=
  ∀ r, Reevaluates n conns s call r → r.NoneBusy n conns

lemma Booked.arrived {s s' : CmdRun} {cmd : NewCmd} {direct allocated : Bool} {apm : ApmCmds}
    (h : Booked n s) (halloc : s.apm.allocateCmdCtrlObj n cmd = some apm)
    (hvalid : (cmd.toCtrl s.apm.freeSlot).ValidIds)
    (harrived : Arrived n conns s cmd direct allocated apm s') : Booked n s' := by
  cases harrived with
  | active _ | failed _ | exempt _ | unchecked _ _ _ => exact h.accept halloc hvalid
  | deferred _ =>
    have hbooked : Booked n (s.accept apm s.exempt) := h.accept halloc hvalid
    have hlast : (s.accept apm s.exempt).accepted = s.accepted ++ [s.apm.freeSlot] := rfl
    refine hbooked.defer hlast fun hmem => ?_
    obtain ⟨-, -, -, -, hdeferred, -⟩ := allocateCmdCtrlObj_eq_some halloc
    rw [CmdRun.accept, hdeferred] at hmem
    exact (h.freeSlot_of_alloc halloc).2 (h.order.subset hmem)

section

variable {r : CmdRun} (hpeers : ∀ a b, Adjacent conns a b → b ≠ 0)
include hpeers

lemma Booked.reevaluated_cases (h : Booked n r) (hbusy : r.apm.NoneBusy n conns) :
    r.reevaluated n conns = r ∨
    ∃ pre i post, r.apm.deferredCmdList = pre ++ i :: post ∧
      r.reevaluated n conns = { r with apm := r.apm.resumeDeferredCmdProc i } ∧
      ((r.apm.AllDeferred n ∧ pre = []) ∨
        (¬ r.apm.AllDeferred n ∧ (∀ j ∈ pre, Blocked n conns r.apm.cmdCtrlList j) ∧
          ¬ Blocked n conns r.apm.cmdCtrlList i)) := by
  have hids : ∀ i ∈ r.apm.deferredCmdList, (r.apm.cmdCtrlList i).ValidIds :=
    fun i hi => h.validIds i (h.order.subset hi)
  unfold CmdRun.reevaluated
  rcases checkDefCmdIsReadyToProcess_cases hpeers hids h.count h.numDeferred_eq_iff hbusy with
    ⟨-, heq⟩ | ⟨-, -, heq⟩ | ⟨pre, i, post, hlist, heq, hwhich⟩
  · exact Or.inl (by rw [heq])
  · exact Or.inl (by rw [heq])
  · exact Or.inr ⟨pre, i, post, hlist, by rw [heq], hwhich⟩

lemma Booked.reevaluated (h : Booked n r) (hbusy : r.apm.NoneBusy n conns) :
    Booked n (r.reevaluated n conns) := by
  rcases h.reevaluated_cases hpeers hbusy with heq | ⟨pre, i, post, hlist, heq, -⟩
  · rw [heq]
    exact h
  · rw [heq]
    refine h.resume ?_
    rw [hlist]
    exact mem_append_right _ mem_cons_self

lemma Booked.cmdStep {s : CmdRun} {call : CmdCall} (h : Booked n s) (hvalid : ArrivesValid call)
    (hbusy : NoneBusyIn n conns s call) : Booked n (cmdStep n conns s call) := by
  have hstepped := stepped_cmdStep hpeers h hvalid
  generalize AudioReach.cmdStep n conns s call = s' at hstepped
  cases hstepped with
  | refused => exact h
  | arrived halloc harrived => exact h.arrived halloc hvalid harrived
  | ended hfewer hbooked hreevaluates =>
    exact hbooked.reevaluated hpeers (hbusy _ hreevaluates)

end

end AudioReach
