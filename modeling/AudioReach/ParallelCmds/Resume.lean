import AudioReach.ParallelCmds.Overlap
import AudioReach.Library.FirstMatch

/-!
# Which deferred command is resumed

When a command ends, the APM goes through the deferred commands in order and resumes the
first that no pending command blocks.  The check of one command against all pending ones has
two more ways out: `CLOSE_ALL` is blocked by anything, and a proxy command that comes across
a pending `CLOSE_ALL` is given up as busy.  This file says what these loops do:
`checkAcross_of_not_busyAt` for one command, `checkDefCmdIsReadyToProcess_cases` for the
whole list.
-/

namespace AudioReach

open CmdCtrl AudioReach.Library
open List

namespace ApmCmds

variable (n : NumMaxParallelCmd) (conns : List SgConn)

/-- Another command that is pending. -/
def Other (slots : ℕ → CmdCtrl) (curr i : ℕ) : Prop :=
  (slots i).cmdPending = true ∧ i ≠ curr

/-- The pending command `i` keeps `curr` from running. -/
def BlockedBy (slots : ℕ → CmdCtrl) (curr i : ℕ) : Prop :=
  Other slots curr i ∧ ((slots curr).cmdOpcode = .closeAll ∨ (slots curr).Sees conns (slots i))

/-- Some pending command keeps `curr` from running. -/
def Blocked (slots : ℕ → CmdCtrl) (curr : ℕ) : Prop :=
  ∃ i < n.val, BlockedBy conns slots curr i

/-- A proxy command that comes across a pending `CLOSE_ALL` in the slots `lo` to `hi` before
it comes across a command that it overlaps with. -/
def BusyBetween (slots : ℕ → CmdCtrl) (curr lo hi : ℕ) : Prop :=
  (slots curr).cmdOpcode.isProxyGraphMgmt = true ∧
    ∃ i, lo ≤ i ∧ i < hi ∧ Other slots curr i ∧ (slots i).cmdOpcode = .closeAll ∧
      ∀ j, lo ≤ j → j < i → Other slots curr j → ¬ (slots curr).Sees conns (slots j)

/-- The command is given up as busy. -/
def BusyAt (slots : ℕ → CmdCtrl) (curr : ℕ) : Prop :=
  BusyBetween conns slots curr 0 n.val

/-- Every pending command is deferred. -/
def AllDeferred (s : ApmCmds) : Prop :=
  ∀ i < n.val, (s.cmdCtrlList i).cmdPending = true → i ∈ s.deferredCmdList

instance (s : ApmCmds) : Decidable (s.AllDeferred n) :=
  inferInstanceAs (Decidable (∀ i < n.val, _))

/-- No deferred command is given up as busy when the commands are gone through. -/
def NoneBusy (s : ApmCmds) : Prop :=
  s.AllDeferred n ∨ ∀ pre i post, s.deferredCmdList = pre ++ i :: post →
    (∀ j ∈ pre, Blocked n conns s.cmdCtrlList j) → ¬ BusyAt n conns s.cmdCtrlList i

/-! ## One command against the pending ones -/

variable {n conns}

section

variable {slots : ℕ → CmdCtrl} {curr : ℕ}

lemma busyBetween_succ {lo hi : ℕ}
    (hcloseAll : Other slots curr lo → (slots lo).cmdOpcode = .closeAll →
      (slots curr).cmdOpcode.isProxyGraphMgmt = false)
    (hsees : Other slots curr lo → ¬ (slots curr).Sees conns (slots lo)) :
    BusyBetween conns slots curr lo hi ↔ BusyBetween conns slots curr (lo + 1) hi := by
  constructor
  · rintro ⟨hproxy, i, hlo, hhi, hother, hop, hbefore⟩
    have hne : lo ≠ i := by
      rintro rfl
      rw [hcloseAll hother hop] at hproxy
      cases hproxy
    exact ⟨hproxy, i, by omega, hhi, hother, hop, fun j hj => hbefore j (by omega)⟩
  · rintro ⟨hproxy, i, hlo, hhi, hother, hop, hbefore⟩
    refine ⟨hproxy, i, by omega, hhi, hother, hop, fun j hj hji => ?_⟩
    by_cases hjlo : j = lo
    · exact hjlo ▸ hsees
    · exact hbefore j (by omega) hji

lemma exists_blockedBy_succ {lo hi : ℕ} (hlo : ¬ BlockedBy conns slots curr lo) :
    (∃ i, lo ≤ i ∧ i < hi ∧ BlockedBy conns slots curr i) ↔
      ∃ i, lo + 1 ≤ i ∧ i < hi ∧ BlockedBy conns slots curr i := by
  constructor
  · rintro ⟨i, hle, hlt, hblocked⟩
    have hne : lo ≠ i := by
      rintro rfl
      exact hlo hblocked
    exact ⟨i, by omega, hlt, hblocked⟩
  · rintro ⟨i, hle, hlt, hblocked⟩
    exact ⟨i, by omega, hlt, hblocked⟩

/-- What the loop over the slots finds, from a slot on and as long as nothing was found. -/
lemma acrossLoop_spec (hvalid : ∀ a b, Adjacent conns a b → b ≠ 0)
    (hcurr : (slots curr).ValidIds) (lo m : ℕ) :
    (BusyBetween conns slots curr lo (lo + m) →
      (acrossLoop conns slots curr (range' lo m) ⟨.eok, false, false⟩).result = .ebusy ∧
      (acrossLoop conns slots curr (range' lo m) ⟨.eok, false, false⟩).busy = true) ∧
    (¬ BusyBetween conns slots curr lo (lo + m) →
      (acrossLoop conns slots curr (range' lo m) ⟨.eok, false, false⟩).result = .eok ∧
      (acrossLoop conns slots curr (range' lo m) ⟨.eok, false, false⟩).busy = false ∧
      ((acrossLoop conns slots curr (range' lo m) ⟨.eok, false, false⟩).overlap = true ↔
        ∃ i, lo ≤ i ∧ i < lo + m ∧ BlockedBy conns slots curr i)) := by
  induction m generalizing lo with
  | zero =>
    constructor
    · rintro ⟨_, i, hlo, hhi, _⟩
      omega
    · intro _
      refine ⟨rfl, rfl, iff_of_false Bool.false_ne_true ?_⟩
      rintro ⟨i, hlo, hhi, _⟩
      omega
  | succ m ih =>
    have hrest := ih (lo + 1)
    rw [Nat.add_right_comm, Nat.add_assoc] at hrest
    rw [range'_succ]
    by_cases hother : Other slots curr lo
    · have hguard : ((slots lo).cmdPending && decide (lo ≠ curr)) = true := by
        simp [hother.1, hother.2]
      by_cases hall : (slots curr).cmdOpcode = .closeAll
      · -- anything pending blocks `CLOSE_ALL`
        have hloop : acrossLoop conns slots curr (lo :: range' (lo + 1) m)
            ⟨.eok, false, false⟩ = ⟨.eok, true, false⟩ := by
          rw [acrossLoop, if_pos hguard, if_pos hall]
        have hbusy : ¬ BusyBetween conns slots curr lo (lo + (m + 1)) := by
          rintro ⟨hproxy, -⟩
          rw [hall] at hproxy
          cases hproxy
        rw [hloop]
        refine ⟨fun h => absurd h hbusy, fun _ => ⟨rfl, rfl, iff_of_true rfl ?_⟩⟩
        exact ⟨lo, Nat.le_refl _, by omega, hother, Or.inl hall⟩
      obtain ⟨hresult, hfound⟩ := checkSgListOverlap_spec hvalid hcurr
      by_cases hbusyHere : ((slots curr).cmdOpcode.isProxyGraphMgmt &&
          decide ((slots lo).cmdOpcode = .closeAll)) = true
      · have hloop : acrossLoop conns slots curr (lo :: range' (lo + 1) m) ⟨.eok, false, false⟩ =
            ⟨.ebusy, (checkSgListOverlap conns (slots curr) (slots lo)).2, true⟩ := by
          rw [acrossLoop, if_pos hguard, if_neg hall, if_pos hbusyHere]
        rw [Bool.and_eq_true, decide_eq_true_eq] at hbusyHere
        have hbusy : BusyBetween conns slots curr lo (lo + (m + 1)) :=
          ⟨hbusyHere.1, lo, Nat.le_refl _, by omega, hother, hbusyHere.2,
            fun j hj hlt => absurd hlt (by omega)⟩
        rw [hloop]
        exact ⟨fun _ => ⟨rfl, rfl⟩, fun h => absurd hbusy h⟩
      have hcloseAll : Other slots curr lo → (slots lo).cmdOpcode = .closeAll →
          (slots curr).cmdOpcode.isProxyGraphMgmt = false := by
        intro _ hop
        simpa [hop] using hbusyHere
      by_cases hsees : (slots curr).Sees conns (slots lo)
      · have hloop : acrossLoop conns slots curr (lo :: range' (lo + 1) m)
            ⟨.eok, false, false⟩ = ⟨.eok, true, false⟩ := by
          rw [acrossLoop, if_pos hguard, if_neg hall, if_neg hbusyHere,
            if_pos (hfound.mpr hsees), hresult]
        have hbusy : ¬ BusyBetween conns slots curr lo (lo + (m + 1)) := by
          rintro ⟨hproxy, i, hlo, _, _, hop, hbefore⟩
          by_cases hi : lo = i
          · subst hi
            rw [hcloseAll hother hop] at hproxy
            cases hproxy
          · exact hbefore lo (Nat.le_refl _) (by omega) hother hsees
        rw [hloop]
        refine ⟨fun h => absurd h hbusy, fun _ => ⟨rfl, rfl, iff_of_true rfl ?_⟩⟩
        exact ⟨lo, Nat.le_refl _, by omega, hother, Or.inr hsees⟩
      · have hnot : (checkSgListOverlap conns (slots curr) (slots lo)).2 = false := by
          rw [← Bool.not_eq_true, hfound]
          exact hsees
        have hloop : acrossLoop conns slots curr (lo :: range' (lo + 1) m) ⟨.eok, false, false⟩ =
            acrossLoop conns slots curr (range' (lo + 1) m) ⟨.eok, false, false⟩ := by
          rw [acrossLoop, if_pos hguard, if_neg hall, if_neg hbusyHere, hnot, hresult]
          rfl
        rw [hloop, busyBetween_succ hcloseAll (fun _ => hsees),
          exists_blockedBy_succ (fun h => h.2.elim hall hsees)]
        exact hrest
    · have hguard : ¬ ((slots lo).cmdPending && decide (lo ≠ curr)) = true := by
        rw [Bool.and_eq_true, decide_eq_true_eq]
        exact hother
      rw [acrossLoop, if_neg hguard,
        busyBetween_succ (fun h => absurd h hother) (fun h => absurd h hother),
        exists_blockedBy_succ (fun h => hother h.1)]
      exact hrest

end

variable {s : ApmCmds} {curr : ℕ} (hvalid : ∀ a b, Adjacent conns a b → b ≠ 0)
  (hcurr : (s.cmdCtrlList curr).ValidIds)

include hvalid hcurr

lemma checkAcross_of_busyAt (h : BusyAt n conns s.cmdCtrlList curr) :
    (s.checkAcross n conns curr).result = .ebusy ∧ (s.checkAcross n conns curr).busy = true := by
  have hspec := (acrossLoop_spec hvalid hcurr 0 n.val).1
  rw [Nat.zero_add, ← range_eq_range'] at hspec
  exact hspec h

lemma checkAcross_of_not_busyAt (h : ¬ BusyAt n conns s.cmdCtrlList curr) :
    (s.checkAcross n conns curr).result = .eok ∧ (s.checkAcross n conns curr).busy = false ∧
      ((s.checkAcross n conns curr).overlap = true ↔ Blocked n conns s.cmdCtrlList curr) := by
  have hspec := (acrossLoop_spec hvalid hcurr 0 n.val).2
  rw [Nat.zero_add, ← range_eq_range'] at hspec
  simpa [checkAcross, Blocked] using hspec h

omit hcurr

/-! ## The deferred list -/

lemma resumeLoop_append {pre rest : List ℕ} (hids : ∀ i ∈ pre, (s.cmdCtrlList i).ValidIds)
    (hbusy : ∀ i ∈ pre, ¬ BusyAt n conns s.cmdCtrlList i)
    (hblocked : ∀ i ∈ pre, Blocked n conns s.cmdCtrlList i) :
    s.resumeLoop n conns (pre ++ rest) = s.resumeLoop n conns rest := by
  induction pre with
  | nil => rfl
  | cons i pre ih =>
    rw [forall_mem_cons] at hids hbusy hblocked
    obtain ⟨hresult, -, hoverlap⟩ := checkAcross_of_not_busyAt hvalid hids.1 hbusy.1
    have hover := hoverlap.mpr hblocked.1
    rw [cons_append, resumeLoop, if_neg (by simp [hresult]), if_pos hover]
    exact ih hids.2 hbusy.2 hblocked.2

section

variable (hids : ∀ i ∈ s.deferredCmdList, (s.cmdCtrlList i).ValidIds)
include hids

/-- Unless a busy command stops it, the loop resumes the first command that is not blocked. -/
lemma resumeLoop_cases
    (hbusy : ∀ pre i post, s.deferredCmdList = pre ++ i :: post →
      (∀ j ∈ pre, Blocked n conns s.cmdCtrlList j) → ¬ BusyAt n conns s.cmdCtrlList i)
    :
    ((∀ i ∈ s.deferredCmdList, Blocked n conns s.cmdCtrlList i) ∧
      s.resumeLoop n conns s.deferredCmdList = s) ∨
    ∃ pre i post, s.deferredCmdList = pre ++ i :: post ∧
      (∀ j ∈ pre, Blocked n conns s.cmdCtrlList j) ∧ ¬ Blocked n conns s.cmdCtrlList i ∧
      s.resumeLoop n conns s.deferredCmdList = s.resumeDeferredCmdProc i := by
  -- a blocked command is not busy when those before it are blocked
  have hpre : ∀ pre post, s.deferredCmdList = pre ++ post →
      (∀ j ∈ pre, Blocked n conns s.cmdCtrlList j) →
      ∀ i ∈ pre, ¬ BusyAt n conns s.cmdCtrlList i := by
    intro pre post hlist hblocked i hi
    obtain ⟨before, after, rfl⟩ := append_of_mem hi
    rw [append_assoc] at hlist
    exact hbusy before i (after ++ post) hlist fun j hj =>
      hblocked j (mem_append_left _ hj)
  rcases exists_first_or_forall (Blocked n conns s.cmdCtrlList) s.deferredCmdList with
    hall | ⟨pre, i, post, hlist, hblocked, hi⟩
  · refine Or.inl ⟨hall, ?_⟩
    have hpass : s.resumeLoop n conns (s.deferredCmdList ++ []) = s.resumeLoop n conns [] :=
      resumeLoop_append hvalid hids (hpre s.deferredCmdList [] (append_nil _).symm hall) hall
    rw [append_nil] at hpass
    exact hpass
  · refine Or.inr ⟨pre, i, post, hlist, hblocked, hi, ?_⟩
    rw [hlist] at hids
    obtain ⟨hresult, -, hoverlap⟩ := checkAcross_of_not_busyAt hvalid
      (hids i (mem_append_right _ mem_cons_self)) (hbusy pre i post hlist hblocked)
    have hover : ¬ (s.checkAcross n conns i).overlap = true := fun h => hi (hoverlap.mp h)
    rw [hlist, resumeLoop_append hvalid (fun j hj => hids j (mem_append_left _ hj))
      (hpre pre _ hlist hblocked) hblocked, resumeLoop, if_neg (by simp [hresult]),
      if_neg hover]

/-- What happens to the deferred commands when a command has ended: nothing when there is
none or all are blocked; else one is resumed, the first when no command is active and
otherwise the first that is not blocked. -/
lemma checkDefCmdIsReadyToProcess_cases (hcount : s.numDeferred = s.deferredCmdList.length)
    (havailable : s.numDeferred = s.getNumAvailableCmd n ↔ s.AllDeferred n)
    (hbusy : s.NoneBusy n conns) :
    (s.deferredCmdList = [] ∧ s.checkDefCmdIsReadyToProcess n conns = s) ∨
    (¬ s.AllDeferred n ∧ (∀ i ∈ s.deferredCmdList, Blocked n conns s.cmdCtrlList i) ∧
      s.checkDefCmdIsReadyToProcess n conns = s) ∨
    ∃ pre i post, s.deferredCmdList = pre ++ i :: post ∧
      s.checkDefCmdIsReadyToProcess n conns = s.resumeDeferredCmdProc i ∧
      ((s.AllDeferred n ∧ pre = []) ∨
        (¬ s.AllDeferred n ∧ (∀ j ∈ pre, Blocked n conns s.cmdCtrlList j) ∧
          ¬ Blocked n conns s.cmdCtrlList i)) := by
  unfold checkDefCmdIsReadyToProcess
  by_cases hzero : s.numDeferred = 0
  · refine Or.inl ⟨?_, if_pos hzero⟩
    exact length_eq_zero_iff.mp (hcount ▸ hzero)
  · rw [if_neg hzero]
    by_cases hall : s.AllDeferred n
    · rw [if_pos (havailable.mpr hall)]
      cases hlist : s.deferredCmdList with
      | nil => exact absurd (by rw [hcount, hlist]; rfl) hzero
      | cons i rest => exact Or.inr (Or.inr ⟨[], i, rest, rfl, rfl, Or.inl ⟨hall, rfl⟩⟩)
    · rw [if_neg fun h => hall (havailable.mp h)]
      rcases resumeLoop_cases hvalid hids (hbusy.resolve_left hall) with
        ⟨hblocked, heq⟩ | ⟨pre, i, post, hlist, hblocked, hi, heq⟩
      · exact Or.inr (Or.inl ⟨hall, hblocked, heq⟩)
      · exact Or.inr (Or.inr ⟨pre, i, post, hlist, heq, Or.inr ⟨hall, hblocked, hi⟩⟩)

end

end ApmCmds

end AudioReach
