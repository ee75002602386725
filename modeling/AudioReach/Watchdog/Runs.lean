import AudioReach.Watchdog.Model

/-!
# The watchdog service in every run

The lock is the key to everything: the routine and the clients change the list, the flag and the
signal only while they hold it (`Exclusive`).  So the routine sees one list while it goes through
it, and a job that is in the list when the routine waits came with a signal.

Two things are beyond the lock.  An add reports success even if there was no node for its job, and a
client that has seen the flag set takes the lock later, when it may have been destroyed.  The
results hold if this does not happen (`Fits`).
-/

namespace AudioReach

open Function (update update_apply)
open Library List

/-- The routine holds the lock. -/
def WdRoutine.holdsLock : WdRoutine → Prop
  | .getTime | .test _ | .visit _ _ | .clear | .unlockToWait | .unlockToSleep | .unlockToReturn =>
    True
  | _ => False

/-- The client holds the lock. -/
def WdClient.holdsLock : WdClient → Prop
  | .addInsert _ | .addUnlock | .removeDelete _ | .removeUnlock | .deinitDelete | .deinitFlag
  | .deinitSend | .deinitUnlock => True
  | _ => False

/-- The client is about to take the lock. -/
def WdClient.atLock : WdClient → Prop
  | .addLock _ | .removeLock _ | .deinitLock => True
  | _ => False

/-- The client has ended the service. -/
def WdClient.ended : WdClient → Prop
  | .deinitSend | .deinitUnlock | .deinitRelease | .deinitDestroy => True
  | _ => False

namespace WdSvc

/-- Whoever is inside the lock holds it. -/
structure Exclusive (s : WdSvc) : Prop where
  routine : s.routine.holdsLock → s.lock = some .routine
  client : ∀ t, (s.clients t).holdsLock → s.lock = some (.client t)

/-- What the routine knows where it stands. -/
def RoutineKnows (s : WdSvc) : Prop :=
  match s.routine with
  | .test currTime => currTime ≤ s.clock
  | .visit currTime rest =>
    currTime ≤ s.clock ∧ s.wdAliveFlag = true ∧ ∃ kept, s.jobList = kept ++ rest
  | .clear => s.jobList = []
  | .unlockToWait | .wait => s.signal = false → s.jobList = []
  | _ => True

/-- The end of the service: the flag is cleared before the routine returns, and the lock is
destroyed after that. -/
structure Ending (s : WdSvc) : Prop where
  flag : ∀ t, (s.clients t).ended → s.wdAliveFlag = false
  routine : ∀ t, s.clients t = .deinitDestroy → s.routine = .returned
  destroyed : s.destroyed = true → s.wdAliveFlag = false ∧ s.routine = .returned

section Locks

variable {s : WdSvc}

lemma clients_setClient (t u : ℕ) (c : WdClient) :
    (s.setClient t c).clients u = if u = t then c else s.clients u := by
  simp [setClient, update_apply]

section

variable (h : s.Exclusive)
include h

/-- No client holds the lock while the routine does. -/
lemma Exclusive.not_client (hr : s.routine.holdsLock) (t : ℕ) : ¬ (s.clients t).holdsLock := by
  intro ht
  have := (h.routine hr).symm.trans (h.client t ht)
  cases this

/-- The routine does not hold the lock while a client does. -/
lemma Exclusive.not_routine {t : ℕ} (ht : (s.clients t).holdsLock) : ¬ s.routine.holdsLock :=
  fun hr => h.not_client hr t ht

/-- At most one client holds the lock. -/
lemma Exclusive.client_unique {t u : ℕ} (ht : (s.clients t).holdsLock)
    (hu : (s.clients u).holdsLock) : t = u := by
  have := (h.client t ht).symm.trans (h.client u hu)
  cases this
  rfl

/-- A client moves without taking the lock. -/
lemma Exclusive.move {s' : WdSvc} {t : ℕ} {c : WdClient} (hlock : s'.lock = s.lock)
    (hroutine : s'.routine = s.routine) (hclients : s'.clients = update s.clients t c)
    (hc : c.holdsLock → (s.clients t).holdsLock) : s'.Exclusive := by
  refine ⟨?_, fun u hu => ?_⟩
  · rw [hlock, hroutine]
    exact h.routine
  · rw [hclients, update_apply] at hu
    rw [hlock]
    split at hu
    · rename_i heq
      subst heq
      exact h.client u (hc hu)
    · exact h.client u hu

/-- A client takes the lock, or waits for it. -/
lemma Exclusive.acquire_client (t : ℕ) (c : WdClient) :
    (s.acquire (.client t) fun s => s.setClient t c).Exclusive := by
  unfold acquire
  split
  · exact h
  · rename_i hfree
    refine ⟨fun hr => ?_, fun u hu => ?_⟩
    · have := hfree.symm.trans (h.routine hr)
      cases this
    · rw [clients_setClient] at hu
      split at hu
      · rename_i heq
        rw [heq]
        rfl
      · have := hfree.symm.trans (h.client u hu)
        cases this

/-- A client that holds the lock gives it back. -/
lemma Exclusive.release_client {t : ℕ} {c : WdClient} (ht : (s.clients t).holdsLock)
    (hc : ¬ c.holdsLock) : (s.release.setClient t c).Exclusive := by
  refine ⟨fun hr => absurd hr (h.not_routine ht), fun u hu => ?_⟩
  rw [clients_setClient] at hu
  split at hu
  · exact absurd hu hc
  · rename_i hne
    exact absurd (h.client_unique hu ht) hne

/-- The routine moves without taking the lock. -/
lemma Exclusive.setRoutine {r : WdRoutine} (hr : r.holdsLock → s.routine.holdsLock) :
    ({ s with routine := r } : WdSvc).Exclusive :=
  ⟨fun hr' => h.routine (hr hr'), h.client⟩

/-- The routine gives the lock back. -/
lemma Exclusive.release_routine {r : WdRoutine} (hs : s.routine.holdsLock) (hr : ¬ r.holdsLock) :
    ({ s.release with routine := r } : WdSvc).Exclusive :=
  ⟨fun hr' => absurd hr' hr, fun t ht => absurd ht (h.not_client hs t)⟩

/-- A step of the routine keeps the lock with one owner. -/
lemma Exclusive.routineStep : s.routineStep.Exclusive := by
  unfold WdSvc.routineStep
  split
  · exact h.setRoutine fun hr => nomatch hr
  · rename_i hpc
    unfold acquire
    split
    · exact h
    · rename_i hfree
      refine ⟨fun _ => rfl, fun t ht => ?_⟩
      have := hfree.symm.trans (h.client t ht)
      cases this
  · rename_i hpc
    exact h.setRoutine fun _ => by rw [hpc]; trivial
  · rename_i hpc
    exact h.setRoutine fun _ => by rw [hpc]; trivial
  · rename_i job rest hpc
    have hin : s.routine.holdsLock := by rw [hpc]; trivial
    split
    · exact ⟨fun _ => h.routine hin, h.client⟩
    · exact ⟨fun _ => h.routine hin, h.client⟩
  · rename_i hpc
    exact h.setRoutine fun _ => by rw [hpc]; trivial
  · rename_i hpc
    exact ⟨fun _ => h.routine (by rw [hpc]; trivial), h.client⟩
  · rename_i hpc
    exact h.release_routine (by rw [hpc]; trivial) fun hr => nomatch hr
  · split
    · exact h.setRoutine fun hr => nomatch hr
    · exact h
  · rename_i hpc
    exact h.release_routine (by rw [hpc]; trivial) fun hr => nomatch hr
  · exact h.setRoutine fun hr => nomatch hr
  · rename_i hpc
    exact h.release_routine (by rw [hpc]; trivial) fun hr => nomatch hr
  · exact h

/-- A step of a client keeps the lock with one owner. -/
lemma Exclusive.clientStep (t : ℕ) (allocated : Bool) : (s.clientStep t allocated).Exclusive := by
  have hmove {s' : WdSvc} {c : WdClient} (hlock : s'.lock = s.lock)
      (hroutine : s'.routine = s.routine) (hclients : s'.clients = update s.clients t c)
      (hin : (s.clients t).holdsLock) : s'.Exclusive :=
    h.move hlock hroutine hclients fun _ => hin
  unfold WdSvc.clientStep
  split
  · exact h
  · refine h.move rfl rfl rfl fun hc => ?_
    split at hc <;> exact hc.elim
  · exact h.acquire_client t _
  · rename_i hpc
    exact hmove rfl rfl rfl (by rw [hpc]; trivial)
  · rename_i hpc
    exact h.release_client (by rw [hpc]; trivial) id
  · refine h.move rfl rfl rfl fun hc => ?_
    split at hc <;> exact hc.elim
  · exact h.acquire_client t _
  · rename_i hpc
    exact hmove rfl rfl rfl (by rw [hpc]; trivial)
  · rename_i hpc
    exact h.release_client (by rw [hpc]; trivial) id
  · exact h.acquire_client t _
  · rename_i hpc
    exact hmove rfl rfl rfl (by rw [hpc]; trivial)
  · rename_i hpc
    exact hmove rfl rfl rfl (by rw [hpc]; trivial)
  · rename_i hpc
    exact hmove rfl rfl rfl (by rw [hpc]; trivial)
  · rename_i hpc
    exact h.release_client (by rw [hpc]; trivial) id
  · split
    · exact (h.setRoutine False.elim).move rfl rfl rfl False.elim
    · exact (h.setRoutine False.elim).move rfl rfl rfl False.elim
    · exact h
  · exact h.move rfl rfl rfl False.elim

/-- Every step keeps the lock with one owner. -/
lemma Exclusive.step (a : WdAction) : (s.step a).Exclusive := by
  cases a with
  | tick us => exact ⟨h.routine, h.client⟩
  | routine => exact h.routineStep
  | client t allocated => exact h.clientStep t allocated
  | request t r =>
    change (s.request t r).Exclusive
    unfold WdSvc.request
    split
    · exact h.move rfl rfl rfl False.elim
    · exact h.move rfl rfl rfl False.elim
    · exact h.move rfl rfl rfl False.elim
    · exact h

end

end Locks

/-! ## The routine -/

section Routine

variable {s : WdSvc}

/-- A routine outside the lock knows only what it waits for. -/
lemma routineKnows_of_out (hr : ¬ s.routine.holdsLock)
    (hwait : s.routine = .wait → s.signal = false → s.jobList = []) : s.RoutineKnows := by
  unfold RoutineKnows
  cases hpc : s.routine with
  | wait => exact hwait hpc
  | test | visit | clear | unlockToWait =>
    rw [hpc] at hr
    exact absurd trivial hr
  | queued | lock | getTime | unlockToSleep | sleep | unlockToReturn | returned => trivial

/-- Erasing a job leaves what comes after its first entry as it was. -/
lemma erase_kept (kept rest : List Addr) (job : Addr) :
    ∃ kept', (kept ++ job :: rest).erase job = kept' ++ rest := by
  by_cases hmem : job ∈ kept
  · refine ⟨kept.erase job ++ [job], ?_⟩
    rw [erase_append_left _ hmem]
    simp
  · refine ⟨kept, ?_⟩
    rw [erase_append_right _ hmem, erase_cons_head]

section

variable (h : s.RoutineKnows)
include h

/-- Before it waits the list is empty or the signal is set. -/
lemma RoutineKnows.wait (hpc : s.routine = .wait) : s.signal = false → s.jobList = [] := by
  unfold RoutineKnows at h
  rw [hpc] at h
  exact h

/-- What the routine knows depends on these fields, and the clock only goes on. -/
lemma RoutineKnows.congr {s' : WdSvc} (hroutine : s'.routine = s.routine)
    (hclock : s.clock ≤ s'.clock) (hflag : s'.wdAliveFlag = s.wdAliveFlag)
    (hlist : s'.jobList = s.jobList) (hsignal : s'.signal = s.signal) : s'.RoutineKnows := by
  unfold RoutineKnows at h ⊢
  rw [hroutine, hflag, hlist, hsignal]
  cases hpc : s.routine with
  | test currTime =>
    rw [hpc] at h
    exact Nat.le_trans h hclock
  | visit currTime rest =>
    rw [hpc] at h
    exact ⟨Nat.le_trans h.1 hclock, h.2⟩
  | clear | unlockToWait | wait =>
    rw [hpc] at h
    exact h
  | queued | lock | getTime | unlockToSleep | sleep | unlockToReturn | returned => trivial

/-- A client at the lock changes nothing the routine knows. -/
lemma RoutineKnows.acquire_client (t : ℕ) (c : WdClient) :
    (s.acquire (.client t) fun s => s.setClient t c).RoutineKnows := by
  unfold acquire
  split
  · exact h
  · exact h.congr rfl (Nat.le_refl _) rfl rfl rfl

/-- A step of the routine keeps what it knows. -/
lemma RoutineKnows.routineStep : s.routineStep.RoutineKnows := by
  unfold WdSvc.routineStep
  split
  · trivial
  · unfold acquire
    split
    · exact h
    · trivial
  · exact Nat.le_refl _
  · rename_i currTime hpc
    unfold RoutineKnows at h
    rw [hpc] at h
    by_cases hflag : s.wdAliveFlag = true
    · rw [if_pos hflag]
      exact ⟨h, hflag, [], rfl⟩
    · rw [if_neg hflag]
      trivial
  · rename_i currTime job rest hpc
    unfold RoutineKnows at h
    rw [hpc] at h
    obtain ⟨htime, hflag, kept, hkept⟩ := h
    split
    · obtain ⟨kept', herase⟩ := erase_kept kept rest job
      exact ⟨htime, hflag, kept', (congrArg (·.erase job) hkept).trans herase⟩
    · exact ⟨htime, hflag, kept ++ [job], by simp [hkept]⟩
  · rename_i hpc
    by_cases hempty : s.jobList = []
    · rw [if_pos hempty]
      exact hempty
    · rw [if_neg hempty]
      trivial
  · rename_i hpc
    unfold RoutineKnows at h
    rw [hpc] at h
    exact fun _ => h
  · rename_i hpc
    unfold RoutineKnows at h
    rw [hpc] at h
    exact h
  · split
    · trivial
    · exact h
  · trivial
  · trivial
  · trivial
  · exact h

/-- A client under the lock may change the list, for the routine is outside. -/
lemma RoutineKnows.change (hex : s.Exclusive) {t : ℕ} (hin : (s.clients t).holdsLock) {s' : WdSvc}
    (hroutine : s'.routine = s.routine)
    (hlist : s'.signal = false → s.signal = false ∧ (s.jobList = [] → s'.jobList = [])) :
    s'.RoutineKnows := by
  refine routineKnows_of_out ?_ fun hpc hsignal => ?_
  · rw [hroutine]
    exact hex.not_routine hin
  · rw [hroutine] at hpc
    obtain ⟨hsig, hempty⟩ := hlist hsignal
    exact hempty (h.wait hpc hsig)

/-- A step of a client keeps what the routine knows. -/
lemma RoutineKnows.clientStep (hex : s.Exclusive) (t : ℕ) (allocated : Bool) :
    (s.clientStep t allocated).RoutineKnows := by
  have hsame {s' : WdSvc} (hroutine : s'.routine = s.routine) (hclock : s'.clock = s.clock)
      (hflag : s'.wdAliveFlag = s.wdAliveFlag) (hlist : s'.jobList = s.jobList)
      (hsignal : s'.signal = s.signal) : s'.RoutineKnows :=
    h.congr hroutine (Nat.le_of_eq hclock.symm) hflag hlist hsignal
  unfold WdSvc.clientStep
  split
  · exact h
  · exact hsame rfl rfl rfl rfl rfl
  · exact h.acquire_client t _
  · rename_i hpc
    exact h.change hex (by rw [hpc]; trivial) rfl fun hs => nomatch hs
  · exact hsame rfl rfl rfl rfl rfl
  · exact hsame rfl rfl rfl rfl rfl
  · exact h.acquire_client t _
  · rename_i job hpc
    refine h.change hex (by rw [hpc]; trivial) rfl fun hs => ⟨hs, fun hempty => ?_⟩
    rw [hempty]
    rfl
  · exact hsame rfl rfl rfl rfl rfl
  · exact h.acquire_client t _
  · rename_i hpc
    exact h.change hex (by rw [hpc]; trivial) rfl fun hs => ⟨hs, fun _ => rfl⟩
  · rename_i hpc
    exact h.change hex (by rw [hpc]; trivial) rfl fun hs => ⟨hs, id⟩
  · rename_i hpc
    exact h.change hex (by rw [hpc]; trivial) rfl fun hs => nomatch hs
  · exact hsame rfl rfl rfl rfl rfl
  · split
    · trivial
    · trivial
    · exact h
  · exact hsame rfl rfl rfl rfl rfl

/-- Every step keeps what the routine knows. -/
lemma RoutineKnows.step (hex : s.Exclusive) (a : WdAction) : (s.step a).RoutineKnows := by
  cases a with
  | tick us => exact h.congr rfl (Nat.le_add_right _ _) rfl rfl rfl
  | routine => exact h.routineStep
  | client t allocated => exact h.clientStep hex t allocated
  | request t r =>
    change (s.request t r).RoutineKnows
    unfold WdSvc.request
    split
    · exact h.congr rfl (Nat.le_refl _) rfl rfl rfl
    · exact h.congr rfl (Nat.le_refl _) rfl rfl rfl
    · exact h.congr rfl (Nat.le_refl _) rfl rfl rfl
    · exact h

end

end Routine

/-! ## The account of the jobs -/

/-- What a step does to the list and to the account of the open adds. -/
inductive Change (s s' : WdSvc) (a : WdAction) : Prop
  | same (hlist : s'.jobList = s.jobList) (harmed : s'.armed = s.armed)
      (hflag : s'.wdAliveFlag = true → s.wdAliveFlag = true)
  | taken (job : Addr) (hlist : s'.jobList = s.jobList.erase job)
      (harmed : s'.armed = update s.armed job (s.armed job - 1))
      (hflag : s'.wdAliveFlag = s.wdAliveFlag)
  | added (t : ℕ) (job : Addr) (allocated : Bool) (ha : a = .client t allocated)
      (hpc : s.clients t = .addInsert job)
      (hlist : s'.jobList = if allocated then job :: s.jobList else s.jobList)
      (harmed : s'.armed =
        if s.wdAliveFlag then update s.armed job (s.armed job + 1) else s.armed)
      (hflag : s'.wdAliveFlag = s.wdAliveFlag)
  | emptied (hlist : s'.jobList = []) (harmed : s'.armed = fun _ => 0)

section Account

variable {s : WdSvc}

/-- Taking the lock changes no account. -/
lemma change_acquire (a : WdAction) (o : WdOwner) {next : WdSvc → WdSvc}
    (hlist : ∀ s, (next s).jobList = s.jobList) (harmed : ∀ s, (next s).armed = s.armed)
    (hflag : ∀ s, (next s).wdAliveFlag = s.wdAliveFlag) : Change s (s.acquire o next) a := by
  unfold acquire
  split
  · exact .same rfl rfl id
  · exact .same (hlist _) (harmed _) fun h => by
      rw [hflag] at h
      exact h

/-- What a step of the routine does to the list and the open adds. -/
lemma change_routineStep (a : WdAction) : Change s s.routineStep a := by
  unfold routineStep
  split
  · exact .same rfl rfl id
  · exact change_acquire a _ (fun _ => rfl) (fun _ => rfl) fun _ => rfl
  · exact .same rfl rfl id
  · exact .same rfl rfl id
  · rename_i currTime job rest hpc
    split
    · exact .taken job rfl rfl rfl
    · exact .same rfl rfl id
  · exact .same rfl rfl id
  · exact .same rfl rfl id
  · exact .same rfl rfl id
  · split <;> exact .same rfl rfl id
  · exact .same rfl rfl id
  · exact .same rfl rfl id
  · exact .same rfl rfl id
  · exact .same rfl rfl id

/-- What a step of a client does to the list and the open adds. -/
lemma change_clientStep (t : ℕ) (allocated : Bool) :
    Change s (s.clientStep t allocated) (.client t allocated) := by
  unfold clientStep
  split
  · exact .same rfl rfl id
  · exact .same rfl rfl id
  · exact change_acquire _ _ (fun _ => rfl) (fun _ => rfl) fun _ => rfl
  · rename_i job hpc
    exact .added t job allocated rfl hpc rfl rfl rfl
  · exact .same rfl rfl id
  · exact .same rfl rfl id
  · exact change_acquire _ _ (fun _ => rfl) (fun _ => rfl) fun _ => rfl
  · exact .taken _ rfl rfl rfl
  · exact .same rfl rfl id
  · exact change_acquire _ _ (fun _ => rfl) (fun _ => rfl) fun _ => rfl
  · exact .emptied rfl rfl
  · exact .same rfl rfl fun h => nomatch h
  · exact .same rfl rfl id
  · exact .same rfl rfl id
  · split <;> exact .same rfl rfl id
  · exact .same rfl rfl id

/-- What any step does to the list and the open adds. -/
lemma change_step (a : WdAction) : Change s (s.step a) a := by
  cases a with
  | tick us => exact .same rfl rfl id
  | routine => exact change_routineStep _
  | client t allocated => exact change_clientStep t allocated
  | request t r =>
    change Change s (s.request t r) _
    unfold request
    split <;> exact .same rfl rfl id

/-- While the service is alive, a job is in the list as often as it has open adds. -/
def Listed (s : WdSvc) : Prop :=
  s.wdAliveFlag = true → ∀ job, s.jobList.count job ≤ s.armed job

/-- While the service is alive, every open add has its job in the list. -/
def Kept (s : WdSvc) : Prop :=
  s.wdAliveFlag = true → ∀ job, s.armed job ≤ s.jobList.count job

lemma count_erase_eq (job other : Addr) (jobs : List Addr) : (jobs.erase job).count other =
      if other = job then jobs.count other - 1 else jobs.count other := by
  split
  · rename_i heq
    rw [heq, count_erase_self]
  · rename_i hne
    exact count_erase_of_ne hne

/-- Every step keeps the list equal to the open adds. -/
lemma Listed.step (h : s.Listed) (a : WdAction) : (s.step a).Listed := by
  intro halive other
  cases change_step a with
  | same hlist harmed hflag =>
    rw [hlist, harmed]
    exact h (hflag halive) other
  | taken job hlist harmed hflag =>
    have hle := h (hflag.symm.trans halive) other
    rw [hlist, harmed, count_erase_eq, update_apply]
    split
    · rename_i heq
      rw [← heq]
      omega
    · exact hle
  | added t job allocated ha hpc hlist harmed hflag =>
    have halive' := hflag.symm.trans halive
    have hle := h halive' other
    rw [hlist, harmed, if_pos halive', update_apply]
    by_cases heq : other = job
    · rw [if_pos heq, ← heq]
      cases allocated with
      | true =>
        rw [if_pos rfl, count_cons_self]
        exact Nat.succ_le_succ hle
      | false => exact Nat.le_succ_of_le hle
    · rw [if_neg heq]
      cases allocated with
      | true =>
        rw [if_pos rfl, count_cons_of_ne (Ne.symm heq)]
        exact hle
      | false => exact hle
  | emptied hlist harmed =>
    rw [hlist]
    exact Nat.zero_le _

/-- A step keeps the jobs unless it has no node for one. -/
lemma Kept.step (h : s.Kept) {a : WdAction}
    (hnode : ∀ t job, a = .client t false → s.clients t = .addInsert job →
      s.wdAliveFlag = false) : (s.step a).Kept := by
  intro halive other
  cases change_step a with
  | same hlist harmed hflag =>
    rw [hlist, harmed]
    exact h (hflag halive) other
  | taken job hlist harmed hflag =>
    have hle := h (hflag.symm.trans halive) other
    rw [hlist, harmed, count_erase_eq, update_apply]
    split
    · rename_i heq
      rw [← heq]
      omega
    · exact hle
  | added t job allocated ha hpc hlist harmed hflag =>
    have halive' := hflag.symm.trans halive
    have hle := h halive' other
    cases allocated with
    | false =>
      have := (hnode t job ha hpc).symm.trans halive'
      cases this
    | true =>
      rw [hlist, harmed, if_pos halive', if_pos rfl, update_apply]
      by_cases heq : other = job
      · rw [if_pos heq, ← heq, count_cons_self]
        exact Nat.succ_le_succ hle
      · rw [if_neg heq, count_cons_of_ne (Ne.symm heq)]
        exact hle
  | emptied hlist harmed =>
    rw [harmed]
    exact Nat.zero_le _

/-- A function is called for an open add and not before its time. -/
def Rightful (s : WdSvc) : Prop :=
  ∀ c ∈ s.calls, 0 < c.armed ∧ c.timeoutUs ≤ c.time

/-- Taking the lock calls no job. -/
lemma calls_acquire (o : WdOwner) {next : WdSvc → WdSvc}
    (hcalls : ∀ s, (next s).calls = s.calls) : (s.acquire o next).calls = s.calls := by
  unfold acquire
  split
  · rfl
  · exact hcalls _

/-- Clients call no job. -/
lemma calls_clientStep (t : ℕ) (allocated : Bool) : (s.clientStep t allocated).calls = s.calls := by
  unfold clientStep
  split <;> first
    | rfl
    | exact calls_acquire _ fun _ => rfl
    | (split <;> rfl)

/-- **Every call is rightful.** A job is called under an open add and after its timeout. -/
lemma Rightful.step (h : s.Rightful) (hknows : s.RoutineKnows) (hlisted : s.Listed)
    (a : WdAction) : (s.step a).Rightful := by
  have hsame {s' : WdSvc} (hcalls : s'.calls = s.calls) : s'.Rightful := by
    unfold Rightful
    rw [hcalls]
    exact h
  cases a with
  | tick us => exact hsame rfl
  | client t allocated => exact hsame (calls_clientStep t allocated)
  | request t r =>
    change (s.request t r).Rightful
    unfold request
    split <;> exact hsame rfl
  | routine =>
    change s.routineStep.Rightful
    unfold routineStep
    split
    case h_5 currTime job rest hpc =>
      unfold RoutineKnows at hknows
      rw [hpc] at hknows
      obtain ⟨htime, hflag, kept, hkept⟩ := hknows
      split
      · rename_i hdue
        intro c hc
        rcases mem_cons.mp hc with rfl | hc
        · refine ⟨?_, Nat.le_trans hdue htime⟩
          have hpos : 0 < s.jobList.count job := by
            rw [hkept]
            exact count_pos_iff.mpr (by simp)
          exact Nat.lt_of_lt_of_le hpos (hlisted hflag job)
        · exact h c hc
      · exact hsame rfl
    case h_2 => exact hsame (calls_acquire _ fun _ => rfl)
    case h_9 => split <;> exact hsame rfl
    all_goals exact hsame rfl

end Account

/-! ## The end of the service -/

section End

variable {s : WdSvc}

section

variable (h : s.Ending)
include h

/-- A client moves while the service ends no further than it has. -/
lemma Ending.move {s' : WdSvc} {t : ℕ} {c : WdClient} (hclients : s'.clients = update s.clients t c)
    (hflag : s.wdAliveFlag = false → s'.wdAliveFlag = false)
    (hroutine : s.routine = .returned → s'.routine = .returned)
    (hdestroyed : s'.destroyed = true → s.destroyed = true)
    (hended : c.ended → s'.wdAliveFlag = false)
    (hreturned : c = .deinitDestroy → s'.routine = .returned) : s'.Ending := by
  refine ⟨fun u hu => ?_, fun u hu => ?_, fun hd => ?_⟩
  · rw [hclients, update_apply] at hu
    split at hu
    · exact hended hu
    · exact hflag (h.flag u hu)
  · rw [hclients, update_apply] at hu
    split at hu
    · exact hreturned hu
    · exact hroutine (h.routine u hu)
  · exact ⟨hflag (h.destroyed (hdestroyed hd)).1, hroutine (h.destroyed (hdestroyed hd)).2⟩

/-- A client takes the lock before the end. -/
lemma Ending.acquire (t : ℕ) {c : WdClient} (hc : ¬ c.ended) :
    (s.acquire (.client t) fun s => s.setClient t c).Ending := by
  unfold WdSvc.acquire
  split
  · exact h
  · refine h.move rfl id id id (fun he => absurd he hc) ?_
    rintro rfl
    exact absurd trivial hc

/-- The routine moves and the end is as far as it was. -/
lemma Ending.setRoutine {s' : WdSvc} (hclients : s'.clients = s.clients)
    (hflag : s'.wdAliveFlag = s.wdAliveFlag) (hdestroyed : s'.destroyed = s.destroyed)
    (hroutine : s.routine = .returned → s'.routine = .returned) : s'.Ending := by
  refine ⟨?_, ?_, fun hd => ?_⟩
  · rw [hclients, hflag]
    exact h.flag
  · rw [hclients]
    exact fun t ht => hroutine (h.routine t ht)
  · rw [hdestroyed] at hd
    rw [hflag]
    exact ⟨(h.destroyed hd).1, hroutine (h.destroyed hd).2⟩

/-- A step of the routine keeps the order of the end. -/
lemma Ending.routineStep : s.routineStep.Ending := by
  have hgo {s' : WdSvc} (hpc : s.routine ≠ .returned) (hclients : s'.clients = s.clients)
      (hflag : s'.wdAliveFlag = s.wdAliveFlag) (hdestroyed : s'.destroyed = s.destroyed) :
      s'.Ending :=
    h.setRoutine hclients hflag hdestroyed fun hr => absurd hr hpc
  unfold WdSvc.routineStep
  split
  case h_2 hpc =>
    unfold WdSvc.acquire
    split
    · exact h
    · exact hgo (by rw [hpc]; exact nofun) rfl rfl rfl
  case h_5 hpc =>
    split
    · exact hgo (by rw [hpc]; exact nofun) rfl rfl rfl
    · exact hgo (by rw [hpc]; exact nofun) rfl rfl rfl
  case h_9 hpc =>
    split
    · exact hgo (by rw [hpc]; exact nofun) rfl rfl rfl
    · exact h
  case h_13 => exact h
  all_goals
    rename_i hpc
    exact hgo (by rw [hpc]; exact nofun) rfl rfl rfl

/-- A step of a client keeps the order of the end. -/
lemma Ending.clientStep (t : ℕ) (allocated : Bool) : (s.clientStep t allocated).Ending := by
  have hmove {s' : WdSvc} {c : WdClient} (hclients : s'.clients = update s.clients t c)
      (hflag : s'.wdAliveFlag = s.wdAliveFlag) (hroutine : s'.routine = s.routine)
      (hdestroyed : s'.destroyed = s.destroyed) (hc : ¬ c.ended) : s'.Ending := by
    refine h.move hclients (fun hf => hflag.trans hf) (fun hr => hroutine.trans hr)
      (fun hd => hdestroyed.symm.trans hd) (fun he => absurd he hc) ?_
    rintro rfl
    exact absurd trivial hc
  unfold WdSvc.clientStep
  split
  · exact h
  · refine hmove rfl rfl rfl rfl ?_
    split <;> exact id
  · exact h.acquire t id
  · exact hmove rfl rfl rfl rfl id
  · exact hmove rfl rfl rfl rfl id
  · refine hmove rfl rfl rfl rfl ?_
    split <;> exact id
  · exact h.acquire t id
  · exact hmove rfl rfl rfl rfl id
  · exact hmove rfl rfl rfl rfl id
  · exact h.acquire t id
  · exact hmove rfl rfl rfl rfl id
  · exact h.move rfl (fun _ => rfl) id id (fun _ => rfl) nofun
  · rename_i hpc
    exact h.move rfl id id id (fun _ => h.flag t (by rw [hpc]; trivial)) nofun
  · rename_i hpc
    exact h.move rfl id id id (fun _ => h.flag t (by rw [hpc]; trivial)) nofun
  · rename_i hpc
    split
    · exact h.move rfl id (fun _ => rfl) id (fun _ => h.flag t (by rw [hpc]; trivial)) fun _ => rfl
    · exact h.move rfl id (fun _ => rfl) id (fun _ => h.flag t (by rw [hpc]; trivial)) fun _ => rfl
    · exact h
  · rename_i hpc
    refine ⟨fun u hu => ?_, fun u hu => ?_, fun _ => ?_⟩
    · rw [clients_setClient] at hu
      split at hu
      · exact hu.elim
      · exact h.flag u hu
    · rw [clients_setClient] at hu
      split at hu
      · cases hu
      · exact h.routine u hu
    · exact ⟨h.flag t (by rw [hpc]; trivial), h.routine t hpc⟩

/-- Every step keeps the order of the end. -/
lemma Ending.step (a : WdAction) : (s.step a).Ending := by
  cases a with
  | tick us => exact h.setRoutine rfl rfl rfl id
  | routine => exact h.routineStep
  | client t allocated => exact h.clientStep t allocated
  | request t r =>
    change (s.request t r).Ending
    unfold WdSvc.request
    split
    · exact h.move rfl id id id False.elim nofun
    · exact h.move rfl id id id False.elim nofun
    · exact h.move rfl id id id False.elim nofun
    · exact h

end

end End

/-! ## Runs -/

/-- The condition on the steps: while the service is alive there is a node for every job that is
added; and when `deinit` destroys the lock, no client has seen the flag set and is about to take
the lock, and after that `deinit` is not called again. -/
def Fits (s : WdSvc) : WdAction → Prop
  | .client t allocated =>
    match s.clients t with
    | .addInsert _ => s.wdAliveFlag = true → allocated = true
    | .deinitDestroy => ∀ u, ¬ (s.clients u).atLock
    | _ => True
  | .request _ .deinit => s.destroyed = false
  | _ => True

/-- The lock was not taken after it was destroyed, and nobody is about to do so. -/
structure LockSafe (s : WdSvc) : Prop where
  locked : s.lockedDestroyed = false
  client : s.destroyed = true → ∀ t, ¬ (s.clients t).atLock

section LockSafe

variable {s : WdSvc}

section

variable (h : s.LockSafe)
include h

/-- A client moves; it is not at a destroyed lock. -/
lemma LockSafe.move {s' : WdSvc} {t : ℕ} {c : WdClient}
    (hclients : s'.clients = update s.clients t c)
    (hlocked : s'.lockedDestroyed = s.lockedDestroyed) (hdestroyed : s'.destroyed = s.destroyed)
    (hc : s.destroyed = true → ¬ c.atLock) : s'.LockSafe := by
  refine ⟨hlocked.trans h.locked, fun hd u => ?_⟩
  rw [hdestroyed] at hd
  rw [hclients, update_apply]
  split
  · exact hc hd
  · exact h.client hd u

/-- A client takes the lock where it was about to. -/
lemma LockSafe.acquire {t : ℕ} (ht : (s.clients t).atLock) (c : WdClient) :
    (s.acquire (.client t) fun s => s.setClient t c).LockSafe := by
  have hexists : s.destroyed = false := by
    by_contra hd
    exact h.client (by simpa using hd) t ht
  unfold WdSvc.acquire
  split
  · exact h
  · refine ⟨?_, fun hd => ?_⟩
    · rw [h.locked, hexists]
      rfl
    · have := hexists.symm.trans hd
      cases this

/-- The routine never locks a destroyed mutex, for it has returned by then. -/
lemma LockSafe.routineStep (hend : s.Ending) : s.routineStep.LockSafe := by
  unfold WdSvc.routineStep
  split
  case h_2 hpc =>
    have hexists : s.destroyed = false := by
      by_contra hd
      have := hpc.symm.trans (hend.destroyed (by simpa using hd)).2
      cases this
    unfold WdSvc.acquire
    split
    · exact h
    · refine ⟨?_, h.client⟩
      rw [h.locked, hexists]
      rfl
  case h_5 => split <;> exact ⟨h.locked, h.client⟩
  case h_9 => split <;> exact ⟨h.locked, h.client⟩
  all_goals exact ⟨h.locked, h.client⟩

/-- A client that meets the condition never locks a destroyed mutex. -/
lemma LockSafe.clientStep (hend : s.Ending) (t : ℕ) (allocated : Bool)
    (hfits : s.Fits (.client t allocated)) : (s.clientStep t allocated).LockSafe := by
  have hflag (hd : s.destroyed = true) (c c' : WdClient) (hc' : ¬ c'.atLock) :
      ¬ (if s.wdAliveFlag then c else c').atLock := by
    rw [(hend.destroyed hd).1]
    exact hc'
  unfold WdSvc.clientStep
  split
  · exact h
  · exact h.move rfl rfl rfl fun hd => hflag hd _ _ id
  · rename_i hpc
    exact h.acquire (by rw [hpc]; trivial) _
  · exact h.move rfl rfl rfl fun _ => id
  · exact h.move rfl rfl rfl fun _ => id
  · exact h.move rfl rfl rfl fun hd => hflag hd _ _ id
  · rename_i hpc
    exact h.acquire (by rw [hpc]; trivial) _
  · exact h.move rfl rfl rfl fun _ => id
  · exact h.move rfl rfl rfl fun _ => id
  · rename_i hpc
    exact h.acquire (by rw [hpc]; trivial) _
  · exact h.move rfl rfl rfl fun _ => id
  · exact h.move rfl rfl rfl fun _ => id
  · exact h.move rfl rfl rfl fun _ => id
  · exact h.move rfl rfl rfl fun _ => id
  · split
    · exact h.move rfl rfl rfl fun _ => id
    · exact h.move rfl rfl rfl fun _ => id
    · exact h
  · rename_i hpc
    simp only [Fits, hpc] at hfits
    refine ⟨h.locked, fun _ u => ?_⟩
    rw [clients_setClient]
    split
    · exact id
    · exact hfits u

/-- A step that meets the condition locks no destroyed mutex. -/
lemma LockSafe.step (hend : s.Ending) {a : WdAction} (hfits : s.Fits a) : (s.step a).LockSafe := by
  cases a with
  | tick us => exact ⟨h.locked, h.client⟩
  | routine => exact h.routineStep hend
  | client t allocated => exact h.clientStep hend t allocated hfits
  | request t r =>
    change (s.request t r).LockSafe
    unfold WdSvc.request
    split
    · exact h.move rfl rfl rfl fun _ => id
    · exact h.move rfl rfl rfl fun _ => id
    · refine h.move rfl rfl rfl fun hd => ?_
      have := hfits.symm.trans hd
      cases this
    · exact h

end

end LockSafe

/-- What the service promises: while it is alive every job whose add was reported as successful is
in its list until it was removed or its function was called; a function is called for an open add
and not before its time; the routine does not wait with a job in its list and the signal cleared;
and nobody has taken the lock after it was destroyed. -/
structure Supervises (s : WdSvc) : Prop where
  kept : s.wdAliveFlag = true → ∀ job, s.armed job ≤ s.jobList.count job
  calls : ∀ c ∈ s.calls, 0 < c.armed ∧ c.timeoutUs ≤ c.time
  woken : s.routine = .wait → s.signal = false → s.jobList = []
  locked : s.lockedDestroyed = false

/-- The invariants together. -/
structure Good (s : WdSvc) : Prop where
  exclusive : s.Exclusive
  knows : s.RoutineKnows
  listed : s.Listed
  kept : s.Kept
  rightful : s.Rightful
  ending : s.Ending
  lockSafe : s.LockSafe

/-- A good state supervises as the service promises. -/
lemma Good.supervises {s : WdSvc} (h : s.Good) : s.Supervises :=
  ⟨h.kept, h.rightful, h.knows.wait, h.lockSafe.locked⟩

/-- A step that meets the condition keeps the state good. -/
lemma Good.step {s : WdSvc} (h : s.Good) {a : WdAction} (hfits : s.Fits a) : (s.step a).Good where
  exclusive := h.exclusive.step a
  knows := h.knows.step h.exclusive a
  listed := h.listed.step a
  kept := h.kept.step fun t job ha hpc => by
    subst ha
    simp only [Fits, hpc] at hfits
    by_contra halive
    have := hfits (by simpa using halive)
    cases this
  rightful := h.rightful.step h.knows h.listed a
  ending := h.ending.step a
  lockSafe := h.lockSafe.step h.ending hfits

lemma good_init : init.Good where
  exclusive := ⟨False.elim, fun _ => False.elim⟩
  knows := trivial
  listed := fun _ _ => Nat.le_refl _
  kept := fun _ _ => Nat.le_refl _
  rightful := fun _ hc => (not_mem_nil hc).elim
  ending := ⟨fun _ => False.elim, nofun, nofun⟩
  lockSafe := ⟨rfl, nofun⟩

/-- **Without any condition** no function is called without an open add or before its time, and the
routine does not wait with a job in its list and the signal cleared. -/
theorem watchdog_rightful (actions : List WdAction) :
    Along step (fun s => s.Rightful ∧ (s.routine = .wait → s.signal = false → s.jobList = [])) init
      actions := by
  have hall : Along step (fun s => s.Exclusive ∧ s.RoutineKnows ∧ s.Listed ∧ s.Rightful) init
      actions :=
    along_of_meets (fun _ a ⟨hex, hknows, hlisted, hright⟩ _ =>
        ⟨hex.step a, hknows.step hex a, hlisted.step a, hright.step hknows hlisted a⟩)
      ⟨good_init.exclusive, good_init.knows, good_init.listed, good_init.rightful⟩
      (meets_of_forall (fun _ _ => trivial) _ _)
  exact hall.mono fun s ⟨_, hknows, _, hright⟩ => ⟨hright, hknows.wait⟩

/-- **The watchdog service.** In every interleaving in which there are nodes for the jobs and the
lock is destroyed when nobody is about to take it, the service keeps its promise in every state. -/
theorem watchdog_supervises (actions : List WdAction)
    (hfits : Meets step Fits init actions) : Along step Supervises init actions :=
  (along_of_meets (fun _ _ h hf => h.step hf) good_init hfits).mono fun _ h => h.supervises

/-- Client 0 adds the job 7, which times out; then it ends the service. -/
def timeoutThenEnd : List WdAction :=
  [.routine, .request 0 (.addJob 7 100), .client 0 true, .client 0 true, .client 0 true,
    .client 0 true, .tick 150, .routine, .routine, .routine, .routine, .routine, .routine,
    .routine, .request 0 .deinit, .client 0 true, .client 0 true]

theorem watchdog_supervises_timeoutThenEnd : Along step Supervises init timeoutThenEnd :=
  watchdog_supervises timeoutThenEnd
    ⟨trivial, trivial, trivial, trivial, fun _ => rfl, trivial, trivial, trivial, trivial, trivial,
      trivial, trivial, trivial, trivial, rfl, trivial, trivial, trivial⟩

example : (run step init timeoutThenEnd).calls = [⟨7, 100, 150, 1⟩] := by decide

/-- **The claim fails.** There is no node for the job 7, but its add is reported as successful. -/
theorem not_watchdog_supervises :
    ¬ ∀ actions : List WdAction, Along step Supervises init actions := by
  intro h
  have hkept := (h [.request 0 (.addJob 7 100), .client 0 true, .client 0 true,
    .client 0 false]).last.kept rfl 7
  exact absurd hkept (by decide)

end WdSvc

end AudioReach
