import AudioReach.Library.Counting
import AudioReach.Library.Runs
import AudioReach.ThreadPool.Closing
import AudioReach.ThreadPool.Deadlock

/-!
# The jobs of a pool

Every job that was pushed is accounted for: it is in the queue, a worker has taken it from there
and is about to call it, or its function was called.  The number of the push belongs to one job
only, so each job is in one of these places and is called once.

When the last client lets go of a pool, a job that is left in the queue is taken for a message of
the framework: the field that tells the opcode was never set, and the job is ended as a packet or
acknowledged as a message.  `JobFits` says that no job is left there, and that no operation on a
queue falls into the time in which a push with a priority moves its element.  The pools and the
locks need no condition: `PoolsSafe`.
-/

namespace AudioReach

open Library List

/-! ## What is counted -/

namespace TpEvent

/-- The job was pushed. -/
def pushes (p id : ℕ) : TpEvent → Bool
  | .pushed q j => q == p && j == id
  | _ => false

/-- The push has this number. -/
def tries (id : ℕ) : TpEvent → Bool
  | .pushed _ j | .pushFailed _ j => j == id
  | _ => false

/-- A worker takes up the job. -/
def starts (p id : ℕ) : TpEvent → Bool
  | .started q _ j => q == p && j == id
  | _ => false

/-- The function of the job returns. -/
def returns (p id : ℕ) : TpEvent → Bool
  | .returned q _ j _ => q == p && j == id
  | _ => false

end TpEvent

namespace TpInstr

/-- The job is about to be called. -/
def holds (p id : ℕ) : TpInstr → ℕ
  | .callJob q m => if q = p ∧ m.id = id then 1 else 0
  | _ => 0

/-- The function of the job runs. -/
def runs (p id : ℕ) : TpInstr → ℕ
  | .inJob q m => if q = p ∧ m.id = id then 1 else 0
  | _ => 0

end TpInstr

namespace TpState

variable {s : TpState} {t u p id : ℕ} {env : TpEnv} {i j : TpInstr} {rest : List TpInstr}

/-- What the programs of all threads add up to. -/
def tally (f : TpInstr → ℕ) (s : TpState) : ℕ :=
  ∑ u ∈ Finset.range s.numThreads, ((s.code u).map f).sum

/-- How often the job is in the queue. -/
def queued (s : TpState) (p id : ℕ) : ℕ := (s.pools p).queue.countP fun m => m.id == id

/-- No job is left in the queue at the end of a pool, and nobody works on a queue while an element
of it is moved. -/
def jobFits (s : TpState) (t : ℕ) : Bool :=
  match (s.code t).head? with
  | some (.drain p) => (s.pools p).queue.isEmpty
  | some i => i.queues.all fun p => !s.racing t p
  | none => true

/-- No job is left in the queue at the end of a pool, and nobody works on a queue while an element
of it is moved. -/
def JobFits (s : TpState) : TpChoice → Prop
  | .exec t _ => s.jobFits t = true
  | _ => True

/-- What happens before a worker takes up a job, and before the signal of a job is sent. -/
def Ordered (events : List TpEvent) : Prop :=
  ∀ l e l', events = l ++ e :: l' → ∀ p t id, (∀ b, e = .returned p t id b → .started p t id ∈ l) ∧
      (e = .signalled p t id → .returned p t id false ∈ l)

/-- Jobs are run exactly once. -/
structure JobsSound (s : TpState) : Prop where
  once : ∀ p id, s.events.countP (TpEvent.starts p id) ≤ 1
  /-- A job that was pushed is taken up or in the queue, or a worker is about to call it. -/
  kept : ∀ p id, .pushed p id ∈ s.events → (∃ t, .started p t id ∈ s.events) ∨
    (∃ m ∈ (s.pools p).queue, m.id = id) ∨ ∃ t m, .callJob p m ∈ s.code t ∧ m.id = id
  /-- A pool that is freed has no worker at work, and its jobs are taken up or in the queue. -/
  freed : ∀ p, (s.pools p).freed = true → (∀ t, ∀ i ∈ s.code t, i.workerPool ≠ some p) ∧
    ∀ id, .pushed p id ∈ s.events →
      (∃ t, .started p t id ∈ s.events) ∨ ∃ m ∈ (s.pools p).queue, m.id = id
  failed : ∀ p id, .pushFailed p id ∈ s.events → ∀ q t, .started q t id ∉ s.events
  /-- The signal of a job is sent after its function returned. -/
  ordered : Ordered s.events
  /-- The signal is not sent when the function returned `AR_ETERMINATED`. -/
  terminated : ∀ p t id, .returned p t id true ∈ s.events → ∀ u, .signalled p u id ∉ s.events
  untouched : ∀ p id, .endedAsGpr p id ∉ s.events ∧ .ackedAsMsg p id ∉ s.events

/-! ## The programs -/

/-- What a step of a thread does to a sum over the programs. -/
lemma tally_step {f : TpInstr → ℕ} (hlocked : s.Locked) (hcode : s.code t = i :: rest)
    (hworker : ∀ p, ((workerCode p).map f).sum = 0) (env : TpEnv) :
    tally f ((s.after t env i).setCode t (s.next t env i ++ rest)) + f i =
      tally f s + ((s.next t env i).map f).sum := by
  have ht := hlocked.lt_numThreads hcode
  have hnum : ((s.after t env i).setCode t (s.next t env i ++ rest)).numThreads =
      (s.after t env i).numThreads := rfl
  have hold : ∑ u ∈ Finset.range s.numThreads,
      ((((s.after t env i).setCode t (s.next t env i ++ rest)).code u).map f).sum + f i =
      tally f s + ((s.next t env i).map f).sum := by
    have hsum := sum_range_except (f := fun u => ((s.code u).map f).sum) (g := fun u =>
        ((((s.after t env i).setCode t (s.next t env i ++ rest)).code u).map f).sum) ht ?_
    · simp only [code_step, if_true, hcode, map_cons, sum_cons, map_append, sum_append] at hsum
      simp only [code_step, tally]
      omega
    · intro u hu hut
      simp only [code_step, if_neg hut, if_neg (Nat.ne_of_lt hu)]
  rw [tally, hnum, numThreads_after]
  cases hl : launches env i with
  | none => simpa using hold
  | some q =>
    simp only [Option.isSome_some, if_true]
    rw [Finset.sum_range_succ]
    have hlast : ((((s.after t env i).setCode t (s.next t env i ++ rest)).code
        s.numThreads).map f).sum = 0 := by
      rw [code_step, if_neg (by omega), if_pos rfl, hl]
      exact hworker q
    rw [hlast, Nat.add_zero]
    exact hold

/-- A call without such instructions does not change the tally. -/
lemma tally_call {f : TpInstr → ℕ} (c : TpCall) (hc : (c.code.map f).sum = 0) :
    tally f (s.call c) = tally f s := by
  change ∑ u ∈ Finset.range (s.numThreads + 1), _ = _
  rw [Finset.sum_range_succ, code_call, if_pos rfl, hc, Nat.add_zero]
  apply Finset.sum_congr rfl
  intro u hu
  rw [code_call, if_neg (Nat.ne_of_lt (Finset.mem_range.mp hu))]

/-! ## Steps of a thread that fits -/

/-- What an instruction does to the jobs, when no job is left at the end of a pool. -/
def emits (s : TpState) (t : ℕ) (env : TpEnv) : TpInstr → List TpEvent
  | .pushBack p job _ =>
    if (s.pools p).clientRefCounter = 0 then []
    else if s.pushFits env p job then [.pushed p s.nextId] else [.pushFailed p s.nextId]
  | .callJob p m => [.started p t m.id]
  | .inJob p m => [.returned p t m.id env.terminated]
  | .finishJob p m => if m.job.jobSignalPtr then [.signalled p t m.id] else []
  | _ => []

/-- A drain that meets the condition finds the queue empty. -/
lemma queue_of_jobFits (hcode : s.code t = .drain p :: rest) (hfits : s.jobFits t = true) :
    (s.pools p).queue = [] := by
  rw [jobFits, hcode] at hfits
  exact List.isEmpty_iff.mp hfits

/-- An operation that meets the condition does not race. -/
lemma racing_of_jobFits (hcode : s.code t = i :: rest) (hfits : s.jobFits t = true)
    (hi : i.queues = some p) (hdrain : ∀ q, i ≠ .drain q) : s.racing t p = false := by
  rw [jobFits, hcode] at hfits
  cases i with
  | drain q => exact absurd rfl (hdrain q)
  | pushBack _ _ _ | reorder _ | popFront _ => 
    cases hi
    simpa [TpInstr.queues] using hfits
  | _ => cases hi

/-- The events of an instruction are appended. -/
lemma events_after (hcode : s.code t = i :: rest) (hfits : s.jobFits t = true) :
    (s.after t env i).events = s.events ++ s.emits t env i := by
  cases i with
  | drain q =>
    have hqueue := queue_of_jobFits hcode hfits
    simp [after, hqueue, emits]
  | pushBack q job prio =>
    simp only [after, emits]
    repeat' split
    all_goals first | rfl | simp
  | finishJob q m =>
    simp only [after, emits]
    split
    · rfl
    · simp
  | callJob _ _ | inJob _ _ => rfl
  | _ =>
    simp only [after, emits, append_nil]
    repeat' split
    all_goals rfl

/-- Without a race the queue is what the operation leaves. -/
lemma queue_putQueue (hrace : s.racing t p = false) (q : List TpMsg) (r : ℕ) :
    ((s.putQueue t env p q).pools r).queue = if r = p then q else (s.pools r).queue := by
  rw [putQueue, pools_updPool, hrace]
  split <;> rfl

/-- Moving the last element loses nothing. -/
lemma moveLast_perm (place : ℕ) (q : List TpMsg) : (moveLast place q).Perm q := by
  rw [moveLast]
  cases hlast : q.getLast? with
  | none =>
    rw [getLast?_eq_none_iff.mp hlast]
  | some m =>
    have hq : q = q.dropLast ++ [m] := (dropLast_append_getLast? m hlast).symm
    have hmiddle : (q.dropLast.take place ++ m :: q.dropLast.drop place).Perm (m :: q.dropLast) := by
      refine perm_middle.trans ?_
      rw [take_append_drop]
    exact hmiddle.trans ((perm_append_singleton m _).symm.trans (.of_eq hq.symm))

/-- Only a pop leads to a job being called. -/
lemma sum_holds_next (hi : ∀ q, i ≠ .popFront q) :
    ((s.next t env i).map (TpInstr.holds p id)).sum = 0 := by
  fun_cases next s t env i
  case case11 q l => fun_cases launchCont q l env.launched <;> simp [releaseCode, TpInstr.holds]
  case case2 a b _ _ =>
    fun_cases newPoolCode s.numPools env.listed a b <;>
      simp [updateInternalCode, releaseCode, TpInstr.holds]
  all_goals first
    | exact absurd rfl (hi _)
    | simp [updateInternalCode, releaseCode, getCode, launchCode, relaunchCode, TpInstr.holds]

/-- Only calling a job leads to its function running. -/
lemma sum_runs_next (hi : ∀ q m, i ≠ .callJob q m) :
    ((s.next t env i).map (TpInstr.runs p id)).sum = 0 := by
  fun_cases next s t env i
  case case11 q l => fun_cases launchCont q l env.launched <;> simp [releaseCode, TpInstr.runs]
  case case2 a b _ _ =>
    fun_cases newPoolCode s.numPools env.listed a b <;>
      simp [updateInternalCode, releaseCode, TpInstr.runs]
  all_goals first
    | exact absurd rfl (hi _ _)
    | simp [updateInternalCode, releaseCode, getCode, launchCode, relaunchCode, TpInstr.runs]

/-- The queue of a pool that was not created is empty. -/
def QueueFresh (s : TpState) : Prop := ∀ p, s.numPools ≤ p → (s.pools p).queue = []

/-- An instruction moves a job from one place to the next. -/
lemma job_after (hfresh : s.QueueFresh) (hcode : s.code t = i :: rest)
    (hfits : s.jobFits t = true) (env : TpEnv) (p id : ℕ) :
    (s.after t env i).queued p id + ((s.next t env i).map (TpInstr.holds p id)).sum +
        (s.emits t env i).countP (TpEvent.starts p id) =
      s.queued p id + i.holds p id + (s.emits t env i).countP (TpEvent.pushes p id) := by
  -- an instruction that leaves the queues and the jobs as they are
  have hkeep : (s.after t env i).queued p id = s.queued p id → (∀ q, i ≠ .popFront q) →
      i.holds p id = 0 → (s.emits t env i).countP (TpEvent.starts p id) = 0 →
      (s.emits t env i).countP (TpEvent.pushes p id) = 0 →
      (s.after t env i).queued p id + ((s.next t env i).map (TpInstr.holds p id)).sum +
          (s.emits t env i).countP (TpEvent.starts p id) =
        s.queued p id + i.holds p id + (s.emits t env i).countP (TpEvent.pushes p id) := by
    intro hqueued hpop hholds hstarts hpushes
    rw [hqueued, sum_holds_next hpop, hholds, hstarts, hpushes]
  cases i with
  | getBody a b =>
    refine hkeep ?_ (by simp) rfl rfl rfl
    by_cases hp : p = s.numPools
    · subst hp
      have hnil := hfresh s.numPools (le_refl _)
      simp only [after]
      repeat' split
      · rw [queued, field_updPool TpPool.queue]
        · rfl
        · exact fun _ => rfl
      · simp [queued, addPool, hnil]
      · rfl
    · rw [queued, queue_after (fun _ => hp) rfl, queued]
  | drain q =>
    have hqueue := queue_of_jobFits hcode hfits
    refine hkeep ?_ (by simp) rfl rfl rfl
    simp [after, hqueue]
  | pushBack q job prio =>
    have hrace := racing_of_jobFits hcode hfits rfl (by simp)
    by_cases hzero : (s.pools q).clientRefCounter = 0
    · refine hkeep ?_ (by simp) rfl ?_ ?_
      all_goals simp [after, emits, hzero]
    by_cases hpush : s.pushFits env q job
    · obtain ⟨job', rfl⟩ : ∃ job', job = some job' := by
        rw [pushFits, Bool.and_eq_true, Bool.and_eq_true] at hpush
        exact Option.isSome_iff_exists.mp hpush.1.1
      rw [sum_holds_next (by simp)]
      have hqueue : ((s.after t env (.pushBack q (some job') prio)).pools p).queue =
          if p = q then (s.pools q).queue ++ [⟨s.nextId, job', env.opcode⟩]
          else (s.pools p).queue := by
        simp only [after, if_neg hzero, if_pos hpush]
        exact queue_putQueue hrace _ p
      simp only [queued, hqueue, emits, if_neg hzero, if_pos hpush]
      by_cases hpq : p = q
      · subst hpq
        simp [TpEvent.starts, TpEvent.pushes, TpInstr.holds, countP_append]
      · simp [TpEvent.starts, TpEvent.pushes, TpInstr.holds, hpq, Ne.symm hpq]
    · refine hkeep ?_ (by simp) rfl ?_ ?_
      all_goals simp [after, emits, hzero, hpush, queued, log, TpEvent.starts, TpEvent.pushes]
  | reorder q =>
    have hrace := racing_of_jobFits hcode hfits rfl (by simp)
    refine hkeep ?_ (by simp) rfl rfl rfl
    rw [queued, after, queue_putQueue hrace]
    split
    · rename_i hpq
      subst hpq
      exact (moveLast_perm _ _).countP_eq _
    · rfl
  | popFront q =>
    have hrace := racing_of_jobFits hcode hfits rfl (by simp)
    rw [queued, after, queue_putQueue hrace]
    cases hqueue : (s.pools q).queue with
    | nil =>
      by_cases hpq : p = q
      · subst hpq
        simp [queued, next, hqueue, TpInstr.holds, emits]
      · simp [queued, next, hqueue, TpInstr.holds, emits, hpq]
    | cons m ms =>
      by_cases hpq : p = q
      · subst hpq
        simp [queued, next, hqueue, TpInstr.holds, emits, countP_cons]
      · simp [queued, next, hqueue, TpInstr.holds, emits, hpq, Ne.symm hpq]
  | callJob q m =>
    rw [sum_holds_next (by simp)]
    by_cases hm : q = p ∧ m.id = id
    · obtain ⟨rfl, rfl⟩ := hm
      simp [after, log, queued, emits, TpEvent.starts, TpEvent.pushes, TpInstr.holds]
    · simp [after, log, queued, emits, TpEvent.starts, TpEvent.pushes, TpInstr.holds, hm]
  | inJob q m => exact hkeep rfl (by simp) rfl rfl rfl
  | finishJob q m =>
    refine hkeep ?_ (by simp) rfl ?_ ?_
    all_goals
      simp only [after, emits]
      split
      all_goals rfl
  | _ =>
    refine hkeep ?_ (by simp) rfl rfl rfl
    rw [queued, queue_after (by simp) rfl, queued]

/-- A function returns no more often than it was started. -/
lemma call_after (s : TpState) (t : ℕ) (env : TpEnv) (i : TpInstr) (p id : ℕ) :
    (s.emits t env i).countP (TpEvent.returns p id) +
      ((s.next t env i).map (TpInstr.runs p id)).sum ≤
    i.runs p id + (s.emits t env i).countP (TpEvent.starts p id) := by
  cases i with
  | callJob q m =>
    simp only [emits, next]
    split
    · simp [TpEvent.returns, TpEvent.starts, TpInstr.runs]
    · simp [TpEvent.returns]
  | inJob q m =>
    rw [sum_runs_next (by simp)]
    simp [emits, TpEvent.returns, TpEvent.starts, TpInstr.runs]
  | _ =>
    rw [sum_runs_next (by simp)]
    simp only [emits]
    repeat' split
    all_goals simp [TpEvent.returns]

/-- Only a push takes an id. -/
lemma nextId_after (hi : ∀ q job prio, i ≠ .pushBack q job prio) :
    (s.after t env i).nextId = s.nextId := by
  cases i with
  | pushBack q job prio => exact absurd rfl (hi q job prio)
  | _ =>
    simp only [after]
    repeat' split
    all_goals rfl

/-- A push takes an id if the pool has clients. -/
lemma nextId_pushBack {job : Option TpJob} {prio : UInt32} :
    (s.after t env (.pushBack p job prio)).nextId =
      if (s.pools p).clientRefCounter = 0 then s.nextId else s.nextId + 1 := by
  simp only [after]
  split
  · rfl
  · split
    · rfl
    · rfl

/-- Every push gets a number of its own. -/
lemma number_after (s : TpState) (t : ℕ) (env : TpEnv) (i : TpInstr) (id : ℕ) :
    (s.emits t env i).countP (TpEvent.tries id) + (if id < s.nextId then 1 else 0) =
      if id < (s.after t env i).nextId then 1 else 0 := by
  cases i with
  | pushBack q job prio =>
    rw [nextId_pushBack]
    simp only [emits]
    by_cases hzero : (s.pools q).clientRefCounter = 0
    · simp [hzero]
    · by_cases hid : s.nextId = id
      · by_cases hpush : s.pushFits env q job
        · simp [hzero, hpush, TpEvent.tries, hid]
        · simp [hzero, hpush, TpEvent.tries, hid]
      · have hlt : id < s.nextId + 1 ↔ id < s.nextId := by omega
        by_cases hpush : s.pushFits env q job
        · simp [hzero, hpush, TpEvent.tries, hid, hlt]
        · simp [hzero, hpush, TpEvent.tries, hid, hlt]
  | finishJob q m =>
    rw [nextId_after (by simp)]
    simp only [emits]
    split
    all_goals simp [TpEvent.tries]
  | _ =>
    rw [nextId_after (by simp)]
    simp [emits, TpEvent.tries]

/-! ## The accounts -/

/-- Where the jobs are. -/
structure Accounts (s : TpState) : Prop where
  /-- The queue of a pool that was not created is empty. -/
  fresh : s.QueueFresh
  /-- A job that was pushed is in the queue, about to be called, or was called. -/
  job : ∀ p id, s.events.countP (TpEvent.pushes p id) =
    s.queued p id + tally (TpInstr.holds p id) s + s.events.countP (TpEvent.starts p id)
  call : ∀ p id, s.events.countP (TpEvent.returns p id) + tally (TpInstr.runs p id) s ≤
    s.events.countP (TpEvent.starts p id)
  number : ∀ id, s.events.countP (TpEvent.tries id) = if id < s.nextId then 1 else 0
  /-- A worker that runs the function of a job took up the job. -/
  inJob : ∀ t p m, .inJob p m ∈ s.code t → .started p t m.id ∈ s.events
  /-- A worker that is done with a job was told the result. -/
  finishJob : ∀ t p m, .finishJob p m ∈ s.code t → .returned p t m.id false ∈ s.events
  ordered : Ordered s.events
  untouched : ∀ p id, .endedAsGpr p id ∉ s.events ∧ .ackedAsMsg p id ∉ s.events

/-- The accounts are right at first. -/
lemma accounts_init : init.Accounts where
  fresh := fun _ _ => rfl
  job := fun _ _ => rfl
  call := fun _ _ => le_refl _
  number := fun _ => rfl
  inJob := fun _ _ _ h => absurd h not_mem_nil
  finishJob := fun _ _ _ h => absurd h not_mem_nil
  ordered := by
    intro l e l' h
    simp [init] at h
  untouched := fun _ _ => ⟨not_mem_nil, not_mem_nil⟩

/-- One more event keeps the order if what must precede it did. -/
lemma Ordered.append {events new : List TpEvent} (h : Ordered events) (hone : new.length ≤ 1)
    (hnew : ∀ e ∈ new, ∀ p t id, (∀ b, e = .returned p t id b → .started p t id ∈ events) ∧
      (e = .signalled p t id → .returned p t id false ∈ events)) : Ordered (events ++ new) := by
  cases new with
  | nil =>
    rw [append_nil]
    exact h
  | cons e new =>
    obtain rfl : new = [] := by
      rw [length_cons] at hone
      exact eq_nil_of_length_eq_zero (by omega)
    intro l e' l' heq
    rcases eq_nil_or_concat l' with rfl | ⟨l'', x, rfl⟩
    · obtain ⟨rfl, he⟩ := append_inj' heq rfl
      cases he
      exact hnew e mem_cons_self
    · rw [concat_eq_append, ← cons_append, ← append_assoc] at heq
      obtain ⟨hl, -⟩ := append_inj' heq rfl
      exact h l e' l'' hl

/-- An instruction has at most one event. -/
lemma length_emits : (s.emits t env i).length ≤ 1 := by
  cases i with
  | pushBack _ _ _ | finishJob _ _ =>
    simp only [emits]
    repeat' split
    all_goals simp
  | _ => simp [emits]

/-- The queue of a pool that was not created stays empty. -/
lemma QueueFresh.after (h : s.QueueFresh) (hstaffed : s.Staffed) (hcode : s.code t = i :: rest)
    (hfits : s.jobFits t = true) : (s.after t env i).QueueFresh := by
  intro p hp
  have hge : s.numPools ≤ p := le_trans (numPools_after s t env i) hp
  have hold := h p hge
  have hi : i ∈ s.code t := by
    rw [hcode]
    exact mem_cons_self
  cases i with
  | getBody a b =>
    simp only [TpState.after] at hp ⊢
    repeat' split
    · rw [field_updPool TpPool.queue]
      · exact hold
      · exact fun _ => rfl
    · rename_i hfound hcreated
      simp only [hfound, hcreated, if_true] at hp
      change s.numPools + 1 ≤ p at hp
      have hne : p ≠ s.numPools := by omega
      simpa [addPool, hne] using hold
    · exact hold
  | pushBack q job prio =>
    have hrace := racing_of_jobFits hcode hfits rfl (by simp)
    simp only [TpState.after]
    repeat' split
    · exact hold
    · rename_i hpos _
      change ((s.putQueue t env q _).pools p).queue = []
      rw [queue_putQueue hrace, if_neg]
      · exact hold
      · rintro rfl
        exact hpos (hstaffed.ref_fresh p hge)
    · exact hold
  | drain q =>
    have hqueue := queue_of_jobFits hcode hfits
    simpa [TpState.after, hqueue] using hold
  | reorder q =>
    have hrace := racing_of_jobFits hcode hfits rfl (by simp)
    rw [TpState.after, queue_putQueue hrace]
    split
    · rename_i hpq
      rw [← hpq, hold]
      rfl
    · exact hold
  | popFront q =>
    have hrace := racing_of_jobFits hcode hfits rfl (by simp)
    rw [TpState.after, queue_putQueue hrace, if_neg]
    · exact hold
    · rintro rfl
      have := hstaffed.uses_lt t _ hi p rfl
      omega
  | _ =>
    rw [queue_after (by simp) rfl]
    exact hold

/-- A function runs when it was called. -/
lemma inJob_next {m : TpMsg} (h : .inJob p m ∈ s.next t env i) : i = .callJob p m := by
  revert h
  fun_cases next s t env i
  case case11 q l => fun_cases launchCont q l env.launched <;> simp [releaseCode]
  case case2 a b _ _ =>
    fun_cases newPoolCode s.numPools env.listed a b <;> simp [updateInternalCode, releaseCode]
  all_goals simp +contextual [updateInternalCode, releaseCode, getCode, launchCode, relaunchCode]

/-- The result of a job is stored when its function returned, and not with `AR_ETERMINATED`. -/
lemma finishJob_next {m : TpMsg} (h : .finishJob p m ∈ s.next t env i) :
    i = .inJob p m ∧ env.terminated = false := by
  revert h
  fun_cases next s t env i
  case case11 q l => fun_cases launchCont q l env.launched <;> simp [releaseCode]
  case case2 a b _ _ =>
    fun_cases newPoolCode s.numPools env.listed a b <;> simp [updateInternalCode, releaseCode]
  case case39 hterm => simp +contextual [hterm]
  all_goals simp +contextual [updateInternalCode, releaseCode, getCode, launchCode, relaunchCode]

/-- A call of a client keeps the accounts. -/
lemma Accounts.call_step (h : s.Accounts) (c : TpCall) : (s.call c).Accounts := by
  have hjobs : ∀ j ∈ c.code, j.workerPool = none := fun j hj =>
    workerPool_of_usesPool (usesPool_call c j hj)
  refine ⟨h.fresh, ?_, ?_, h.number, ?_, ?_, h.ordered, h.untouched⟩
  · intro p id
    rw [tally_call c (by cases c <;> simp [TpCall.code, getCode, releaseCode, TpInstr.holds])]
    exact h.job p id
  · intro p id
    rw [tally_call c (by cases c <;> simp [TpCall.code, getCode, releaseCode, TpInstr.runs])]
    exact h.call p id
  · intro u p m hm
    rcases mem_code_call hm with hnew | hold
    · cases hjobs _ hnew
    · exact h.inJob u p m hold
  · intro u p m hm
    rcases mem_code_call hm with hnew | hold
    · cases hjobs _ hnew
    · exact h.finishJob u p m hold

/-- The accounts after a step of a thread. -/
lemma Accounts.exec_step (h : s.Accounts) (hlocked : s.Locked) (hstaffed : s.Staffed)
    (hcode : s.code t = i :: rest) (hfits : s.jobFits t = true) :
    ((s.after t env i).setCode t (s.next t env i ++ rest)).Accounts := by
  have hi : i ∈ s.code t := by
    rw [hcode]
    exact mem_cons_self
  have hevents : ((s.after t env i).setCode t (s.next t env i ++ rest)).events =
      s.events ++ s.emits t env i := events_after hcode hfits
  refine ⟨h.fresh.after hstaffed hcode hfits, ?_, ?_, ?_, ?_, ?_, ?_, ?_⟩
  · intro p id
    have hbefore := h.job p id
    have hmove := job_after h.fresh hcode hfits env p id
    have htally := tally_step (f := TpInstr.holds p id) hlocked hcode (fun _ => rfl) env
    rw [hevents, countP_append, countP_append]
    change _ = (s.after t env i).queued p id + _ + _
    omega
  · intro p id
    have hbefore := h.call p id
    have hmove := call_after s t env i p id
    have htally := tally_step (f := TpInstr.runs p id) hlocked hcode (fun _ => rfl) env
    rw [hevents, countP_append, countP_append]
    omega
  · intro id
    have hbefore := h.number id
    rw [hevents, countP_append, hbefore, Nat.add_comm]
    exact number_after s t env i id
  · intro u p m hm
    rw [hevents]
    rcases mem_code_step hcode hm with ⟨rfl, hnew⟩ | hold | ⟨q, -, hnew⟩
    · obtain rfl := inJob_next hnew
      exact mem_append_right _ mem_cons_self
    · exact mem_append_left _ (h.inJob u p m hold)
    · simp [workerCode] at hnew
  · intro u p m hm
    rw [hevents]
    rcases mem_code_step hcode hm with ⟨rfl, hnew⟩ | hold | ⟨q, -, hnew⟩
    · obtain ⟨rfl, hterm⟩ := finishJob_next hnew
      rw [emits, hterm]
      exact mem_append_right _ mem_cons_self
    · exact mem_append_left _ (h.finishJob u p m hold)
    · simp [workerCode] at hnew
  · rw [hevents]
    refine h.ordered.append length_emits ?_
    intro e he p u id
    cases i with
    | inJob q m =>
      rw [emits, mem_singleton] at he
      subst he
      refine ⟨?_, by simp⟩
      intro b heq
      cases heq
      exact h.inJob t _ m hi
    | finishJob q m =>
      simp only [emits] at he
      split at he
      · rw [mem_singleton] at he
        subst he
        refine ⟨by simp, ?_⟩
        intro heq
        cases heq
        exact h.finishJob t _ m hi
      · cases he
    | callJob q m =>
      rw [emits, mem_singleton] at he
      subst he
      simp
    | pushBack q job prio =>
      simp only [emits] at he
      repeat' split at he
      · cases he
      · rw [mem_singleton] at he
        subst he
        simp
      · rw [mem_singleton] at he
        subst he
        simp
    | _ => cases he
  · intro p id
    rw [hevents, mem_append, mem_append, not_or, not_or]
    have hnone : .endedAsGpr p id ∉ s.emits t env i ∧ .ackedAsMsg p id ∉ s.emits t env i := by
      cases i with
      | pushBack _ _ _ | finishJob _ _ =>
        simp only [emits]
        repeat' split
        all_goals simp
      | _ => simp [emits]
    exact ⟨⟨(h.untouched p id).1, hnone.1⟩, (h.untouched p id).2, hnone.2⟩

/-- The accounts are right after every step that meets the condition. -/
lemma Accounts.step (h : s.Accounts) (hlocked : s.Locked) (hstaffed : s.Staffed) {c : TpChoice}
    (hfits : s.JobFits c) : (s.step c).Accounts := by
  rcases step_cases s c with hsame | ⟨call, hcall⟩ | ⟨t, env, i, rest, rfl, hcode, -, hstep⟩
  · rw [hsame]
    exact h
  · rw [hcall]
    exact h.call_step call
  · rw [hstep]
    exact h.exec_step hlocked hstaffed hcode hfits

/-! ## Jobs are run once -/

/-- A job is started at most as often as it was pushed. -/
lemma Accounts.starts_le (h : s.Accounts) (p id : ℕ) :
    s.events.countP (TpEvent.starts p id) ≤ s.events.countP (TpEvent.pushes p id) := by
  have := h.job p id
  omega

/-- An id is tried at most once. -/
lemma Accounts.tries_le (h : s.Accounts) (id : ℕ) : s.events.countP (TpEvent.tries id) ≤ 1 := by
  rw [h.number id]
  split
  · exact le_refl _
  · exact Nat.zero_le _

/-- A job is started at most once. -/
lemma Accounts.starts_le_one (h : s.Accounts) (p id : ℕ) :
    s.events.countP (TpEvent.starts p id) ≤ 1 :=
  calc s.events.countP (TpEvent.starts p id)
      ≤ s.events.countP (TpEvent.pushes p id) := h.starts_le p id
    _ ≤ s.events.countP (TpEvent.tries id) := by
        apply countP_mono_left
        intro e _ he
        cases e with
        | pushed q j => exact (Bool.and_eq_true_iff.mp he).2
        | _ => cases he
    _ ≤ 1 := h.tries_le id

/-- A tally that is not zero has a thread that holds the job. -/
lemma exists_callJob (h : 0 < tally (TpInstr.holds p id) s) :
    ∃ t m, .callJob p m ∈ s.code t ∧ m.id = id := by
  obtain ⟨t, -, ht⟩ := Finset.exists_ne_zero_of_sum_ne_zero (Nat.ne_of_gt h)
  have hne : ∃ j ∈ s.code t, j.holds p id ≠ 0 := by
    by_contra hnone
    push Not at hnone
    apply ht
    apply sum_eq_zero
    intro x hx
    obtain ⟨j, hj, rfl⟩ := mem_map.mp hx
    exact hnone j hj
  obtain ⟨j, hj, hpos⟩ := hne
  cases j with
  | callJob q m =>
    by_cases hm : q = p ∧ m.id = id
    · exact ⟨t, m, hm.1 ▸ hj, hm.2⟩
    · simp [TpInstr.holds, hm] at hpos
  | _ => exact absurd rfl hpos

/-- A job that was pushed is called, or in the queue, or about to be called. -/
lemma Accounts.kept (h : s.Accounts) (hpushed : .pushed p id ∈ s.events) :
    (∃ t, .started p t id ∈ s.events) ∨ (∃ m ∈ (s.pools p).queue, m.id = id) ∨
      ∃ t m, .callJob p m ∈ s.code t ∧ m.id = id := by
  have hjob := h.job p id
  have hpos : 0 < s.events.countP (TpEvent.pushes p id) :=
    countP_pos_iff.mpr ⟨_, hpushed, by simp [TpEvent.pushes]⟩
  by_cases hstarts : 0 < s.events.countP (TpEvent.starts p id)
  · left
    obtain ⟨e, he, hmatch⟩ := countP_pos_iff.mp hstarts
    cases e with
    | started q t j =>
      obtain ⟨rfl, rfl⟩ : q = p ∧ j = id := by simpa [TpEvent.starts] using hmatch
      exact ⟨t, he⟩
    | _ => cases hmatch
  by_cases hqueued : 0 < s.queued p id
  · right
    left
    obtain ⟨m, hm, hid⟩ := countP_pos_iff.mp hqueued
    exact ⟨m, hm, by simpa using hid⟩
  · right
    right
    exact exists_callJob (by omega)

/-- No thread works in a pool that is freed. -/
lemma Closing.workerPool_ne (h : s.Closing) (hstaffed : s.Staffed)
    (hfreed : (s.pools p).freed = true) (hj : j ∈ s.code t) : j.workerPool ≠ some p := by
  intro hpool
  have hmem := hstaffed.member t p (hstaffed.own t j hj p hpool) (ne_nil_of_mem hj)
  rw [(h.freed p hfreed).2.2] at hmem
  cases hmem

/-- What the accounts say about the jobs. -/
lemma Accounts.jobsSound (h : s.Accounts) (hstaffed : s.Staffed) (hclosing : s.Closing) :
    s.JobsSound where
  once := h.starts_le_one
  kept := fun p id hpushed => h.kept hpushed
  freed := by
    intro p hfreed
    refine ⟨fun t i hi => hclosing.workerPool_ne hstaffed hfreed hi, fun id hpushed => ?_⟩
    rcases h.kept hpushed with hstarted | hqueued | ⟨t, m, hm, -⟩
    · exact .inl hstarted
    · exact .inr hqueued
    · exact absurd rfl (hclosing.workerPool_ne hstaffed hfreed hm)
  failed := by
    intro p id hfailed q t hstarted
    have hpos : 0 < s.events.countP (TpEvent.pushes q id) :=
      lt_of_lt_of_le (countP_pos_iff.mpr ⟨_, hstarted, by simp [TpEvent.starts]⟩) (h.starts_le q id)
    obtain ⟨e, he, hmatch⟩ := countP_pos_iff.mp hpos
    cases e with
    | pushed r j =>
      have hj : j = id := (by simpa [TpEvent.pushes] using hmatch : r = q ∧ j = id).2
      have heq := eq_of_countP_le_one (h.tries_le id) hfailed he (by simp [TpEvent.tries])
        (by simp [TpEvent.tries, hj])
      cases heq
    | _ => cases hmatch
  ordered := h.ordered
  terminated := by
    intro p t id hreturned u hsignalled
    obtain ⟨l, l', hl⟩ := append_of_mem hsignalled
    have hfalse : .returned p u id false ∈ s.events := by
      rw [hl]
      exact mem_append_left _ ((h.ordered l _ l' hl p u id).2 rfl)
    have hone : s.events.countP (TpEvent.returns p id) ≤ 1 := by
      have hcall := h.call p id
      have hstarts := h.starts_le_one p id
      omega
    have heq := eq_of_countP_le_one hone hreturned hfalse (by simp [TpEvent.returns])
      (by simp [TpEvent.returns])
    cases heq
  untouched := h.untouched

/-- **Jobs are run exactly once** in every run in which no job is left in the queue when a pool
comes to its end, and nobody works on a queue while a push moves its element. -/
theorem threadPool_jobsSound (calls : List TpChoice) (hfits : Meets step JobFits init calls) :
    Along step JobsSound init calls := by
  have hall : Along step (fun s => s.Locked ∧ s.Staffed ∧ s.Closing ∧ s.Accounts) init calls := by
    refine along_of_meets ?_ ⟨locked_init, staffed_init, closing_init, accounts_init⟩ hfits
    rintro s c ⟨hlocked, hstaffed, hclosing, haccounts⟩ hc
    exact ⟨hlocked.step c, hstaffed.step hlocked c, hclosing.step hlocked hstaffed c,
      haccounts.step hlocked hstaffed hc⟩
  exact hall.mono fun s h => h.2.2.2.jobsSound h.2.1 h.2.2.1

/-! ## The pools -/

/-- One thread at a time works on the pools, and none on a pool that is freed. -/
structure PoolsSafe (s : TpState) : Prop where
  /-- Two threads are never both at an instruction that is carried out under `pool_lock`. -/
  exclusive : ∀ t u i j r r', s.code t = i :: r → s.code u = j :: r' →
    (i.lockUse = .needs ∨ ∃ n, i.lockUse = .gives n) →
    (j.lockUse = .needs ∨ ∃ n, j.lockUse = .gives n) → t = u
  /-- A thread that has ended left no lock behind. -/
  released : ∀ t, s.code t = [] → s.depth t = 0 ∧ ∀ p, (s.pools p).wtSyncLock ≠ some t
  head_nodup : s.poolHead.Nodup
  /-- The kill signal is raised exactly as long as the workers are joined. -/
  killed : ∀ p, (s.pools p).killSignal = true ↔ ∃ t, JoinsCode p (s.code t)
  /-- A freed pool is not found any more; nobody works in it or starts workers for it. -/
  freed : ∀ p, (s.pools p).freed = true → p ∉ s.poolHead ∧ (s.pools p).workers = [] ∧
    ∀ t, ∀ i ∈ s.code t, i.workerPool ≠ some p ∧ i.grows ≠ some p

/-- **The pools are safe in every interleaving** of the calls of clients and the steps of all
threads, whatever allocations fail. -/
theorem threadPool_poolsSafe (calls : List TpChoice) : Along step PoolsSafe init calls := by
  have hall : Along step (fun s => s.Sound ∧ s.Closing) init calls :=
    along_of_meets (fun _ c h _ => ⟨h.1.step c, h.2.step h.1.locked h.1.staffed c⟩)
      ⟨sound_init, closing_init⟩ (meets_of_forall (fun _ _ => trivial) _ _)
  refine hall.mono fun s ⟨hsound, hclosing⟩ => ⟨fun t u i j r r' ht hu hi hj =>
    depth_unique (hsound.locked.depth_needs ht hi) (hsound.locked.depth_needs hu hj),
    fun t ht => ⟨?_, fun p hp => ?_⟩, hclosing.head_nodup, hsound.killing.kill_iff,
    fun p hfreed => ?_⟩
  · have hbal := hsound.locked.bal t
    rwa [ht] at hbal
  · have hholds := hsound.killing.sync p t hp
    rw [ht] at hholds
    simp [HoldsSync] at hholds
  obtain ⟨-, hzero, hnil⟩ := hclosing.freed p hfreed
  refine ⟨fun hp => ?_, hnil, fun t i hi =>
    ⟨hclosing.workerPool_ne hsound.staffed hfreed hi, fun hgrows => ?_⟩⟩
  · exact (hclosing.head_pos p hp).ne' hzero
  · exact (hclosing.grows_pos t i hi p hgrows).ne' hzero

/-! ## Two runs -/

instance (s : TpState) (c : TpChoice) : Decidable (s.JobFits c) :=
  match c with
  | .idle => isTrue trivial
  | .call _ => isTrue trivial
  | .exec t _ => inferInstanceAs (Decidable (s.jobFits t = true))

/-- A client gets a pool with a worker and pushes a job, and the pool is released after the steps
`early` of the worker. -/
def pushAndRelease (early : List ℕ) : List TpChoice :=
  [.call (.get 2048 1)] ++ runThreads (replicate 11 0 ++ replicate 5 1) ++
    [.call (.push 0 (some ⟨true, true⟩) 0)] ++ runThreads [2, 2] ++ runThreads early ++
    [.call (.release 0)] ++
    runThreads (replicate 4 3 ++ replicate 4 1 ++ replicate 12 3)

/-- The worker is done with the job before its pool is released. -/
theorem threadPool_jobsSound_pushAndRelease :
    Along step JobsSound init (pushAndRelease (replicate 8 1)) :=
  threadPool_jobsSound _ (by decide +kernel)

/-- **The claim fails.** A job that is left in the queue is acknowledged as a message. -/
theorem not_threadPool_jobsSound : ¬ ∀ calls : List TpChoice, Along step JobsSound init calls := by
  intro h
  have hsound := (h (pushAndRelease [])).last
  have hacked : .ackedAsMsg 0 0 ∈ (run step init (pushAndRelease [])).events := by decide +kernel
  exact (hsound.untouched 0 0).2 hacked

end TpState

end AudioReach
