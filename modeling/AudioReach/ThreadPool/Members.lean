import AudioReach.ThreadPool.Locking

/-!
# The workers of a pool

A worker that has something to do is in the list of its pool, and the instructions of a worker
are about its own pool.  Pools that were not created have no client, and no instruction is about
them.  What an instruction does to a pool is said field by field: each field is changed by a few
instructions only.
-/

namespace AudioReach

open Function (update)
open List

/-- The pool whose queue the instruction changes. -/
def TpInstr.queues : TpInstr → Option ℕ
  | .drain p | .pushBack p _ _ | .reorder p | .popFront p => some p
  | _ => none

namespace TpState

variable {s : TpState}

/-! ## The fields of the pools -/

/-- The pools after a change of one. -/
lemma pools_updPool (s : TpState) (p q : ℕ) (f : TpPool → TpPool) :
    (s.updPool p f).pools q = if q = p then f (s.pools p) else s.pools q := by
  by_cases h : q = p
  · simp [updPool, h]
  · simp [updPool, h]

/-- A field that the change leaves alone. -/
lemma field_updPool {β : Type} (g : TpPool → β) (f : TpPool → TpPool) (hf : ∀ x, g (f x) = g x)
    (s : TpState) (p q : ℕ) : g ((s.updPool p f).pools q) = g (s.pools q) := by
  rw [pools_updPool]
  split
  · rename_i h
    rw [hf, h]
  · rfl

variable {t p : ℕ} {env : TpEnv} {i : TpInstr}

/-- A part of the pools that an instruction leaves as it is: each field is changed by a few
instructions only. -/
lemma field_after {β : Type} (g : TpPool → β) (hp : (∃ a b, i = .getBody a b) → p ≠ s.numPools)
    (hqueue : (∃ q, i.queues = some q) → ∀ x q, g { x with queue := q } = g x)
    (hfreed : (∃ q, i = .destroy q) → ∀ x b, g { x with freed := b } = g x)
    (hcount : ((∃ a b, i = .getBody a b) ∨ ∃ q, i = .releaseBody q) →
      ∀ x n, g { x with clientRefCounter := n } = g x)
    (hstack : (∃ q a b, i = .updateInternalBody q a b) →
      ∀ x n, g { x with reqStackSize := n } = g x)
    (hworkers : ((∃ q l, i = .launch q l) ∨ ∃ q w, i = .join q w) →
      ∀ x ws, g { x with workers := ws } = g x)
    (hkill : ((∃ q, i = .sendKill q) ∨ ∃ q, i = .joinAll q) →
      ∀ x b, g { x with killSignal := b } = g x)
    (hsync : ((∃ q, i = .lockSync q) ∨ ∃ q, i = .unlockSync q) →
      ∀ x o, g { x with wtSyncLock := o } = g x) :
    g ((s.after t env i).pools p) = g (s.pools p) := by
  have hput : (∃ q, i.queues = some q) → ∀ q queue,
      g ((s.putQueue t env q queue).pools p) = g (s.pools p) :=
    fun h q _ => field_updPool g _ (fun x => hqueue h x _) s q p
  fun_cases after s t env i
  case case4 => simp [addPool, hp ⟨_, _, rfl⟩]
  all_goals first
    | rfl
    | exact hput ⟨_, rfl⟩ _ _
    | exact field_updPool g _ (fun x => hfreed ⟨_, rfl⟩ x _) ..
    | exact field_updPool g _ (fun x => hcount (.inl ⟨_, _, rfl⟩) x _) ..
    | exact field_updPool g _ (fun x => hcount (.inr ⟨_, rfl⟩) x _) s _ p
    | exact field_updPool g _ (fun x => hstack ⟨_, _, _, rfl⟩ x _) ..
    | exact field_updPool g _ (fun x => hworkers (.inl ⟨_, _, rfl⟩) x _) s _ p
    | exact field_updPool g _ (fun x => hworkers (.inr ⟨_, _, rfl⟩) x _) ..
    | exact field_updPool g _ (fun x => hkill (.inl ⟨_, rfl⟩) x _) ..
    | exact field_updPool g _ (fun x => hkill (.inr ⟨_, rfl⟩) x _) ..
    | exact field_updPool g _ (fun x => hsync (.inl ⟨_, rfl⟩) x _) ..
    | exact field_updPool g _ (fun x => hsync (.inr ⟨_, rfl⟩) x _) ..

/-- Only a get and a release change the number of clients. -/
lemma clientRefCounter_after (hget : ∀ a b, i ≠ .getBody a b) (hrelease : ∀ q, i ≠ .releaseBody q) :
    ((s.after t env i).pools p).clientRefCounter = (s.pools p).clientRefCounter := by
  refine field_after TpPool.clientRefCounter (fun h => ?_) (fun _ _ _ => rfl) (fun _ _ _ => rfl) ?_
    (fun _ _ _ => rfl) (fun _ _ _ => rfl) (fun _ _ _ => rfl) (fun _ _ _ => rfl)
  · obtain ⟨a, b, rfl⟩ := h
    exact absurd rfl (hget a b)
  rintro (⟨a, b, rfl⟩ | ⟨q, rfl⟩)
  · exact absurd rfl (hget a b)
  · exact absurd rfl (hrelease q)

section

variable (hp : (∃ a b, i = .getBody a b) → p ≠ s.numPools)
include hp

/-- Only a launch and a join change the list of workers. -/
lemma workers_after (hlaunch : ∀ q l, i ≠ .launch q l) (hjoin : ∀ q w, i ≠ .join q w) :
    ((s.after t env i).pools p).workers = (s.pools p).workers := by
  refine field_after TpPool.workers hp (fun _ _ _ => rfl) (fun _ _ _ => rfl) (fun _ _ _ => rfl)
    (fun _ _ _ => rfl) ?_ (fun _ _ _ => rfl) (fun _ _ _ => rfl)
  rintro (⟨q, l, rfl⟩ | ⟨q, w, rfl⟩)
  · exact absurd rfl (hlaunch q l)
  · exact absurd rfl (hjoin q w)

/-- Only the kill and the end of the joins change the signal. -/
lemma killSignal_after (hsend : ∀ q, i ≠ .sendKill q) (hjoin : ∀ q, i ≠ .joinAll q) :
    ((s.after t env i).pools p).killSignal = (s.pools p).killSignal := by
  refine field_after TpPool.killSignal hp (fun _ _ _ => rfl) (fun _ _ _ => rfl) (fun _ _ _ => rfl)
    (fun _ _ _ => rfl) (fun _ _ _ => rfl) ?_ (fun _ _ _ => rfl)
  rintro (⟨q, rfl⟩ | ⟨q, rfl⟩)
  · exact absurd rfl (hsend q)
  · exact absurd rfl (hjoin q)

/-- The holder of `wt_sync_lock`. -/
lemma wtSyncLock_after (hlock : ∀ q, i ≠ .lockSync q) (hunlock : ∀ q, i ≠ .unlockSync q) :
    ((s.after t env i).pools p).wtSyncLock = (s.pools p).wtSyncLock := by
  refine field_after TpPool.wtSyncLock hp (fun _ _ _ => rfl) (fun _ _ _ => rfl) (fun _ _ _ => rfl)
    (fun _ _ _ => rfl) (fun _ _ _ => rfl) (fun _ _ _ => rfl) ?_
  rintro (⟨q, rfl⟩ | ⟨q, rfl⟩)
  · exact absurd rfl (hlock q)
  · exact absurd rfl (hunlock q)

/-- Only an update changes the stack size. -/
lemma reqStackSize_after (hupdate : ∀ q a b, i ≠ .updateInternalBody q a b) :
    ((s.after t env i).pools p).reqStackSize = (s.pools p).reqStackSize := by
  refine field_after TpPool.reqStackSize hp (fun _ _ _ => rfl) (fun _ _ _ => rfl) (fun _ _ _ => rfl)
    ?_ (fun _ _ _ => rfl) (fun _ _ _ => rfl) (fun _ _ _ => rfl)
  rintro ⟨q, a, b, rfl⟩
  exact absurd rfl (hupdate q a b)

/-- Other instructions leave the queue alone. -/
lemma queue_after (hqueue : i.queues = none) :
    ((s.after t env i).pools p).queue = (s.pools p).queue := by
  refine field_after TpPool.queue hp ?_ (fun _ _ _ => rfl) (fun _ _ _ => rfl) (fun _ _ _ => rfl)
    (fun _ _ _ => rfl) (fun _ _ _ => rfl) (fun _ _ _ => rfl)
  rintro ⟨q, hq⟩
  rw [hqueue] at hq
  cases hq

/-- Only the destruction frees a pool. -/
lemma freed_after (hdestroy : ∀ q, i ≠ .destroy q) :
    ((s.after t env i).pools p).freed = (s.pools p).freed := by
  refine field_after TpPool.freed hp (fun _ _ _ => rfl) ?_ (fun _ _ _ => rfl) (fun _ _ _ => rfl)
    (fun _ _ _ => rfl) (fun _ _ _ => rfl) (fun _ _ _ => rfl)
  rintro ⟨q, rfl⟩
  exact absurd rfl (hdestroy q)

end

section

variable (s : TpState) (t : ℕ) (env : TpEnv) (i : TpInstr)

/-- No pool is forgotten. -/
lemma numPools_after : s.numPools ≤ (s.after t env i).numPools := by
  fun_cases after s t env i
  case case4 => exact Nat.le_succ _
  all_goals exact le_refl _

/-- The list of pools loses a pool, or gets a new one. -/
lemma mem_poolHead_after {p : ℕ} (hp : p ∈ (s.after t env i).poolHead) :
    p ∈ s.poolHead ∨ p < (s.after t env i).numPools := by
  revert hp
  fun_cases after s t env i
  case case4 =>
    simp only [addPool, mem_append, mem_singleton]
    rintro (hp | rfl)
    · exact .inl hp
    · exact .inr (Nat.lt_succ_self _)
  case case10 => exact fun hp => .inl (mem_of_mem_erase hp)
  all_goals exact .inl

end

/-- A pool that is not created by an instruction is counted by no more than one. -/
lemma ref_fresh_after {s : TpState} (t : ℕ) (env : TpEnv) (i : TpInstr)
    (hfresh : ∀ p, s.numPools ≤ p → (s.pools p).clientRefCounter = 0)
    (hhead : ∀ p ∈ s.poolHead, p < s.numPools) {p : ℕ} (hp : (s.after t env i).numPools ≤ p) :
    ((s.after t env i).pools p).clientRefCounter = 0 := by
  have hold := hfresh p (le_trans (numPools_after s t env i) hp)
  cases i with
  | getBody a b =>
    simp only [after] at hp ⊢
    split
    · rename_i q hfound
      have hq : q ∈ s.poolHead := by
        have := Option.filter_eq_some_iff.mp hfound
        simpa using this.2
      rw [hfound] at hp
      change s.numPools ≤ p at hp
      have hlt := hhead q hq
      rw [pools_updPool, if_neg (by omega)]
      exact hold
    · split
      · rename_i hnone hcreated
        simp only [hnone, hcreated, if_true] at hp
        change s.numPools + 1 ≤ p at hp
        have hne : p ≠ s.numPools := by omega
        simpa [addPool, hne] using hold
      · exact hold
  | releaseBody q =>
    have hpools : (s.after t env (.releaseBody q)).pools p = (s.updPool q fun pool =>
        { pool with clientRefCounter := pool.clientRefCounter - 1 }).pools p := by
      simp only [after]
      split
      · rfl
      · rfl
    rw [hpools, pools_updPool]
    split
    · rename_i hpq
      rw [hpq] at hold
      simp [hold]
    · exact hold
  | _ => rw [clientRefCounter_after (by simp) (by simp), hold]

end TpState

/-! ## Instructions and pools -/

/-- The pool whose worker carries out the instruction. -/
def TpInstr.workerPool : TpInstr → Option ℕ
  | .launch p none | .setTerminated p | .checkJoin p | .checkJoinFrom p _ => some p
  | .lockSync p | .channelWait p | .checkStack p | .popFront p | .unlockSync p => some p
  | .callJob p _ | .inJob p _ | .finishJob p _ => some p
  | _ => none

/-- The pool that the instruction is about, when it can only be a pool there is. -/
def TpInstr.usesPool : TpInstr → Option ℕ
  | .launchLoop p _ _ | .launch p _ | .sendKill p | .joinAll p | .join p _ => some p
  | .drain p | .destroy p => some p
  | i => i.workerPool

namespace TpState

variable {s : TpState} {t p : ℕ} {env : TpEnv} {i : TpInstr}

/-- The instructions of a worker come from those of the worker. -/
lemma workerPool_next : ∀ j ∈ s.next t env i, j.workerPool = none ∨ j.workerPool = i.workerPool := by
  fun_cases next s t env i
  case case11 q l => fun_cases launchCont q l env.launched <;> simp [releaseCode, TpInstr.workerPool]
  case case2 a b _ _ =>
    fun_cases newPoolCode s.numPools env.listed a b <;>
      simp [updateInternalCode, releaseCode, TpInstr.workerPool]
  all_goals simp [updateInternalCode, releaseCode, getCode, launchCode, relaunchCode,
    TpInstr.workerPool]

/-- The pools that instructions are about are those of the instruction before, or have clients. -/
lemma usesPool_next : ∀ j ∈ s.next t env i, j.usesPool = none ∨ j.usesPool = i.usesPool ∨
    ∃ p, j.usesPool = some p ∧ 0 < (s.pools p).clientRefCounter := by
  fun_cases next s t env i
  case case11 q l =>
    fun_cases launchCont q l env.launched <;>
      simp [releaseCode, TpInstr.usesPool, TpInstr.workerPool]
  case case2 a b _ _ =>
    fun_cases newPoolCode s.numPools env.listed a b <;>
      simp [updateInternalCode, releaseCode, TpInstr.usesPool, TpInstr.workerPool]
  case case8 q _ _ h => simp [TpInstr.usesPool, Nat.pos_of_ne_zero h]
  case case12 q h => simp [TpInstr.usesPool, TpInstr.workerPool, h]
  all_goals simp [updateInternalCode, releaseCode, getCode, launchCode, relaunchCode,
    TpInstr.usesPool, TpInstr.workerPool]

/-- The workers are in the lists of their pools. -/
structure Staffed (s : TpState) : Prop where
  ref_fresh : ∀ p, s.numPools ≤ p → (s.pools p).clientRefCounter = 0
  head_lt : ∀ p ∈ s.poolHead, p < s.numPools
  uses_lt : ∀ t, ∀ i ∈ s.code t, ∀ p, i.usesPool = some p → p < s.numPools
  worker_lt : ∀ w p, (s.threads w).workerOf = some p → p < s.numPools
  own : ∀ t, ∀ i ∈ s.code t, ∀ p, i.workerPool = some p → (s.threads t).workerOf = some p
  /-- A worker that has something to do is in the list of its pool. -/
  member : ∀ w p, (s.threads w).workerOf = some p → s.code w ≠ [] → w ∈ (s.pools p).workers
  /-- The list of a pool has workers of the pool only. -/
  listed : ∀ p, ∀ w ∈ (s.pools p).workers, w < s.numThreads ∧ (s.threads w).workerOf = some p

/-- At first there are no workers. -/
lemma staffed_init : init.Staffed where
  ref_fresh := fun _ _ => rfl
  head_lt := fun _ hp => absurd hp not_mem_nil
  uses_lt := fun _ _ hi => absurd hi not_mem_nil
  worker_lt := fun _ _ hw => by cases hw
  own := fun _ _ hi => absurd hi not_mem_nil
  member := fun _ _ hw => by cases hw
  listed := fun _ _ hw => absurd hw not_mem_nil

/-- A call of a client is about no pool at first. -/
lemma usesPool_call (c : TpCall) : ∀ i ∈ c.code, i.usesPool = none := by
  cases c <;> simp [TpCall.code, getCode, releaseCode, TpInstr.usesPool, TpInstr.workerPool]

/-- What is about no pool is not for a worker. -/
lemma workerPool_of_usesPool {i : TpInstr} (h : i.usesPool = none) : i.workerPool = none := by
  cases i with
  | launch p loop => cases h
  | _ => first | rfl | exact h

/-- A worker is about its own pool. -/
lemma usesPool_workerCode {p : ℕ} : ∀ i ∈ workerCode p, i.usesPool = none ∨ i.usesPool = some p := by
  simp [workerCode, TpInstr.usesPool, TpInstr.workerPool]

/-- A worker works for its own pool. -/
lemma workerPool_workerCode {p : ℕ} :
    ∀ i ∈ workerCode p, i.workerPool = none ∨ i.workerPool = some p := by
  simp [workerCode, TpInstr.workerPool]

/-- A new program leaves the rest of a thread alone. -/
lemma sameThread_setCode (s : TpState) (t u : ℕ) (c : List TpInstr) :
    ((s.setCode t c).threads u).workerOf = (s.threads u).workerOf ∧
      ((s.setCode t c).threads u).stackSize = (s.threads u).stackSize := by
  by_cases h : u = t
  · subst h
    simp [setCode]
  · simp [setCode, h]

/-- A thread stays in its pool, and a new one is in that of the launch. -/
lemma workerOf_step (s : TpState) (t : ℕ) (env : TpEnv) (i : TpInstr) (c : List TpInstr) (u : ℕ) :
    (((s.after t env i).setCode t c).threads u).workerOf =
      if u = s.numThreads then (launches env i).elim (s.threads u).workerOf some
      else (s.threads u).workerOf := by
  rw [(sameThread_setCode _ t u c).1]
  by_cases hu : u = s.numThreads
  · rw [if_pos hu]
    cases hl : launches env i with
    | none => exact (threads_after s t env i (.inl hl)).workerOf
    | some p =>
      rw [hu, threads_after_new hl]
      rfl
  · rw [if_neg hu]
    exact (threads_after s t env i (.inr hu)).workerOf

/-- Only a launch that succeeds starts a thread. -/
lemma eq_launch_of_launches {q : ℕ} (h : launches env i = some q) :
    env.launched = true ∧ ∃ l, i = .launch q l := by
  cases i with
  | launch p l =>
    cases hl : env.launched with
    | false => simp [launches, hl] at h
    | true =>
      simp only [launches, hl, if_true, Option.some.injEq] at h
      exact ⟨rfl, l, by rw [h]⟩
  | _ => cases h

/-- A worker that is launched is in the list. -/
lemma mem_workers_launch {q : ℕ} (h : launches env i = some q) :
    s.numThreads ∈ ((s.after t env i).pools q).workers := by
  obtain ⟨hl, l, rfl⟩ := eq_launch_of_launches h
  simp [after, hl, addThread, updPool]

/-- A worker stays in the list until it is joined. -/
lemma mem_workers_after {u : ℕ} (hu : u ∈ (s.pools p).workers) (hp : p < s.numPools)
    (hjoin : i ≠ .join p u) : u ∈ ((s.after t env i).pools p).workers := by
  cases i with
  | launch q l =>
    cases hl : env.launched with
    | false => simpa [after, hl] using hu
    | true =>
      by_cases hpq : p = q
      · subst hpq
        simp [after, hl, addThread, updPool, hu]
      · simpa [after, hl, addThread, updPool, hpq] using hu
  | join q w =>
    by_cases hpq : p = q
    · subst hpq
      have hne : u ≠ w := by
        rintro rfl
        exact hjoin rfl
      simpa [after, updPool] using (mem_erase_of_ne hne).mpr hu
    · simpa [after, updPool, hpq] using hu
  | _ => rwa [workers_after (fun _ => Nat.ne_of_lt hp) (by simp) (by simp)]

/-- A worker in the list was there before, or is only just launched. -/
lemma of_mem_workers_after {u : ℕ} (hu : u ∈ ((s.after t env i).pools p).workers) :
    u ∈ (s.pools p).workers ∨ launches env i = some p ∧ u = s.numThreads := by
  cases i with
  | getBody a b =>
    left
    simp only [after] at hu
    repeat' split at hu
    · rwa [field_updPool TpPool.workers] at hu
      exact fun _ => rfl
    · by_cases hp : p = s.numPools
      · subst hp
        simp [addPool] at hu
      · simpa [addPool, hp] using hu
    · exact hu
  | launch q l =>
    cases hl : env.launched with
    | false =>
      left
      simpa [after, hl] using hu
    | true =>
      by_cases hpq : p = q
      · subst hpq
        simp only [after, hl, if_true, addThread, updPool, Function.update_self,
          mem_append, mem_singleton] at hu
        rcases hu with hu | hu
        · exact .inl hu
        · exact .inr ⟨by simp [launches, hl], hu⟩
      · left
        simpa [after, hl, addThread, updPool, hpq] using hu
  | join q w =>
    left
    by_cases hpq : p = q
    · subst hpq
      simp only [after, updPool, Function.update_self] at hu
      exact mem_of_mem_erase hu
    · simpa [after, updPool, hpq] using hu
  | _ =>
    left
    rwa [workers_after (by simp) (by simp) (by simp)] at hu

/-- A pool with clients was created. -/
lemma Staffed.lt_of_ref_pos (h : s.Staffed) (hpos : 0 < (s.pools p).clientRefCounter) :
    p < s.numPools := by
  by_contra hge
  rw [h.ref_fresh p (not_lt.mp hge)] at hpos
  exact absurd hpos (Nat.lt_irrefl 0)

/-- After a call a thread has its program or that of the call. -/
lemma mem_code_call {u : ℕ} {j : TpInstr} {c : TpCall} (hj : j ∈ (s.call c).code u) :
    j ∈ c.code ∨ j ∈ s.code u := by
  rw [code_call] at hj
  split at hj
  · exact .inl hj
  · exact .inr hj

/-- Where an instruction comes from: it takes the place of the one that was carried out, it was
there before, or a new worker starts with it. -/
lemma mem_code_step {u : ℕ} {j : TpInstr} {rest : List TpInstr} (hcode : s.code t = i :: rest)
    (hj : j ∈ ((s.after t env i).setCode t (s.next t env i ++ rest)).code u) :
    u = t ∧ j ∈ s.next t env i ∨ j ∈ s.code u ∨
      ∃ q, (u = s.numThreads ∧ launches env i = some q) ∧ j ∈ workerCode q := by
  rw [code_step] at hj
  split at hj
  · rename_i hu
    rcases mem_append.mp hj with hj | hj
    · exact .inl ⟨hu, hj⟩
    · right
      left
      rw [hu, hcode]
      exact mem_cons_of_mem _ hj
  · split at hj
    · rename_i hu
      cases hl : launches env i with
      | none =>
        rw [hl] at hj
        exact .inr (.inl hj)
      | some q =>
        rw [hl] at hj
        exact .inr (.inr ⟨q, ⟨hu, rfl⟩, hj⟩)
    · exact .inr (.inl hj)

/-- The workers are in the lists on. -/
lemma Staffed.step (h : s.Staffed) (hlocked : s.Locked) (c : TpChoice) : (s.step c).Staffed := by
  rcases step_cases s c with hsame | ⟨call, hcall⟩ | ⟨t, env, i, rest, -, hcode, hblocked, hstep⟩
  · rw [hsame]
    exact h
  · rw [hcall]
    have hnew : ∀ u, (s.call call).threads u =
        if u = s.numThreads then ⟨call.code, none, 0, false⟩ else s.threads u := by
      intro u
      by_cases hu : u = s.numThreads
      · simp [TpState.call, addThread, hu]
      · simp [TpState.call, addThread, hu]
    refine ⟨h.ref_fresh, h.head_lt, ?_, ?_, ?_, ?_, ?_⟩
    · intro u j hj p hp
      rcases mem_code_call hj with hj | hj
      · rw [usesPool_call call j hj] at hp
        cases hp
      · exact h.uses_lt u j hj p hp
    · intro u p hw
      rw [hnew] at hw
      split at hw
      · cases hw
      · exact h.worker_lt u p hw
    · intro u j hj p hp
      rw [code, hnew] at hj
      rw [hnew]
      split at hj
      · rw [workerPool_of_usesPool (usesPool_call call j hj)] at hp
        cases hp
      · rename_i hu
        rw [if_neg hu]
        exact h.own u j hj p hp
    · intro u p hw hne
      rw [hnew] at hw
      rw [code, hnew] at hne
      split at hw
      · cases hw
      · rename_i hu
        rw [if_neg hu] at hne
        exact h.member u p hw hne
    · intro p u hu
      obtain ⟨hlt, hw⟩ := h.listed p u hu
      rw [hnew, if_neg (by omega)]
      exact ⟨Nat.lt_succ_of_lt hlt, hw⟩
  · rw [hstep]
    have ht := hlocked.lt_numThreads hcode
    have hi : i ∈ s.code t := by
      rw [hcode]
      exact mem_cons_self
    have hnum := numPools_after s t env i
    refine ⟨?_, ?_, ?_, ?_, ?_, ?_, ?_⟩
    · intro p hp
      exact ref_fresh_after t env i h.ref_fresh h.head_lt hp
    · intro p hp
      rcases mem_poolHead_after s t env i hp with hold | hlt
      · exact lt_of_lt_of_le (h.head_lt p hold) hnum
      · exact hlt
    · intro u j hj p hp
      refine lt_of_lt_of_le ?_ hnum
      rcases mem_code_step hcode hj with ⟨-, hj⟩ | hj | ⟨q, ⟨-, hl⟩, hnew⟩
      · rcases usesPool_next j hj with hnone | hsame | ⟨q, hq, hpos⟩
        · rw [hnone] at hp
          cases hp
        · exact h.uses_lt t i hi p (hsame ▸ hp)
        · rw [hq, Option.some.injEq] at hp
          exact hp ▸ h.lt_of_ref_pos hpos
      · exact h.uses_lt u j hj p hp
      · obtain ⟨-, l, rfl⟩ := eq_launch_of_launches hl
        rcases usesPool_workerCode j hnew with hnone | hsome
        · rw [hnone] at hp
          cases hp
        · rw [hsome, Option.some.injEq] at hp
          exact hp ▸ h.uses_lt t _ hi q rfl
    · intro u p hw
      refine lt_of_lt_of_le ?_ hnum
      rw [workerOf_step] at hw
      split at hw
      · cases hl : launches env i with
        | none =>
          rw [hl] at hw
          exact h.worker_lt u p hw
        | some q =>
          rw [hl] at hw
          obtain ⟨-, l, rfl⟩ := eq_launch_of_launches hl
          cases hw
          exact h.uses_lt t _ hi p rfl
      · exact h.worker_lt u p hw
    · intro u j hj p hp
      rw [workerOf_step]
      rcases mem_code_step hcode hj with ⟨rfl, hj⟩ | hj | ⟨q, ⟨rfl, hl⟩, hnew⟩
      · rw [if_neg (by omega)]
        rcases workerPool_next j hj with hnone | hsame
        · rw [hnone] at hp
          cases hp
        · exact h.own u i hi p (hsame ▸ hp)
      · rw [if_neg]
        · exact h.own u j hj p hp
        · rintro rfl
          rw [hlocked.fresh _ (le_refl _)] at hj
          cases hj
      · rw [if_pos rfl, hl]
        rcases workerPool_workerCode j hnew with hnone | hsome
        · rw [hnone] at hp
          cases hp
        · rw [← hp, hsome]
          rfl
    · intro u p hw hne
      rw [workerOf_step] at hw
      rw [code_step] at hne
      have hstay : (s.threads u).workerOf = some p → s.code u ≠ [] →
          u ∈ ((s.after t env i).pools p).workers := by
        intro hold hbusy
        refine mem_workers_after (h.member u p hold hbusy) (h.worker_lt u p hold) ?_
        rintro rfl
        exact hbusy (by simpa [blocked] using hblocked)
      by_cases hut : u = t
      · subst hut
        rw [if_neg (by omega)] at hw
        exact hstay hw (by rw [hcode]; simp)
      · rw [if_neg hut] at hne
        by_cases hu : u = s.numThreads
        · rw [if_pos hu] at hne hw
          cases hl : launches env i with
          | none =>
            rw [hl] at hne hw
            exact hstay hw hne
          | some q =>
            rw [hl] at hw
            cases hw
            rw [hu]
            exact mem_workers_launch hl
        · rw [if_neg hu] at hne hw
          exact hstay hw hne
    · intro p u hu
      change u < (s.after t env i).numThreads ∧ _
      rw [numThreads_after]
      rcases of_mem_workers_after hu with hold | ⟨hl, rfl⟩
      · obtain ⟨hlt, hw⟩ := h.listed p u hold
        refine ⟨Nat.lt_add_right _ hlt, ?_⟩
        rw [workerOf_step, if_neg (by omega)]
        exact hw
      · refine ⟨by simp [hl], ?_⟩
        rw [workerOf_step, if_pos rfl, hl]
        rfl

end TpState

end AudioReach
