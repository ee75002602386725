import AudioReach.ThreadPool.Killing

/-!
# Pools that are closed

The client that takes the counter of a pool to zero takes the pool off the list, joins its workers
and frees it.  From then on nobody finds the pool, and its list of workers stays empty: a client
starts workers only under `pool_lock` and for a pool that it holds, and a worker replaces itself
only as long as it is in the list.  So a pool has no workers when it is freed.
-/

namespace AudioReach

open Function (update)
open List

/-! ## Programs -/

/-- The instruction only stands at the head of a program or right behind a step of the lock. -/
def TpInstr.ahead : TpInstr → Bool
  | .launchLoop _ _ _ | .launch _ (some _) | .sendKill _ => true
  | _ => false

/-- The second instruction may stand right behind the first one. -/
def TpInstr.mayFollow : TpInstr → TpInstr → Bool
  | .unlockPool, .launchLoop _ _ _ => true
  | .lockPool, .launch _ (some _) => true
  | .lockPool, .sendKill _ => true
  | _, j => !j.ahead

/-- Instructions that start or kill workers stand at the head, but for a step of the lock. -/
def Tidy : List TpInstr → Prop
  | i :: j :: c => i.mayFollow j = true ∧ ∀ k ∈ c, k.ahead = false
  | _ => True

/-- The pool that a client starts workers for. -/
def TpInstr.grows : TpInstr → Option ℕ
  | .launchLoop p _ _ | .launch p (some _) => some p
  | _ => none

/-- The pool that is closed. -/
def TpInstr.closes : TpInstr → Option ℕ
  | .sendKill p | .joinAll p | .drain p | .destroy p => some p
  | _ => none

/-- Any instruction may stand before one that need not be at the head. -/
lemma mayFollow_of_not_ahead {i j : TpInstr} (h : j.ahead = false) : i.mayFollow j = true := by
  unfold TpInstr.mayFollow
  split
  all_goals first | rfl | simp [h]

/-- Only a step of the lock may stand before one that must be at the head. -/
lemma not_ahead_of_mayFollow {i j : TpInstr} (h : i.mayFollow j = true) (hlock : i ≠ .lockPool)
    (hunlock : i ≠ .unlockPool) : j.ahead = false := by
  unfold TpInstr.mayFollow at h
  split at h
  · exact absurd rfl hunlock
  · exact absurd rfl hlock
  · exact absurd rfl hlock
  · simpa using h

/-- Where workers are started, the instruction is at the head. -/
lemma ahead_of_grows {i : TpInstr} {p : ℕ} (h : i.grows = some p) : i.ahead = true := by
  cases i with
  | launchLoop _ _ _ => rfl
  | launch q l =>
    cases l with
    | none => cases h
    | some _ => rfl
  | _ => cases h

/-- A pool that is closed was created. -/
lemma usesPool_of_closes {i : TpInstr} {p : ℕ} (h : i.closes = some p) : i.usesPool = some p := by
  cases i with
  | sendKill _ | joinAll _ | drain _ | destroy _ => exact h
  | _ => cases h

variable {c : List TpInstr}

/-- One instruction may precede others that need not be at the head. -/
lemma Tidy.of_cons {i : TpInstr} (h : ∀ j ∈ c, j.ahead = false) : Tidy (i :: c) := by
  cases c with
  | nil => trivial
  | cons j c =>
    exact ⟨mayFollow_of_not_ahead (h j mem_cons_self), fun k hk =>
      h k (mem_cons_of_mem _ hk)⟩

/-- Instructions that need not be at the head may stand anywhere. -/
lemma Tidy.of_not_ahead (h : ∀ j ∈ c, j.ahead = false) : Tidy c := by
  cases c with
  | nil => trivial
  | cons i c => exact .of_cons fun j hj => h j (mem_cons_of_mem _ hj)

/-- What is behind the head is in the right places, too. -/
lemma Tidy.tail {i : TpInstr} (h : Tidy (i :: c)) : Tidy c := by
  cases c with
  | nil => trivial
  | cons j c => exact .of_cons h.2

/-- Behind an instruction that is not about the lock none must be at the head. -/
lemma Tidy.not_ahead {i : TpInstr} (h : Tidy (i :: c)) (hlock : i ≠ .lockPool)
    (hunlock : i ≠ .unlockPool) : ∀ j ∈ c, j.ahead = false := by
  cases c with
  | nil => simp
  | cons j c =>
    intro k hk
    rcases mem_cons.mp hk with rfl | hk
    · exact not_ahead_of_mayFollow h.1 hlock hunlock
    · exact h.2 k hk

/-- What takes the place of an instruction stands in the right places. -/
lemma Tidy.next {i : TpInstr} {rest : List TpInstr} (h : Tidy (i :: rest)) (s : TpState) (t : ℕ)
    (env : TpEnv) : Tidy (s.next t env i ++ rest) := by
  by_cases hlock : i = .lockPool
  · subst hlock
    exact h.tail
  by_cases hunlock : i = .unlockPool
  · subst hunlock
    exact h.tail
  have hrest := h.not_ahead hlock hunlock
  fun_cases TpState.next s t env i
  case case11 q l =>
    fun_cases launchCont q l env.launched
    · exact .of_cons hrest
    · exact ⟨rfl, hrest⟩
    · exact .of_cons (by simpa [releaseCode, TpInstr.ahead] using hrest)
  case case2 a b _ _ =>
    fun_cases newPoolCode s.numPools env.listed a b <;>
      exact .of_not_ahead (by simpa [updateInternalCode, releaseCode, TpInstr.ahead] using hrest)
  all_goals first
    | exact .of_cons hrest
    | exact ⟨rfl, by simpa [TpInstr.ahead] using hrest⟩
    | exact .of_not_ahead (by simpa [updateInternalCode, releaseCode, getCode, launchCode, relaunchCode,
        TpInstr.ahead] using hrest)

/-- No call of a client starts with killing or starting workers. -/
lemma ahead_call (c : TpCall) : ∀ j ∈ c.code, j.ahead = false := by
  cases c <;> simp [TpCall.code, getCode, releaseCode, TpInstr.ahead]

/-- No call of a client closes a pool at once. -/
lemma closes_call (c : TpCall) : ∀ j ∈ c.code, j.closes = none := by
  cases c <;> simp [TpCall.code, getCode, releaseCode, TpInstr.closes]

/-- A worker starts without killing or starting workers. -/
lemma ahead_workerCode {p : ℕ} : ∀ j ∈ workerCode p, j.ahead = false := by
  simp [workerCode, TpInstr.ahead]

/-- A worker closes no pool. -/
lemma closes_workerCode {p : ℕ} : ∀ j ∈ workerCode p, j.closes = none := by
  simp [workerCode, TpInstr.closes]

namespace TpState

variable {s : TpState} {t u p : ℕ} {env : TpEnv} {i j : TpInstr} {rest : List TpInstr}

/-! ## Programs after a step -/

/-- The other threads keep their programs. -/
lemma code_step_other (hlocked : s.Locked) (c : List TpInstr) (hu : u ≠ t) (hj : j ∈ s.code u) :
    ((s.after t env i).setCode t c).code u = s.code u := by
  rw [code_step, if_neg hu, if_neg]
  rintro rfl
  rw [hlocked.fresh _ (le_refl _)] at hj
  cases hj

/-- What is to be done next is in the program afterwards. -/
lemma mem_code_step_self (c : List TpInstr) (hj : j ∈ c ++ rest) :
    j ∈ ((s.after t env i).setCode t (c ++ rest)).code t := by
  rw [code_step, if_pos rfl]
  exact hj

/-! ## Closed pools -/

/-- Closed pools stay closed. -/
structure Closing (s : TpState) : Prop where
  /-- Instructions that start or kill workers stand in the right places. -/
  tidy : ∀ t, Tidy (s.code t)
  head_nodup : s.poolHead.Nodup
  head_pos : ∀ p ∈ s.poolHead, 0 < (s.pools p).clientRefCounter
  /-- A pool that a client starts workers for has clients. -/
  grows_pos : ∀ t, ∀ i ∈ s.code t, ∀ p, i.grows = some p → 0 < (s.pools p).clientRefCounter
  closes_zero : ∀ t, ∀ i ∈ s.code t, ∀ p, i.closes = some p → (s.pools p).clientRefCounter = 0
  /-- The workers are joined before the pool is freed. -/
  joined : ∀ t p, .destroy p ∈ s.code t → (s.pools p).workers = [] ∨ .sendKill p ∈ s.code t ∨
    .joinAll p ∈ s.code t
  /-- A pool that is freed was created, and has neither clients nor workers. -/
  freed : ∀ p, (s.pools p).freed = true → p < s.numPools ∧ (s.pools p).clientRefCounter = 0 ∧
    (s.pools p).workers = []

/-- At first no pool is closed. -/
lemma closing_init : init.Closing where
  tidy := fun _ => trivial
  head_nodup := nodup_nil
  head_pos := fun _ hp => absurd hp not_mem_nil
  grows_pos := fun _ _ hi => absurd hi not_mem_nil
  closes_zero := fun _ _ hi => absurd hi not_mem_nil
  joined := fun _ _ hi => absurd hi not_mem_nil
  freed := fun _ hp => by cases hp

/-- A pool that has no client gets none. -/
lemma Closing.ref_zero_after (h : s.Closing) (hp : p < s.numPools)
    (hzero : (s.pools p).clientRefCounter = 0) :
    ((s.after t env i).pools p).clientRefCounter = 0 := by
  cases i with
  | getBody a b =>
    simp only [after]
    split
    · rename_i q hfound
      have hq : q ∈ s.poolHead := by simpa using (Option.filter_eq_some_iff.mp hfound).2
      rw [pools_updPool, if_neg]
      · exact hzero
      · rintro rfl
        have := h.head_pos p hq
        omega
    · split
      · have hne : p ≠ s.numPools := Nat.ne_of_lt hp
        simpa [addPool, hne] using hzero
      · exact hzero
  | releaseBody q =>
    simp only [after]
    by_cases hpq : p = q
    · subst hpq
      simp [hzero, updPool]
    · split
      · simp [updPool, hpq, hzero]
      · simp [updPool, hpq, hzero]
  | _ => rw [clientRefCounter_after (by simp) (by simp), hzero]

/-- Only the release of a pool takes a client from it. -/
lemma ref_le_after (hp : p < s.numPools) (hi : i ≠ .releaseBody p) :
    (s.pools p).clientRefCounter ≤ ((s.after t env i).pools p).clientRefCounter := by
  cases i with
  | getBody a b =>
    simp only [after]
    split
    · rw [pools_updPool]
      split
      · rename_i hpq
        rw [hpq]
        exact Nat.le_succ _
      · exact le_refl _
    · split
      · have hne : p ≠ s.numPools := Nat.ne_of_lt hp
        simp [addPool, hne]
      · exact le_refl _
  | releaseBody q =>
    have hpq : p ≠ q := by
      rintro rfl
      exact hi rfl
    simp only [after]
    split
    · simp [updPool, hpq]
    · simp [updPool, hpq]
  | _ => rw [clientRefCounter_after (by simp) (by simp)]

/-- A pool without clients and workers gets no worker. -/
lemma Closing.workers_nil_after (h : s.Closing) (hstaffed : s.Staffed)
    (hcode : s.code t = i :: rest) (hzero : (s.pools p).clientRefCounter = 0)
    (hnil : (s.pools p).workers = []) : ((s.after t env i).pools p).workers = [] := by
  rw [eq_nil_iff_forall_not_mem]
  intro w hw
  rcases of_mem_workers_after hw with hold | ⟨hl, -⟩
  · rw [hnil] at hold
    cases hold
  · obtain ⟨-, l, rfl⟩ := eq_launch_of_launches hl
    have hi : TpInstr.launch p l ∈ s.code t := by
      rw [hcode]
      exact mem_cons_self
    cases l with
    | none =>
      have hmem := hstaffed.member t p (hstaffed.own t _ hi p rfl) (by rw [hcode]; simp)
      rw [hnil] at hmem
      cases hmem
    | some arg =>
      have := h.grows_pos t _ hi p rfl
      omega

/-- A client that starts workers holds `pool_lock`. -/
lemma Closing.depth_grows (h : s.Closing) (hlocked : s.Locked) (hj : j ∈ s.code u)
    (hgrows : j.grows = some p) : 0 < s.depth u := by
  have hbal := hlocked.bal u
  have htidy := h.tidy u
  have hahead := ahead_of_grows hgrows
  cases hcode : s.code u with
  | nil =>
    rw [hcode] at hj
    cases hj
  | cons i c =>
    rw [hcode] at hj hbal htidy
    rcases mem_cons.mp hj with rfl | hj
    · cases j with
      | launchLoop _ _ _ => exact hlocked.depth_needs hcode (.inl rfl)
      | launch _ _ => exact hlocked.depth_needs hcode (.inr ⟨_, rfl⟩)
      | _ => cases hgrows
    · cases c with
      | nil => cases hj
      | cons k c =>
        rcases mem_cons.mp hj with rfl | hj
        · have hfollow := htidy.1
          unfold TpInstr.mayFollow at hfollow
          split at hfollow
          · exact hbal.1
          · simp only [Bal, TpInstr.lockUse, Option.isSome_some, if_true] at hbal
            omega
          · cases hgrows
          · simp [hahead] at hfollow
        · rw [htidy.2 j hj] at hahead
          cases hahead

/-- A pool that a client starts workers for keeps its clients. -/
lemma Closing.ref_pos_after (h : s.Closing) (hlocked : s.Locked) (hstaffed : s.Staffed)
    (hcode : s.code t = i :: rest) (hj : j ∈ s.code u) (hgrows : j.grows = some p) :
    0 < ((s.after t env i).pools p).clientRefCounter := by
  have hpos := h.grows_pos u j hj p hgrows
  refine lt_of_lt_of_le hpos (ref_le_after (hstaffed.lt_of_ref_pos hpos) ?_)
  -- whoever releases the pool holds the lock, too, and has nothing to start
  rintro rfl
  have hut := depth_unique (h.depth_grows hlocked hj hgrows)
    (hlocked.depth_needs hcode (.inr ⟨0, rfl⟩))
  subst hut
  have htidy := h.tidy u
  rw [hcode] at htidy hj
  rcases mem_cons.mp hj with rfl | hj
  · cases hgrows
  · have hfalse := htidy.not_ahead (by simp) (by simp) j hj
    rw [ahead_of_grows hgrows] at hfalse
    cases hfalse

/-- A client only comes to start workers for a pool that has clients. -/
lemma grows_next : ∀ j ∈ s.next t env i, j.grows = none ∨ j.grows = i.grows ∨
    ∃ p, j.grows = some p ∧ 0 < (s.pools p).clientRefCounter := by
  fun_cases next s t env i
  case case11 q l => fun_cases launchCont q l env.launched <;> simp [releaseCode, TpInstr.grows]
  case case2 a b _ _ =>
    fun_cases newPoolCode s.numPools env.listed a b <;>
      simp [updateInternalCode, releaseCode, TpInstr.grows]
  case case8 q _ _ h => simp [TpInstr.grows, Nat.pos_of_ne_zero h]
  all_goals simp [updateInternalCode, releaseCode, getCode, launchCode, relaunchCode, TpInstr.grows]

/-- A pool only comes to be closed when its last client lets go of it. -/
lemma closes_next : ∀ j ∈ s.next t env i, j.closes = none ∨ j.closes = i.closes ∨
    ∃ p, j.closes = some p ∧ i = .releaseBody p ∧ (s.pools p).clientRefCounter = 1 := by
  fun_cases next s t env i
  case case11 q l => fun_cases launchCont q l env.launched <;> simp [releaseCode, TpInstr.closes]
  case case2 a b _ _ =>
    fun_cases newPoolCode s.numPools env.listed a b <;>
      simp [updateInternalCode, releaseCode, TpInstr.closes]
  case case12 q h => simp [TpInstr.closes, h]
  all_goals simp [updateInternalCode, releaseCode, getCode, launchCode, relaunchCode, TpInstr.closes]

/-! ## Steps -/

/-- The list of pools after an instruction: a pool with its first client comes in, or a pool
without clients goes out. -/
lemma Closing.head_step (h : s.Closing) (hstaffed : s.Staffed) (t : ℕ) (env : TpEnv) (i : TpInstr) :
    (s.after t env i).poolHead.Nodup ∧
      ∀ p ∈ (s.after t env i).poolHead, 0 < ((s.after t env i).pools p).clientRefCounter := by
  have hkeep : (s.after t env i).poolHead = s.poolHead → (∀ q, i ≠ .releaseBody q) →
      (s.after t env i).poolHead.Nodup ∧
        ∀ p ∈ (s.after t env i).poolHead, 0 < ((s.after t env i).pools p).clientRefCounter := by
    intro hsame hrelease
    rw [hsame]
    refine ⟨h.head_nodup, fun p hp => ?_⟩
    exact lt_of_lt_of_le (h.head_pos p hp) (ref_le_after (hstaffed.head_lt p hp) (hrelease p))
  cases i with
  | getBody a b =>
    cases hfound : s.foundPool env with
    | some q =>
      apply hkeep
      · simp [after, hfound, updPool]
      · simp
    | none =>
      cases hcreated : env.created with
      | false =>
        apply hkeep
        · simp [after, hfound, hcreated]
        · simp
      | true =>
        have hafter : s.after t env (.getBody a b) = s.addPool := by
          simp [after, hfound, hcreated]
        rw [hafter]
        have hnew : s.numPools ∉ s.poolHead := fun hmem =>
          absurd (hstaffed.head_lt _ hmem) (Nat.lt_irrefl _)
        constructor
        · exact nodup_append.mpr ⟨h.head_nodup, by simp, by
            intro q hq r hr
            rw [mem_singleton] at hr
            rintro rfl
            exact hnew (hr ▸ hq)⟩
        · intro p hp
          rcases mem_append.mp hp with hp | hp
          · have hne : p ≠ s.numPools := by
              rintro rfl
              exact hnew hp
            simpa [addPool, hne] using h.head_pos p hp
          · rw [mem_singleton] at hp
            simp [addPool, hp]
  | releaseBody q =>
    by_cases hlast : (s.pools q).clientRefCounter = 1
    · have hhead : (s.after t env (.releaseBody q)).poolHead = s.poolHead.erase q := by
        simp [after, hlast, updPool]
      rw [hhead]
      refine ⟨h.head_nodup.erase q, fun p hp => ?_⟩
      have hpq : p ≠ q ∧ p ∈ s.poolHead := (h.head_nodup.mem_erase_iff).mp hp
      simpa [after, hlast, updPool, hpq.1] using h.head_pos p hpq.2
    · have hhead : (s.after t env (.releaseBody q)).poolHead = s.poolHead := by
        simp [after, hlast, updPool]
      rw [hhead]
      refine ⟨h.head_nodup, fun p hp => ?_⟩
      have hpos := h.head_pos p hp
      by_cases hpq : p = q
      · subst hpq
        have hless : 0 < (s.pools p).clientRefCounter - 1 := by omega
        simpa [after, hlast, updPool] using hless
      · simpa [after, hlast, updPool, hpq] using hpos
  | _ =>
    refine hkeep ?_ (by simp)
    simp only [after]
    repeat' split
    all_goals rfl

/-- A pool is only freed at the end of its destruction. -/
lemma eq_destroy (hfreed : ((s.after t env i).pools p).freed = true) :
    (s.pools p).freed = true ∨ i = .destroy p := by
  cases i with
  | destroy q =>
    by_cases hpq : p = q
    · exact .inr (by rw [hpq])
    · exact .inl (by simpa [after, updPool, hpq] using hfreed)
  | getBody a b =>
    left
    by_cases hp : p = s.numPools
    · simp only [after] at hfreed
      repeat' split at hfreed
      · rw [field_updPool TpPool.freed] at hfreed
        · exact hfreed
        · exact fun _ => rfl
      · simp [addPool, hp] at hfreed
      · exact hfreed
    · rwa [freed_after (fun _ => hp) (by simp)] at hfreed
  | _ =>
    left
    rwa [freed_after (by simp) (by simp)] at hfreed

section

variable (h : s.Closing) (hlocked : s.Locked) (hstaffed : s.Staffed)
include h hlocked hstaffed

/-- The workers of a pool are joined before the pool is freed, after a step. -/
lemma Closing.joined_step (hcode : s.code t = i :: rest)
    (hmem : .destroy p ∈ ((s.after t env i).setCode t (s.next t env i ++ rest)).code u) :
    ((s.after t env i).pools p).workers = [] ∨
      .sendKill p ∈ ((s.after t env i).setCode t (s.next t env i ++ rest)).code u ∨
      .joinAll p ∈ ((s.after t env i).setCode t (s.next t env i ++ rest)).code u := by
  rcases mem_code_step hcode hmem with ⟨rfl, hnew⟩ | hold | ⟨q, -, hnew⟩
  · -- the last client lets go of the pool
    rcases closes_next _ hnew with hnone | hsame | ⟨q, hq, rfl, hlast⟩
    · cases hnone
    · cases i with
      | sendKill _ | joinAll _ | drain _ | destroy _ =>
        simp only [next] at hnew
        repeat' split at hnew
        all_goals simp at hnew
      | _ => cases hsame
    · cases hq
      right
      left
      apply mem_code_step_self
      simp [next, hlast]
  · have hzero := h.closes_zero u _ hold p rfl
    rcases h.joined u p hold with hnil | hkill | hjoin
    · exact .inl (h.workers_nil_after hstaffed hcode hzero hnil)
    · right
      by_cases hut : u = t
      · subst hut
        rw [hcode] at hkill
        rcases mem_cons.mp hkill with rfl | hkill
        · right
          apply mem_code_step_self
          simp [next]
        · left
          exact mem_code_step_self _ (mem_append_right _ hkill)
      · left
        rwa [code_step_other hlocked _ hut hkill]
    · by_cases hut : u = t
      · subst hut
        rw [hcode] at hjoin
        rcases mem_cons.mp hjoin with rfl | hjoin
        · by_cases hnil : (s.pools p).workers = []
          · exact .inl (h.workers_nil_after hstaffed hcode hzero hnil)
          · right
            right
            apply mem_code_step_self
            obtain ⟨w, ws, hws⟩ := exists_cons_of_ne_nil hnil
            simp [next, hws]
        · right
          right
          exact mem_code_step_self _ (mem_append_right _ hjoin)
      · right
        right
        rwa [code_step_other hlocked _ hut hjoin]
  · exact absurd (closes_workerCode _ hnew) (by simp [TpInstr.closes])

/-- A pool that is freed has neither clients nor workers, after a step. -/
lemma Closing.freed_step (hcode : s.code t = i :: rest)
    (hfreed : ((s.after t env i).pools p).freed = true) :
    p < (s.after t env i).numPools ∧ ((s.after t env i).pools p).clientRefCounter = 0 ∧
      ((s.after t env i).pools p).workers = [] := by
  have hbefore : p < s.numPools ∧ (s.pools p).clientRefCounter = 0 ∧ (s.pools p).workers = [] := by
    rcases eq_destroy hfreed with hold | rfl
    · exact h.freed p hold
    · have hi : TpInstr.destroy p ∈ s.code t := by
        rw [hcode]
        exact mem_cons_self
      refine ⟨hstaffed.uses_lt t _ hi p rfl, h.closes_zero t _ hi p rfl, ?_⟩
      have htidy := h.tidy t
      have hheaded := hlocked.headed t
      have hjoined := h.joined t p hi
      rw [hcode] at htidy hheaded hjoined
      rcases hjoined with hnil | hkill | hjoin
      · exact hnil
      · rcases mem_cons.mp hkill with hkill | hkill
        · cases hkill
        · cases htidy.not_ahead (by simp) (by simp) _ hkill
      · rcases mem_cons.mp hjoin with hjoin | hjoin
        · cases hjoin
        · cases hheaded.deep (by simp) _ hjoin
  obtain ⟨hlt, hzero, hnil⟩ := hbefore
  exact ⟨lt_of_lt_of_le hlt (numPools_after s t env i), h.ref_zero_after hlt hzero,
    h.workers_nil_after hstaffed hcode hzero hnil⟩

/-- Closed pools stay closed, step by step. -/
lemma Closing.step (c : TpChoice) : (s.step c).Closing := by
  rcases step_cases s c with hsame | ⟨call, hcall⟩ | ⟨t, env, i, rest, -, hcode, -, hstep⟩
  · rw [hsame]
    exact h
  · rw [hcall]
    refine ⟨?_, h.head_nodup, h.head_pos, ?_, ?_, ?_, h.freed⟩
    · intro u
      rw [code_call]
      split
      · exact .of_not_ahead (ahead_call call)
      · exact h.tidy u
    · intro u j hj p hp
      rcases mem_code_call hj with hnew | hold
      · have hfalse := ahead_call call j hnew
        rw [ahead_of_grows hp] at hfalse
        cases hfalse
      · exact h.grows_pos u j hold p hp
    · intro u j hj p hp
      rcases mem_code_call hj with hnew | hold
      · rw [closes_call call j hnew] at hp
        cases hp
      · exact h.closes_zero u j hold p hp
    · intro u p hmem
      rw [code_call] at hmem ⊢
      split at hmem
      · exact absurd (closes_call call _ hmem) (by simp [TpInstr.closes])
      · rename_i hu
        rw [if_neg hu]
        exact h.joined u p hmem
  · rw [hstep]
    have hi : i ∈ s.code t := by
      rw [hcode]
      exact mem_cons_self
    have hzero : ∀ {v k q}, k ∈ s.code v → k.closes = some q →
        ((s.after t env i).pools q).clientRefCounter = 0 := by
      intro v k q hk hq
      refine h.ref_zero_after (hstaffed.uses_lt v k hk q ?_) (h.closes_zero v k hk q hq)
      exact usesPool_of_closes hq
    obtain ⟨hnodup, hpos⟩ := h.head_step hstaffed t env i
    refine ⟨?_, hnodup, hpos, ?_, ?_, fun u p => h.joined_step hlocked hstaffed hcode,
      fun p => h.freed_step hlocked hstaffed hcode⟩
    · intro u
      have htidy := h.tidy t
      rw [hcode] at htidy
      rw [code_step]
      split
      · exact htidy.next s t env
      · split
        · cases launches env i with
          | none => exact h.tidy u
          | some q => exact .of_not_ahead ahead_workerCode
        · exact h.tidy u
    · intro u j hj p hp
      rcases mem_code_step hcode hj with ⟨rfl, hnew⟩ | hold | ⟨q, -, hnew⟩
      · rcases grows_next j hnew with hnone | hsame | ⟨q, hq, hclients⟩
        · rw [hnone] at hp
          cases hp
        · exact h.ref_pos_after hlocked hstaffed hcode hi (hsame ▸ hp)
        · rw [hq, Option.some.injEq] at hp
          subst hp
          refine lt_of_lt_of_le hclients (ref_le_after (hstaffed.lt_of_ref_pos hclients) ?_)
          rintro rfl
          simp only [next] at hnew
          split at hnew
          all_goals
            simp only [mem_cons, not_mem_nil, or_false] at hnew
            rcases hnew with rfl | rfl | rfl | rfl | rfl | rfl <;> cases hq
      · exact h.ref_pos_after hlocked hstaffed hcode hold hp
      · have hfalse := ahead_workerCode j hnew
        rw [ahead_of_grows hp] at hfalse
        cases hfalse
    · intro u j hj p hp
      change ((s.after t env i).pools p).clientRefCounter = 0
      rcases mem_code_step hcode hj with ⟨rfl, hnew⟩ | hold | ⟨q, -, hnew⟩
      · rcases closes_next j hnew with hnone | hsame | ⟨q, hq, rfl, hlast⟩
        · rw [hnone] at hp
          cases hp
        · exact hzero hi (hsame ▸ hp)
        · rw [hq, Option.some.injEq] at hp
          subst hp
          simp [after, hlast, updPool]
      · exact hzero hold hp
      · rw [closes_workerCode j hnew] at hp
        cases hp

end

end TpState

end AudioReach
