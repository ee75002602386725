import Mathlib.Algebra.Order.BigOperators.Group.Finset
import Mathlib.Algebra.Order.Ring.Nat
import AudioReach.Library.Fair
import AudioReach.ThreadPool.Killing

/-!
# Waiting for the workers

The last client of a pool holds `pool_lock` while it joins the workers.  A worker that has only
just been launched, or that was woken with too small a stack, still needs that lock, and the two
wait for each other.  `KillFits` says that there is no such worker when the kill signal is sent;
from then on no worker comes to need the lock.

Waiting for `wt_sync_lock` comes to an end in any case: once the kill signal is raised each worker
has a bounded number of steps left, and the holder of the lock can always go on.
-/

namespace AudioReach

open Library List

namespace TpState

variable {s : TpState} {t p : ℕ} {env : TpEnv} {i : TpInstr} {rest : List TpInstr}

/-! ## Workers that need the lock -/

/-- The worker will need `pool_lock`, unless the kill signal is there when it looks next: the lock
is in its program, or it was woken and has too small a stack. -/
def needsPoolLock (s : TpState) (w : ℕ) : Bool :=
  (s.code w).contains .lockPool ||
    match s.code w with
    | .checkStack p :: _ => decide ((s.threads w).stackSize < (s.pools p).reqStackSize)
    | _ => false

/-- If the thread is about to send the kill signal of a pool, none of the workers of the pool needs
`pool_lock`. -/
def mayKill (s : TpState) (t : ℕ) : Bool :=
  match (s.code t).head? with
  | some (.sendKill p) => (s.pools p).workers.all fun w => !s.needsPoolLock w
  | _ => true

/-- When the kill signal of a pool is sent, none of its workers needs `pool_lock`. -/
def KillFits (s : TpState) : TpChoice → Prop
  | .exec t _ => s.mayKill t = true
  | _ => True

/-- A client joins a worker of a pool that it releases, under `pool_lock`, and the worker waits for
this lock. -/
def Deadlocked (s : TpState) : Prop :=
  ∃ c p w r r', s.code c = .join p w :: .joinAll p :: r ∧ 0 < s.depth c ∧
    s.code w = .lockPool :: r' ∧ s.depth w = 0

/-- While the kill signal of a pool is raised, none of its workers needs `pool_lock`. -/
def Spared (s : TpState) : Prop :=
  ∀ p, (s.pools p).killSignal = true → ∀ w ∈ (s.pools p).workers, s.needsPoolLock w = false

/-- A worker that needs no lock neither takes it nor has too small a stack. -/
lemma needsPoolLock_eq_false_iff {w : ℕ} : s.needsPoolLock w = false ↔
    .lockPool ∉ s.code w ∧ ∀ q r, s.code w = .checkStack q :: r →
      ¬(s.threads w).stackSize < (s.pools q).reqStackSize := by
  rw [needsPoolLock, Bool.or_eq_false_iff, contains_eq_mem, decide_eq_false_iff_not]
  refine and_congr_right fun _ => ?_
  split
  · rename_i q r hcode
    rw [decide_eq_false_iff_not]
    constructor
    · intro h q' r' heq
      rw [hcode] at heq
      obtain ⟨hq, -⟩ := List.cons.inj heq
      cases hq
      exact h
    · intro h
      exact h q r hcode
  · rename_i hcode
    refine ⟨fun _ q r heq => absurd heq (hcode q r), fun _ => rfl⟩

/-- Under the lock discipline, an instruction that does not use `pool_lock` leads to it only where
the stack of a worker is too small. -/
lemma lockPool_mem_next (hi : i.lockUse = .ignores) (hmem : .lockPool ∈ s.next t env i) :
    ∃ q, i = .checkStack q ∧ (s.threads t).stackSize < (s.pools q).reqStackSize := by
  cases i with
  | checkStack q =>
    simp only [next] at hmem
    split at hmem
    · rename_i hlt
      exact ⟨q, rfl, hlt⟩
    · simp at hmem
  | getBody _ _ | updateBody _ _ _ | updateInternalBody _ _ _ | launchLoop _ _ _ | launch _ _
  | releaseBody _ | sendKill _ | joinAll _ | join _ _ | deinitLoop | checkJoin _
  | checkJoinFrom _ _ | setTerminated _ | lockPool | unlockPool => cases hi
  | _ =>
    simp only [next] at hmem
    repeat' split at hmem
    all_goals simp at hmem

/-- The thread that joins the workers of a pool is the only one that works under `pool_lock`. -/
lemma Locked.ignores_of_joins (h : s.Locked) {c : ℕ} (hjoins : JoinsCode p (s.code c))
    (hcode : s.code t = i :: rest) (htc : t ≠ c) : i.lockUse = .ignores ∨ i.lockUse = .takes := by
  have hpos := h.depth_joins hjoins
  cases hi : i.lockUse with
  | takes => exact .inr rfl
  | ignores => exact .inl rfl
  | needs => exact absurd (depth_unique (h.depth_needs hcode (.inl hi)) hpos) htc
  | gives n => exact absurd (depth_unique (h.depth_needs hcode (.inr ⟨n, hi⟩)) hpos) htc

/-- A thread that joins workers is at the loop or at a join. -/
lemma joins_cases (hcode : s.code t = i :: rest) (hjoins : JoinsCode p (s.code t)) :
    i = .joinAll p ∨ ∃ w, i = .join p w := by
  rw [hcode] at hjoins
  rcases hjoins with ⟨r, hr⟩ | ⟨w, r, hr⟩
  · exact .inl (List.cons.inj hr).1
  · exact .inr ⟨w, (List.cons.inj hr).1⟩

/-- The need for the lock depends on the program and the stack sizes. -/
lemma needsPoolLock_congr {s' : TpState} {w : ℕ} (hcode : s'.code w = s.code w)
    (hstack : (s'.threads w).stackSize = (s.threads w).stackSize)
    (hreq : ∀ q r, s.code w = .checkStack q :: r →
      (s'.pools q).reqStackSize = (s.pools q).reqStackSize) :
    s'.needsPoolLock w = s.needsPoolLock w := by
  rw [needsPoolLock, needsPoolLock, hcode]
  congr 1
  split
  · rename_i q r hq
    rw [hstack, hreq q r hq]
  · rfl

/-- Only the kill signal raises the kill signal. -/
lemma eq_sendKill (hold : (s.pools p).killSignal = false)
    (hnew : ((s.after t env i).pools p).killSignal = true) : i = .sendKill p := by
  cases i with
  | sendKill q =>
    by_cases hpq : p = q
    · rw [hpq]
    · simp [after, updPool, hpq, hold] at hnew
  | joinAll q =>
    simp only [after] at hnew
    split at hnew
    · rw [pools_updPool] at hnew
      split at hnew
      · cases hnew
      · rw [hold] at hnew
        cases hnew
    · rw [hold] at hnew
      cases hnew
  | getBody a b =>
    simp only [after] at hnew
    repeat' split at hnew
    · rw [field_updPool TpPool.killSignal] at hnew
      · rw [hold] at hnew
        cases hnew
      · exact fun _ => rfl
    · by_cases hp : p = s.numPools
      · simp [addPool, hp] at hnew
      · simp [addPool, hp, hold] at hnew
    · rw [hold] at hnew
      cases hnew
  | _ =>
    rw [killSignal_after (by simp) (by simp) (by simp), hold] at hnew
    cases hnew

/-- A worker that is about to look at its stack was woken without the kill signal. -/
lemma next_eq_checkStack {q : ℕ} {r : List TpInstr} (hheaded : Headed (i :: rest))
    (heq : s.next t env i ++ rest = .checkStack q :: r) :
    i = .channelWait q ∧ (s.pools q).killSignal = false := by
  have hrest : (∀ a w, i ≠ .join a w) → rest ≠ .checkStack q :: r := by
    rintro hi rfl
    exact absurd (hheaded.deep hi _ mem_cons_self) (by simp [TpInstr.deep])
  cases i with
  | channelWait q' =>
    simp only [next] at heq
    split at heq
    · cases heq
    · rename_i hkill
      cases heq
      exact ⟨rfl, by simpa using hkill⟩
  | join a w =>
    obtain ⟨j, r', rfl, hj, -⟩ := hheaded.join
    rcases hj with rfl | ⟨ws, rfl⟩ <;> cases heq
  | launch a l => cases heq
  | getBody a b =>
    simp only [next, newPoolCode] at heq
    repeat' split at heq
    · cases heq
    · cases heq
    · cases heq
    · exact absurd heq (hrest (by simp))
  | checkJoinFrom a ws =>
    cases ws with
    | nil => exact absurd heq (hrest (by simp))
    | cons w ws =>
      simp only [next] at heq
      split at heq
      · cases heq
      · cases heq
  | _ =>
    simp only [next] at heq
    repeat' split at heq
    all_goals
      first
        | exact absurd heq (hrest (by simp))
        | cases heq

/-- A thread keeps its stack size. -/
lemma stackSize_step {w : ℕ} (hw : w < s.numThreads) (c : List TpInstr) :
    (((s.after t env i).setCode t c).threads w).stackSize = (s.threads w).stackSize := by
  rw [(sameThread_setCode _ t w c).2]
  exact (threads_after s t env i (.inr (by omega))).stackSize

/-- From the kill signal on, no worker of the pool comes to need the lock. -/
lemma Spared.step (h : s.Spared) (hlocked : s.Locked) (hstaffed : s.Staffed) (hkilling : s.Killing)
    {c : TpChoice} (hfits : s.KillFits c) : (s.step c).Spared := by
  rcases step_cases s c with hsame | ⟨call, hcall⟩ | ⟨t, env, i, rest, rfl, hcode, hblocked, hstep⟩
  · rw [hsame]
    exact h
  · rw [hcall]
    intro p hkill w hw
    have hlt := (hstaffed.listed p w hw).1
    have hthread : (s.call call).threads w = s.threads w := by
      simp [TpState.call, addThread, Nat.ne_of_lt hlt]
    have hsame : (s.call call).needsPoolLock w = s.needsPoolLock w :=
      needsPoolLock_congr (congrArg TpThread.code hthread) (congrArg TpThread.stackSize hthread)
        fun _ _ _ => rfl
    rw [hsame]
    exact h p hkill w hw
  · rw [hstep]
    intro p hkill w hw
    change w ∈ ((s.after t env i).pools p).workers at hw
    have hheaded := hlocked.headed t
    rw [hcode] at hheaded
    have hcode' : ∀ v, v ≠ t → v < s.numThreads →
        ((s.after t env i).setCode t (s.next t env i ++ rest)).code v = s.code v := by
      intro v hv hlt
      rw [code_step, if_neg hv, if_neg (by omega)]
    by_cases hold : (s.pools p).killSignal = true
    · obtain ⟨c, hjoins⟩ := (hkilling.kill_iff p).mp hold
      -- what uses the lock is not carried out by another thread
      have hothers : t ≠ c → i.lockUse = .ignores ∨ i.lockUse = .takes :=
        hlocked.ignores_of_joins hjoins hcode
      have hown : t = c → i = .joinAll p ∨ ∃ v, i = .join p v := by
        rintro rfl
        exact joins_cases hcode hjoins
      have hw₀ : w ∈ (s.pools p).workers := by
        rcases of_mem_workers_after hw with hw₀ | ⟨hl, -⟩
        · exact hw₀
        · obtain ⟨-, l, rfl⟩ := eq_launch_of_launches hl
          by_cases htc : t = c
          · rcases hown htc with hi | ⟨v, hi⟩ <;> cases hi
          · rcases hothers htc with hi | hi <;> cases hi
      obtain ⟨hlt, hworker⟩ := hstaffed.listed p w hw₀
      have hneeds := h p hold w hw₀
      by_cases htw : w = t
      · subst htw
        rw [needsPoolLock_eq_false_iff] at hneeds ⊢
        rw [hcode] at hneeds
        rw [code_step, if_pos rfl]
        refine ⟨?_, ?_⟩
        · intro hmem
          rcases mem_append.mp hmem with hmem | hmem
          · by_cases htc : w = c
            · rcases hown htc with rfl | ⟨v, rfl⟩
              · simp only [next] at hmem
                split at hmem <;> simp at hmem
              · simp [next] at hmem
            · rcases hothers htc with hi | hi
              · obtain ⟨q, rfl, hsmall⟩ := lockPool_mem_next hi hmem
                exact hneeds.2 q rest rfl hsmall
              · cases i with
                | lockPool => exact hneeds.1 mem_cons_self
                | _ => cases hi
          · exact hneeds.1 (mem_cons_of_mem _ hmem)
        · intro q r heq
          obtain ⟨rfl, hnot⟩ := next_eq_checkStack hheaded heq
          have hq := hstaffed.own w (.channelWait q) (by rw [hcode]; simp) q rfl
          rw [hworker, Option.some.injEq] at hq
          rw [← hq, hold] at hnot
          cases hnot
      · rw [needsPoolLock_congr (hcode' w htw hlt) (stackSize_step hlt _)]
        · exact hneeds
        · intro q r hq
          have hlt' := hstaffed.uses_lt w (.checkStack q) (by rw [hq]; simp) q rfl
          refine reqStackSize_after (fun _ => Nat.ne_of_lt hlt') ?_
          rintro q' a b rfl
          by_cases htc : t = c
          · rcases hown htc with hi | ⟨v, hi⟩ <;> cases hi
          · rcases hothers htc with hi | hi <;> cases hi
    · rw [Bool.not_eq_true] at hold
      obtain rfl := eq_sendKill hold hkill
      have hfits' : ∀ w ∈ (s.pools p).workers, s.needsPoolLock w = false := by
        simpa [KillFits, mayKill, hcode] using hfits
      have hw₀ : w ∈ (s.pools p).workers := by
        rcases of_mem_workers_after hw with hw₀ | ⟨hl, -⟩
        · exact hw₀
        · cases hl
      obtain ⟨hlt, -⟩ := hstaffed.listed p w hw₀
      have hneeds := hfits' w hw₀
      by_cases htw : w = t
      · subst htw
        rw [needsPoolLock_eq_false_iff] at hneeds ⊢
        rw [hcode] at hneeds
        rw [code_step, if_pos rfl]
        refine ⟨?_, ?_⟩
        · intro hmem
          have hrest : TpInstr.lockPool ∈ rest := by simpa [next] using hmem
          exact hneeds.1 (mem_cons_of_mem _ hrest)
        · intro q r heq
          cases heq
      · rw [needsPoolLock_congr (hcode' w htw hlt) (stackSize_step hlt _)]
        · exact hneeds
        · intro q r hq
          have hreq : ((s.after t env (.sendKill p)).pools q).reqStackSize =
              (s.pools q).reqStackSize := reqStackSize_after (by simp) (by simp)
          exact hreq

/-- With spared workers nothing is deadlocked. -/
lemma not_deadlocked (hspared : s.Spared) (hkilling : s.Killing) : ¬s.Deadlocked := by
  rintro ⟨c, p, w, r, r', hc, -, hw, -⟩
  have hkill := (hkilling.kill_iff p).mpr ⟨c, .inr ⟨w, r, hc⟩⟩
  have hneeds := hspared p hkill w (hkilling.joined c p w r hc)
  rw [needsPoolLock_eq_false_iff, hw] at hneeds
  exact hneeds.1 mem_cons_self

end TpState

/-! ## The steps that a worker has left -/

/-- How many steps the instruction may lead to, once the kill signal is raised. -/
def TpInstr.weight : TpInstr → ℕ
  | .lockSync _ | .callJob _ _ => 3
  | .channelWait _ | .inJob _ _ => 2
  | .unlockSync _ | .finishJob _ _ => 1
  | .checkStack _ => 9
  | .popFront _ => 8
  | _ => 0

/-- How many steps the program may have left. -/
def weights (c : List TpInstr) : ℕ := (c.map TpInstr.weight).sum

/-- Nothing left to do weighs nothing. -/
@[simp] lemma weights_nil : weights [] = 0 := rfl

/-- The weight of a program is a sum. -/
@[simp] lemma weights_cons (i : TpInstr) (c : List TpInstr) :
    weights (i :: c) = i.weight + weights c := sum_cons

/-- Weights of programs add up. -/
@[simp] lemma weights_append (c c' : List TpInstr) :
    weights (c ++ c') = weights c + weights c' := by
  rw [weights, map_append, sum_append, weights, weights]

namespace TpState

variable {s : TpState} {t p w : ℕ} {env : TpEnv} {i : TpInstr} {rest : List TpInstr}

/-- An instruction leads to fewer steps than it was taken for, once the kill signal is raised. -/
lemma weights_next (hkill : ∀ q, i = .channelWait q → (s.pools q).killSignal = true) :
    weights (s.next t env i) ≤ i.weight ∧ (0 < i.weight → weights (s.next t env i) < i.weight) := by
  fun_cases next s t env i
  case case11 q l =>
    fun_cases launchCont q l env.launched <;> simp [releaseCode, TpInstr.weight]
  case case2 a b _ _ =>
    fun_cases newPoolCode s.numPools env.listed a b <;>
      simp [updateInternalCode, releaseCode, TpInstr.weight]
  all_goals simp_all [updateInternalCode, releaseCode, getCode, launchCode, relaunchCode,
    TpInstr.weight]

/-- How many steps the workers of a pool may have left. -/
def stepsLeft (s : TpState) (p : ℕ) : ℕ :=
  ∑ u ∈ Finset.range s.numThreads,
    if (s.threads u).workerOf = some p then weights (s.code u) else 0

/-- The worker waits for `wt_sync_lock`. -/
def WaitsForSync (s : TpState) (p w : ℕ) : Prop := ∃ r, s.code w = .lockSync p :: r

/-- The invariants of the states that are reached. -/
structure Sound (s : TpState) : Prop where
  locked : s.Locked
  staffed : s.Staffed
  killing : s.Killing

/-- The invariants hold at first. -/
lemma sound_init : init.Sound := ⟨locked_init, staffed_init, killing_init⟩

/-- The invariants hold after every step. -/
lemma Sound.step (h : s.Sound) (c : TpChoice) : (s.step c).Sound :=
  ⟨h.locked.step c, h.staffed.step h.locked c, h.killing.step h.locked h.staffed c⟩

section

variable (h : s.Sound) (hkill : (s.pools p).killSignal = true)
include h hkill

/-- While the kill signal is raised nobody launches a worker. -/
lemma Sound.launches_eq_none (hcode : s.code t = i :: rest) : launches env i = none := by
  cases hl : launches env i with
  | none => rfl
  | some q =>
    obtain ⟨c, hjoins⟩ := (h.killing.kill_iff p).mp hkill
    obtain ⟨-, l, rfl⟩ := eq_launch_of_launches hl
    by_cases htc : t = c
    · subst htc
      rcases joins_cases hcode hjoins with hi | ⟨v, hi⟩ <;> cases hi
    · rcases h.locked.ignores_of_joins hjoins hcode htc with hi | hi <;> cases hi

/-- A step of a thread, as it counts: the worker has fewer steps left, everybody else as many. -/
lemma Sound.stepsLeft_step (hcode : s.code t = i :: rest) (env : TpEnv) :
    ((s.after t env i).setCode t (s.next t env i ++ rest)).stepsLeft p ≤ s.stepsLeft p ∧
      ((s.threads t).workerOf = some p → 0 < i.weight →
        ((s.after t env i).setCode t (s.next t env i ++ rest)).stepsLeft p < s.stepsLeft p) := by
  have hnone : launches env i = none := h.launches_eq_none hkill hcode
  have hnum : ((s.after t env i).setCode t (s.next t env i ++ rest)).numThreads = s.numThreads := by
    change (s.after t env i).numThreads = _
    rw [numThreads_after, hnone]
    rfl
  have ht := h.locked.lt_numThreads hcode
  have hworker : ∀ u, (((s.after t env i).setCode t (s.next t env i ++ rest)).threads u).workerOf =
      (s.threads u).workerOf := by
    intro u
    rw [workerOf_step, hnone]
    split <;> rfl
  have hothers : ∀ u, u ≠ t →
      ((s.after t env i).setCode t (s.next t env i ++ rest)).code u = s.code u := by
    intro u hu
    rw [code_step, if_neg hu, hnone]
    split <;> rfl
  have hself : ((s.after t env i).setCode t (s.next t env i ++ rest)).code t =
      s.next t env i ++ rest := by
    rw [code_step, if_pos rfl]
  -- a worker of the pool that waits on the channel sees the kill signal
  have hwait : (s.threads t).workerOf = some p →
      ∀ q, i = .channelWait q → (s.pools q).killSignal = true := by
    rintro hw q rfl
    have hown := h.staffed.own t (.channelWait q) (by rw [hcode]; simp) q rfl
    rw [hw, Option.some.injEq] at hown
    rw [← hown]
    exact hkill
  rw [stepsLeft, stepsLeft, hnum]
  refine ⟨Finset.sum_le_sum ?_, ?_⟩
  · intro u _
    rw [hworker]
    split
    · rename_i hw
      by_cases hut : u = t
      · subst hut
        rw [hself, hcode, weights_append, weights_cons]
        exact Nat.add_le_add_right (weights_next (hwait hw)).1 _
      · rw [hothers u hut]
    · exact le_refl _
  · intro hw hpos
    refine Finset.sum_lt_sum ?_ ⟨t, Finset.mem_range.mpr ht, ?_⟩
    · intro u _
      rw [hworker]
      split
      · rename_i hw'
        by_cases hut : u = t
        · subst hut
          rw [hself, hcode, weights_append, weights_cons]
          exact Nat.add_le_add_right (weights_next (hwait hw')).1 _
        · rw [hothers u hut]
      · exact le_refl _
    · rw [hworker, if_pos hw, if_pos hw, hself, hcode, weights_append, weights_cons]
      exact Nat.add_lt_add_right ((weights_next (hwait hw)).2 hpos) _

/-- No step adds to what the workers of a killed pool have to do. -/
lemma Sound.stepsLeft_le (c : TpChoice) : (s.step c).stepsLeft p ≤ s.stepsLeft p := by
  rcases step_cases s c with hsame | ⟨call, hcall⟩ | ⟨t, env, i, rest, -, hcode, -, hstep⟩
  · rw [hsame]
  · rw [hcall, stepsLeft, stepsLeft]
    change ∑ u ∈ Finset.range (s.numThreads + 1), _ ≤ _
    rw [Finset.sum_range_succ]
    apply le_of_eq
    have hlast : (if ((s.call call).threads s.numThreads).workerOf = some p then
        weights ((s.call call).code s.numThreads) else 0) = 0 := by
      simp [TpState.call, addThread]
    rw [hlast, Nat.add_zero]
    apply Finset.sum_congr rfl
    intro u hu
    have hne : u ≠ s.numThreads := Nat.ne_of_lt (Finset.mem_range.mp hu)
    simp [TpState.call, addThread, code, hne]
  · rw [hstep]
    exact (h.stepsLeft_step hkill hcode env).1

end

/-! ## Nobody waits for ever -/

/-- The thread that can go on: the holder of `wt_sync_lock`, or else the worker that waits. -/
def helper (s : TpState) (p w : ℕ) : ℕ := (s.pools p).wtSyncLock.getD w

/-- A worker waits for `wt_sync_lock` of a pool that is killed. -/
structure Waiting (p w : ℕ) (s : TpState) : Prop where
  sound : s.Sound
  kill : (s.pools p).killSignal = true
  waits : s.WaitsForSync p w

section

variable (h : Waiting p w s)
include h

/-- The helper can go on, and its next instruction counts. -/
lemma Waiting.helper_code : ∃ i r, s.code (s.helper p w) = i :: r ∧
    s.blocked (s.helper p w) i = false ∧ 0 < i.weight ∧ i.workerPool = some p := by
  rw [helper]
  cases hsync : (s.pools p).wtSyncLock with
  | none =>
    obtain ⟨r, hr⟩ := h.waits
    exact ⟨_, r, hr, by simp [blocked, hsync], by simp [TpInstr.weight], rfl⟩
  | some u =>
    obtain ⟨i, r, hr, hi⟩ := h.sound.killing.sync p u hsync
    refine ⟨i, r, hr, ?_⟩
    rcases hi with rfl | rfl | rfl | rfl
    · exact ⟨by simp [blocked, h.kill], by simp [TpInstr.weight], rfl⟩
    · exact ⟨rfl, by simp [TpInstr.weight], rfl⟩
    · exact ⟨rfl, by simp [TpInstr.weight], rfl⟩
    · exact ⟨rfl, by simp [TpInstr.weight], rfl⟩

/-- As long as the workers have as many steps left, the holder of the lock is the same. -/
lemma Waiting.helper_step {c : TpChoice} (hsame : (s.step c).stepsLeft p = s.stepsLeft p) :
    (s.step c).helper p w = s.helper p w := by
  have hp : p < s.numPools := by
    obtain ⟨r, hr⟩ := h.waits
    exact h.sound.staffed.uses_lt w (.lockSync p) (by rw [hr]; simp) p rfl
  rcases step_cases s c with hidle | ⟨call, hcall⟩ | ⟨t, env, i, rest, -, hcode, -, hstep⟩
  · rw [hidle]
  · rw [hcall]
    rfl
  · rw [hstep] at hsame ⊢
    have hless := (h.sound.stepsLeft_step h.kill hcode env).2
    have hnot : 0 < i.weight → i.workerPool ≠ some p := by
      intro hpos hpool
      have hown := h.sound.staffed.own t i (by rw [hcode]; simp) p hpool
      have := hless hown hpos
      omega
    change ((s.after t env i).pools p).wtSyncLock.getD w = _
    congr 1
    by_cases hlock : ∃ q, i = .lockSync q
    · obtain ⟨q, rfl⟩ := hlock
      have hpq : p ≠ q := by
        rintro rfl
        exact hnot (by simp [TpInstr.weight]) rfl
      simp [after, updPool, hpq]
    by_cases hunlock : ∃ q, i = .unlockSync q
    · obtain ⟨q, rfl⟩ := hunlock
      have hpq : p ≠ q := by
        rintro rfl
        exact hnot (by simp [TpInstr.weight]) rfl
      simp [after, updPool, hpq]
    · push Not at hlock hunlock
      exact wtSyncLock_after (fun _ => Nat.ne_of_lt hp) hlock hunlock

/-- A step of the helper leaves less to do. -/
lemma Waiting.stepsLeft_lt (env : TpEnv) :
    (s.step (.exec (s.helper p w) env)).stepsLeft p < s.stepsLeft p := by
  obtain ⟨i, r, hcode, hblocked, hpos, hpool⟩ := h.helper_code
  have hown := h.sound.staffed.own (s.helper p w) i (by rw [hcode]; simp) p hpool
  have hless := (h.sound.stepsLeft_step h.kill hcode env).2 hown hpos
  have hstep : s.step (.exec (s.helper p w) env) =
      (s.after (s.helper p w) env i).setCode (s.helper p w) (s.next (s.helper p w) env i ++ r) := by
    rw [step, exec, hcode]
    simp only [hblocked]
    rfl
  rw [hstep]
  exact hless

/-- The kill signal of a pool stays raised while a worker waits. -/
lemma Waiting.kill_step (c : TpChoice) : ((s.step c).pools p).killSignal = true := by
  obtain ⟨r, hr⟩ := h.waits
  have hw : TpInstr.lockSync p ∈ s.code w := by
    rw [hr]
    exact mem_cons_self
  have hp : p < s.numPools := h.sound.staffed.uses_lt w _ hw p rfl
  have hmem : w ∈ (s.pools p).workers :=
    h.sound.staffed.member w p (h.sound.staffed.own w _ hw p rfl) (by rw [hr]; simp)
  rcases step_cases s c with hidle | ⟨call, hcall⟩ | ⟨t, env, i, rest, -, -, -, hstep⟩
  · rw [hidle]
    exact h.kill
  · rw [hcall]
    exact h.kill
  · rw [hstep]
    change ((s.after t env i).pools p).killSignal = true
    by_cases hall : ∃ q, i = .joinAll q
    · obtain ⟨q, rfl⟩ := hall
      simp only [after]
      split
      · rename_i hnone
        rw [pools_updPool, if_neg]
        · exact h.kill
        · rintro rfl
          rw [hnone] at hmem
          cases hmem
      · exact h.kill
    by_cases hsend : ∃ q, i = .sendKill q
    · obtain ⟨q, rfl⟩ := hsend
      simp only [after]
      rw [pools_updPool]
      split
      · rfl
      · exact h.kill
    · push Not at hall hsend
      rw [killSignal_after (fun _ => Nat.ne_of_lt hp) hsend hall]
      exact h.kill

end

/-- The scheduler lets each thread go on that can. -/
def FairRun (choice : ℕ → TpChoice) : Prop :=
  Fair step (fun s t => s.canStep t = true) (fun c t => ∃ env, c = .exec t env) init choice

/-- The invariants hold all along a run. -/
lemma sound_stateAt (choice : ℕ → TpChoice) (j : ℕ) : (stateAt step init choice j).Sound :=
  stateAt_induction (C := fun _ _ => True) (fun _ c h _ => h.step c) sound_init (fun _ => trivial) j

/-- No worker of a pool that is killed waits for `wt_sync_lock` for ever. -/
lemma FairRun.not_waits {choice : ℕ → TpChoice} (hfair : FairRun choice) {j : ℕ}
    (hkill : ((stateAt step init choice j).pools p).killSignal = true) :
    ¬ ∀ k, j ≤ k → (stateAt step init choice k).WaitsForSync p w := by
  intro hwaits
  have hwaiting : ∀ d, Waiting p w (stateAt step init choice (j + d)) := by
    intro d
    induction d with
    | zero => exact ⟨sound_stateAt choice j, hkill, hwaits j (le_refl j)⟩
    | succ d ih =>
      exact ⟨sound_stateAt choice _, ih.kill_step (choice (j + d)), hwaits _ (by omega)⟩
  refine hfair.not_forever (I := Waiting p w) (fun s => s.stepsLeft p) (fun s => s.helper p w)
    ?_ ?_ ?_ ?_ j ?_
  · intro s c h _
    exact h.sound.stepsLeft_le h.kill c
  · intro s c h _ hsame
    exact h.helper_step hsame
  · intro s h
    obtain ⟨i, r, hcode, hblocked, -, -⟩ := h.helper_code
    rw [canStep, hcode]
    simp only [hblocked]
    rfl
  · rintro s c h - ⟨env, rfl⟩
    exact h.stepsLeft_lt env
  · intro k hk
    rw [← Nat.add_sub_cancel' hk]
    exact hwaiting (k - j)

/-- **Destroying a pool does not deadlock** in a run in which no worker needs `pool_lock` when the
kill signal is sent, and no worker waits for `wt_sync_lock` for ever after it was sent. -/
theorem threadPool_neverDeadlocks (choice : ℕ → TpChoice)
    (hfits : ∀ j, (stateAt step init choice j).KillFits (choice j)) :
    (∀ j, ¬(stateAt step init choice j).Deadlocked) ∧
      (FairRun choice → ∀ j p w, ((stateAt step init choice j).pools p).killSignal = true →
        ¬ ∀ k, j ≤ k → (stateAt step init choice k).WaitsForSync p w) := by
  have hboth : ∀ j, (stateAt step init choice j).Sound ∧ (stateAt step init choice j).Spared := by
    intro j
    refine stateAt_induction (I := fun s => s.Sound ∧ s.Spared) (C := KillFits) ?_ ?_ hfits j
    · intro s c h hc
      exact ⟨h.1.step c, h.2.step h.1.locked h.1.staffed h.1.killing hc⟩
    · exact ⟨sound_init, fun p hkill => by cases hkill⟩
  refine ⟨fun j => not_deadlocked (hboth j).2 (hboth j).1.killing, ?_⟩
  intro hfair j p w hkill
  exact hfair.not_waits hkill

/-! ## Two runs -/

instance (s : TpState) (c : TpChoice) : Decidable (s.KillFits c) :=
  match c with
  | .idle => isTrue trivial
  | .call _ => isTrue trivial
  | .exec t _ => inferInstanceAs (Decidable (s.mayKill t = true))

/-- Everything that is asked for is there. -/
def tpEnv : TpEnv := ⟨none, true, true, true, true, 0, 0, [], false⟩

/-- The threads of the list go on, one step each. -/
def runThreads (ts : List ℕ) : List TpChoice := ts.map fun t => .exec t tpEnv

/-- A run that ends with idling. -/
def thenIdle (cs : List TpChoice) (j : ℕ) : TpChoice := (cs[j]?).getD .idle

/-- A run that ends with idling meets the condition if its calls do. -/
lemma killFits_thenIdle {cs : List TpChoice}
    (h : ∀ j < cs.length, (stateAt step init (thenIdle cs) j).KillFits (thenIdle cs j)) (j : ℕ) :
    (stateAt step init (thenIdle cs) j).KillFits (thenIdle cs j) := by
  by_cases hj : j < cs.length
  · exact h j hj
  · have hidle : thenIdle cs j = .idle := by
      rw [thenIdle, getElem?_eq_none (not_lt.mp hj)]
      rfl
    rw [hidle]
    trivial

/-- A client gets a pool with a worker and releases it after the steps `early` of other threads. -/
def getAndRelease (early : List ℕ) : List TpChoice :=
  [.call (.get 2048 1)] ++ runThreads (replicate 11 0 ++ early) ++
    [.call (.release 0)] ++ runThreads (replicate 5 2 ++ [1, 1] ++ replicate 6 2)

/-- The worker gets as far as waiting for a job before its pool is released. -/
theorem threadPool_neverDeadlocks_getAndRelease :
    (∀ j, ¬(stateAt step init (thenIdle (getAndRelease (replicate 6 1))) j).Deadlocked) ∧
      (FairRun (thenIdle (getAndRelease (replicate 6 1))) → ∀ j p w,
        ((stateAt step init (thenIdle (getAndRelease (replicate 6 1))) j).pools
          p).killSignal = true →
        ¬ ∀ k, j ≤ k →
          (stateAt step init (thenIdle (getAndRelease (replicate 6 1))) k).WaitsForSync p w) :=
  threadPool_neverDeadlocks _ (killFits_thenIdle (by decide +kernel))

/-- **The claim fails.** A pool is released before its worker has taken a step. -/
theorem not_threadPool_neverDeadlocks :
    ¬ ∀ choice : ℕ → TpChoice, (∀ j, ¬(stateAt step init choice j).Deadlocked) ∧
      (FairRun choice → ∀ j p w, ((stateAt step init choice j).pools p).killSignal = true →
        ¬ ∀ k, j ≤ k → (stateAt step init choice k).WaitsForSync p w) := by
  intro h
  exact (h (thenIdle (getAndRelease []))).1 18 ⟨2, 0, 1, _, _, rfl, by decide, rfl, by decide⟩

end TpState

end AudioReach
