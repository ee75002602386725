import AudioReach.ThreadPool.Threads

/-!
# The lock discipline of the thread pools

`pool_lock` is taken and given back in pairs, and the instructions that work on the pools are
carried out under it: `Bal d` says so of what a thread has yet to do when it took the lock `d`
times.  Some instructions only ever stand at the head of a program, where they have just been put;
`Headed` says which.  Both hold of all threads in every state that is reached.
-/

namespace AudioReach

open Function (update)

namespace TpState

variable {s : TpState}

/-! ## Steps -/

/-- The program that is set. -/
lemma code_setCode (s : TpState) (t u : ℕ) (c : List TpInstr) :
    (s.setCode t c).code u = if u = t then c else s.code u := by
  by_cases h : u = t
  · subst h
    simp [code, setCode]
  · simp [code, setCode, h]

/-- A step is idle, a call, or an instruction of a thread that can go on. -/
lemma step_cases (s : TpState) (c : TpChoice) : s.step c = s ∨ (∃ call, s.step c = s.call call) ∨
      ∃ t env i rest, c = .exec t env ∧ s.code t = i :: rest ∧ s.blocked t i = false ∧
        s.step c = (s.after t env i).setCode t (s.next t env i ++ rest) := by
  cases c with
  | idle => exact .inl rfl
  | call c => exact .inr (.inl ⟨c, rfl⟩)
  | exec t env =>
    rw [step, exec]
    cases hcode : s.code t with
    | nil => exact .inl rfl
    | cons i rest =>
      dsimp only
      cases hblocked : s.blocked t i with
      | true => exact .inl rfl
      | false => exact .inr (.inr ⟨t, env, i, rest, rfl, hcode, hblocked, rfl⟩)

/-- The pool for which an instruction starts a worker. -/
def launches (env : TpEnv) : TpInstr → Option ℕ
  | .launch p _ => if env.launched then some p else none
  | _ => none

/-- Threads that agree in everything but the mark of termination. -/
structure SameThread (a b : TpThread) : Prop where
  code : b.code = a.code
  workerOf : b.workerOf = a.workerOf
  stackSize : b.stackSize = a.stackSize

/-- A thread is the same as itself. -/
lemma SameThread.refl (a : TpThread) : SameThread a a := ⟨rfl, rfl, rfl⟩

/-- An instruction adds at most the thread that it launches. -/
lemma numThreads_after (s : TpState) (t : ℕ) (env : TpEnv) (i : TpInstr) :
    (s.after t env i).numThreads = s.numThreads + if (launches env i).isSome then 1 else 0 := by
  cases i with
  | launch p loop => cases h : env.launched <;> simp [after, launches, h, addThread, updPool]
  | _ =>
    simp only [after, launches]
    repeat' split
    all_goals rfl

/-- The thread that is launched runs the program of a worker. -/
lemma threads_after_new {t : ℕ} {env : TpEnv} {i : TpInstr} {p : ℕ} (h : launches env i = some p) :
    (s.after t env i).threads s.numThreads =
      ⟨workerCode p, some p, (s.pools p).reqStackSize, false⟩ := by
  cases i with
  | launch q loop =>
    cases hl : env.launched with
    | false => simp [launches, hl] at h
    | true =>
      simp only [launches, hl, if_true, Option.some.injEq] at h
      simp [after, hl, addThread, updPool, h]
  | _ => cases h

/-- No instruction changes the programs of the threads there are. -/
lemma threads_after (s : TpState) (t : ℕ) (env : TpEnv) (i : TpInstr) {u : ℕ}
    (hu : launches env i = none ∨ u ≠ s.numThreads) :
    SameThread (s.threads u) ((s.after t env i).threads u) := by
  cases i with
  | launch p loop =>
    cases h : env.launched with
    | false =>
      simp only [after, h]
      exact .refl _
    | true =>
      have hne : u ≠ s.numThreads := by simpa [launches, h] using hu
      have hsame : (s.after t env (.launch p loop)).threads u = s.threads u := by
        simp [after, h, addThread, hne, updPool]
      rw [hsame]
      exact .refl _
  | setTerminated p =>
    by_cases h : u = t
    · subst h
      constructor <;> simp [after]
    · constructor <;> simp [after, h]
  | _ =>
    simp only [after]
    repeat' split
    all_goals exact .refl _

/-- The programs after a call. -/
lemma code_call (s : TpState) (c : TpCall) (u : ℕ) :
    (s.call c).code u = if u = s.numThreads then c.code else s.code u := by
  by_cases hu : u = s.numThreads
  · simp [code, TpState.call, addThread, hu]
  · simp [code, TpState.call, addThread, hu]

/-- The programs after a step of the thread `t`. -/
lemma code_step (s : TpState) {t : ℕ} (env : TpEnv) {i : TpInstr} (c : List TpInstr) (u : ℕ) :
    ((s.after t env i).setCode t c).code u =
      if u = t then c
      else if u = s.numThreads then (launches env i).elim (s.code u) workerCode
      else s.code u := by
  rw [code_setCode]
  by_cases hu : u = t
  · rw [if_pos hu, if_pos hu]
  · rw [if_neg hu, if_neg hu]
    by_cases hnew : u = s.numThreads
    · rw [if_pos hnew]
      cases hl : launches env i with
      | none => exact (threads_after s t env i (.inl hl)).code
      | some p =>
        rw [code, hnew, threads_after_new hl]
        rfl
    · rw [if_neg hnew]
      exact (threads_after s t env i (.inr hnew)).code

end TpState

/-! ## What stands in a program -/

/-- What an instruction does with `pool_lock`. -/
inductive LockUse
  /-- It takes the lock. -/
  | takes
  /-- It leads to the lock being given back; the lock was taken more than `n` times. -/
  | gives (n : ℕ)
  /-- It is carried out under the lock. -/
  | needs
  /-- It has nothing to do with the lock. -/
  | ignores

/-- What an instruction does with `pool_lock`. -/
def TpInstr.lockUse : TpInstr → LockUse
  | .lockPool => .takes
  | .unlockPool | .releaseBody _ => .gives 0
  | .launch _ loop => .gives (if loop.isSome then 1 else 0)
  | .getBody _ _ | .updateBody _ _ _ | .updateInternalBody _ _ _ | .launchLoop _ _ _ => .needs
  | .sendKill _ | .joinAll _ | .join _ _ | .deinitLoop => .needs
  | .checkJoin _ | .checkJoinFrom _ _ | .setTerminated _ => .needs
  | .drain _ | .destroy _ | .pushBack _ _ _ | .prioCheck _ _ | .reorder _ | .lockSync _ => .ignores
  | .channelWait _ | .checkStack _ | .popFront _ | .unlockSync _ => .ignores
  | .callJob _ _ | .inJob _ _ | .finishJob _ _ => .ignores

/-- A program that is right for a thread that took `pool_lock` `d` times, and gives it back. -/
def Bal : ℕ → List TpInstr → Prop
  | d, [] => d = 0
  | d, i :: c =>
    match i.lockUse with
    | .takes => Bal (d + 1) c
    | .gives n => n < d ∧ Bal (d - 1) c
    | .needs => 0 < d ∧ Bal d c
    | .ignores => Bal d c

/-- The instruction may stand behind the head of a program. -/
def TpInstr.deep : TpInstr → Bool
  | .joinAll _ | .join _ _ | .channelWait _ | .checkStack _ | .popFront _ => false
  | _ => true

/-- A join stands before the loop that it belongs to, and what is behind may stand there. -/
def Headed : List TpInstr → Prop
  | [] => True
  | .join p _ :: i :: c => (i = .joinAll p ∨ ∃ ws, i = .checkJoinFrom p ws) ∧ ∀ j ∈ c, j.deep
  | .join _ _ :: [] => False
  | _ :: c => ∀ j ∈ c, j.deep

/-- A call gives back the lock as often as it takes it. -/
lemma bal_call (c : TpCall) : Bal 0 c.code := by
  cases c <;> simp [TpCall.code, getCode, releaseCode, Bal, TpInstr.lockUse]

/-- A worker gives back the lock as often as it takes it. -/
lemma bal_workerCode (p : ℕ) : Bal 0 (workerCode p) := by
  simp [workerCode, Bal, TpInstr.lockUse]

variable {i : TpInstr} {c : List TpInstr}

/-- What takes the place of an instruction is right where the instruction was. -/
lemma Bal.next {d : ℕ} {rest : List TpInstr} (h : Bal d (i :: rest))
    (hlock : i ≠ .lockPool) (hunlock : i ≠ .unlockPool) (s : TpState) (t : ℕ) (env : TpEnv) :
    Bal d (s.next t env i ++ rest) := by
  fun_cases TpState.next s t env i
  case case11 q l =>
    have hd : 1 < d → 0 < d ∧ 0 < d - 1 := by omega
    fun_cases launchCont q l env.launched <;> simp_all [releaseCode, Bal, TpInstr.lockUse]
  case case2 a b _ _ =>
    fun_cases newPoolCode s.numPools env.listed a b <;>
      simp_all [updateInternalCode, releaseCode, Bal, TpInstr.lockUse]
  all_goals
    simp_all [updateInternalCode, releaseCode, getCode, launchCode, relaunchCode, Bal,
      TpInstr.lockUse]

/-- An instruction may precede a program without joins. -/
lemma headed_cons (hi : ∀ p w, i ≠ .join p w) (hc : ∀ j ∈ c, j.deep) : Headed (i :: c) := by
  cases i with
  | join p w => exact absurd rfl (hi p w)
  | _ => exact hc

/-- Without joins there is none behind the head. -/
lemma headed_of_deep (hc : ∀ j ∈ c, j.deep) : Headed c := by
  cases c with
  | nil => trivial
  | cons i c =>
    refine headed_cons ?_ fun j hj => hc j (List.mem_cons_of_mem _ hj)
    rintro p w rfl
    exact absurd (hc _ List.mem_cons_self) (by simp [TpInstr.deep])

/-- Behind an instruction other than a join there is none. -/
lemma Headed.deep (h : Headed (i :: c)) (hi : ∀ p w, i ≠ .join p w) : ∀ j ∈ c, j.deep := by
  cases i with
  | join p w => exact absurd rfl (hi p w)
  | _ => exact h

/-- Behind a join its loop goes on. -/
lemma Headed.join {p w : ℕ} (h : Headed (.join p w :: c)) :
    ∃ i r, c = i :: r ∧ (i = .joinAll p ∨ ∃ ws, i = .checkJoinFrom p ws) ∧ ∀ j ∈ r, j.deep := by
  cases c with
  | nil => exact absurd h id
  | cons i r => exact ⟨i, r, rfl, h.1, h.2⟩

/-- What takes the place of an instruction keeps joins at the head. -/
lemma Headed.next {rest : List TpInstr} (h : Headed (i :: rest)) (s : TpState)
    (t : ℕ) (env : TpEnv) : Headed (s.next t env i ++ rest) := by
  by_cases hjoin : ∃ p w, i = .join p w
  · obtain ⟨p, w, rfl⟩ := hjoin
    obtain ⟨i, r, rfl, hi, hr⟩ := h.join
    refine headed_cons ?_ hr
    rintro q v rfl
    rcases hi with hi | ⟨ws, hi⟩
    · cases hi
    · cases hi
  have hrest := h.deep fun p w hi => hjoin ⟨p, w, hi⟩
  fun_cases TpState.next s t env i
  case case11 q l =>
    apply headed_of_deep
    fun_cases launchCont q l env.launched <;> simpa [releaseCode, TpInstr.deep] using hrest
  case case2 a b _ _ =>
    apply headed_of_deep
    fun_cases newPoolCode s.numPools env.listed a b <;>
      simpa [updateInternalCode, releaseCode, TpInstr.deep] using hrest
  case case16 => exact ⟨.inl rfl, hrest⟩
  case case27 => exact ⟨.inr ⟨_, rfl⟩, hrest⟩
  all_goals first
    | exact hrest
    | exact absurd ⟨_, _, rfl⟩ hjoin
    | exact headed_of_deep (by simpa [updateInternalCode, releaseCode, getCode, launchCode, relaunchCode,
        TpInstr.deep] using hrest)

namespace TpState

variable {s : TpState}

/-- How often the thread took `pool_lock`. -/
def depth (s : TpState) (t : ℕ) : ℕ :=
  match s.poolLock with
  | none => 0
  | some (o, d) => if o = t then d else 0

/-- The lock discipline. -/
structure Locked (s : TpState) : Prop where
  /-- Threads that were not started have nothing to do. -/
  fresh : ∀ u, s.numThreads ≤ u → s.code u = []
  depth_pos : ∀ o d, s.poolLock = some (o, d) → 0 < d
  bal : ∀ u, Bal (s.depth u) (s.code u)
  headed : ∀ u, Headed (s.code u)

/-- At first nobody has the lock. -/
lemma locked_init : init.Locked where
  fresh := fun _ _ => rfl
  depth_pos := fun _ _ h => by cases h
  bal := fun _ => rfl
  headed := fun _ => trivial

/-- Only a lock or an unlock changes the lock. -/
lemma poolLock_after (s : TpState) (t : ℕ) (env : TpEnv) {i : TpInstr} (hlock : i ≠ .lockPool)
    (hunlock : i ≠ .unlockPool) : (s.after t env i).poolLock = s.poolLock := by
  cases i with
  | lockPool => exact absurd rfl hlock
  | unlockPool => exact absurd rfl hunlock
  | _ =>
    simp only [after]
    repeat' split
    all_goals rfl

/-- One thread at most has the lock. -/
lemma depth_unique {t u : ℕ} (ht : 0 < s.depth t) (hu : 0 < s.depth u) : t = u := by
  rw [depth] at ht hu
  cases hlock : s.poolLock with
  | none =>
    rw [hlock] at ht
    exact absurd ht (Nat.lt_irrefl 0)
  | some o =>
    simp only [hlock] at ht hu
    have howner : o.1 = t := by
      by_contra hne
      rw [if_neg hne] at ht
      exact absurd ht (Nat.lt_irrefl 0)
    have howner' : o.1 = u := by
      by_contra hne
      rw [if_neg hne] at hu
      exact absurd hu (Nat.lt_irrefl 0)
    rw [← howner, howner']

section

variable {t : ℕ} {i : TpInstr} {rest : List TpInstr} (h : s.Locked)
include h

/-- A thread that was not started has no lock. -/
lemma Locked.depth_fresh {u : ℕ} (hu : s.numThreads ≤ u) : s.depth u = 0 := by
  have hbal := h.bal u
  rw [h.fresh u hu] at hbal
  exact hbal

/-- A thread with something to do was started. -/
lemma Locked.lt_numThreads (hcode : s.code t = i :: rest) : t < s.numThreads := by
  by_contra hge
  rw [h.fresh t (by omega)] at hcode
  cases hcode

/-- What an instruction that is carried out does to the depth. -/
lemma Locked.depth_after (hcode : s.code t = i :: rest) (hblocked : s.blocked t i = false)
    (env : TpEnv) :
    (∀ u, u ≠ t → (s.after t env i).depth u = s.depth u) ∧
      (i = .lockPool → (s.after t env i).depth t = s.depth t + 1) ∧
      (i = .unlockPool → (s.after t env i).depth t = s.depth t - 1) ∧
      (i ≠ .lockPool → i ≠ .unlockPool → (s.after t env i).depth t = s.depth t) := by
  by_cases hlock : i = .lockPool
  · subst hlock
    have hfree : s.poolLock = none ∨ ∃ d, s.poolLock = some (t, d) := by
      cases hl : s.poolLock with
      | none => exact .inl rfl
      | some o =>
        have howner : o.1 = t := by simpa [blocked, hl] using hblocked
        exact .inr ⟨o.2, by rw [← howner]⟩
    rcases hfree with hl | ⟨d, hl⟩
    · refine ⟨fun u hu => ?_, fun _ => ?_, by simp, by simp⟩
      · simp [depth, after, hl, hu.symm]
      · simp [depth, after, hl]
    · refine ⟨fun u hu => ?_, fun _ => ?_, by simp, by simp⟩
      · simp [depth, after, hl, hu.symm]
      · simp [depth, after, hl]
  · by_cases hunlock : i = .unlockPool
    · subst hunlock
      have hpos : 0 < s.depth t := by
        have hbal := h.bal t
        rw [hcode] at hbal
        exact hbal.1
      cases hl : s.poolLock with
      | none => simp [depth, hl] at hpos
      | some o =>
        have howner : o.1 = t := by
          by_contra hne
          simp [depth, hl, hne] at hpos
        have hd : s.depth t = o.2 := by simp [depth, hl, howner]
        refine ⟨fun u hu => ?_, by simp, fun _ => ?_, by simp⟩
        · simp only [depth, after, hl, Option.bind_some]
          split
          · rename_i hsplit
            split at hsplit
            · rw [if_neg (by rw [howner]; exact hu.symm)]
            · cases hsplit
          · rename_i hsplit
            split at hsplit
            · cases hsplit
            · cases hsplit
              rw [if_neg (by rw [howner]; exact hu.symm), if_neg (by rw [howner]; exact hu.symm)]
        · rw [hd]
          simp only [depth, after, hl, Option.bind_some]
          split
          · rename_i hsplit
            split at hsplit
            · omega
            · cases hsplit
          · rename_i hsplit
            split at hsplit
            · cases hsplit
            · cases hsplit
              rw [if_pos howner]
    · have hsame := poolLock_after s t env hlock hunlock
      refine ⟨fun u _ => ?_, fun h => absurd h hlock, fun h => absurd h hunlock, fun _ _ => ?_⟩
      · rw [depth, hsame, depth]
      · rw [depth, hsame, depth]

/-- The lock discipline holds on. -/
lemma Locked.step (c : TpChoice) : (s.step c).Locked := by
  rcases step_cases s c with hsame | ⟨call, hcall⟩ | ⟨t, env, i, rest, -, hcode, hblocked, hstep⟩
  · rw [hsame]
    exact h
  · rw [hcall]
    have hnew := code_call s call
    refine ⟨?_, h.depth_pos, ?_, ?_⟩
    · intro u hu
      change s.numThreads + 1 ≤ u at hu
      rw [hnew, if_neg (by omega)]
      exact h.fresh u (by omega)
    · intro u
      change Bal (s.depth u) _
      rw [hnew]
      split
      · rename_i hu
        rw [h.depth_fresh (by omega)]
        exact bal_call call
      · exact h.bal u
    · intro u
      rw [hnew]
      split
      · apply headed_of_deep
        cases call <;> simp [TpCall.code, getCode, releaseCode, TpInstr.deep]
      · exact h.headed u
  · rw [hstep]
    have ht := h.lt_numThreads hcode
    obtain ⟨hothers, htakes, hgives, hkeeps⟩ := h.depth_after hcode hblocked env
    have hbal := h.bal t
    have hheaded := h.headed t
    rw [hcode] at hbal hheaded
    refine ⟨?_, ?_, ?_, ?_⟩
    · intro u hu
      change (s.after t env i).numThreads ≤ u at hu
      rw [numThreads_after] at hu
      rw [code_step, if_neg (by omega)]
      split
      · rename_i hu'
        cases hl : launches env i with
        | none => exact h.fresh u (by omega)
        | some p =>
          rw [hl] at hu
          simp only [Option.isSome_some, if_true] at hu
          omega
      · exact h.fresh u (by omega)
    · intro o d hlock
      change (s.after t env i).poolLock = some (o, d) at hlock
      by_cases hi : i = .lockPool
      · subst hi
        simp only [after, Option.some.injEq, Prod.mk.injEq] at hlock
        omega
      · by_cases hi' : i = .unlockPool
        · subst hi'
          simp only [after] at hlock
          cases hl : s.poolLock with
          | none =>
            rw [hl] at hlock
            cases hlock
          | some o' =>
            rw [hl, Option.bind_some] at hlock
            split at hlock
            · cases hlock
            · simp only [Option.some.injEq, Prod.mk.injEq] at hlock
              omega
        · rw [poolLock_after s t env hi hi'] at hlock
          exact h.depth_pos o d hlock
    · intro u
      change Bal ((s.after t env i).depth u) _
      rw [code_step]
      by_cases hu : u = t
      · subst hu
        rw [if_pos rfl]
        by_cases hi : i = .lockPool
        · subst hi
          rw [htakes rfl]
          exact hbal
        · by_cases hi' : i = .unlockPool
          · subst hi'
            rw [hgives rfl]
            exact hbal.2
          · rw [hkeeps hi hi']
            exact hbal.next hi hi' s u env
      · rw [if_neg hu, hothers u hu]
        split
        · rename_i hnew
          cases launches env i with
          | none => exact h.bal u
          | some p =>
            rw [h.depth_fresh (by omega)]
            exact bal_workerCode p
        · exact h.bal u
    · intro u
      rw [code_step]
      split
      · exact hheaded.next s t env
      · split
        · cases launches env i with
          | none => exact h.headed u
          | some p =>
            apply headed_of_deep
            simp [workerCode, TpInstr.deep]
        · exact h.headed u

end

end TpState

end AudioReach
