import AudioReach.ThreadPool.Members

/-!
# The end of a pool

The client that lets go of a pool last sends the kill signal and joins the workers one by one, all
under `pool_lock`.  So the signal of a pool is raised exactly as long as some thread joins its
workers, and while it is, nobody else can take `pool_lock`.

The holder of `wt_sync_lock` is always a worker that is about to wait on the channel, to look at
what it found there, or to let go of the lock.
-/

namespace AudioReach

/-- The program goes on with joining the workers of the pool. -/
def JoinsCode (p : ℕ) (c : List TpInstr) : Prop :=
  (∃ r, c = .joinAll p :: r) ∨ ∃ w r, c = .join p w :: .joinAll p :: r

/-- The program goes on with an instruction that is carried out under `wt_sync_lock`. -/
def HoldsSync (p : ℕ) (c : List TpInstr) : Prop :=
  ∃ i r, c = i :: r ∧ (i = .channelWait p ∨ i = .checkStack p ∨ i = .popFront p ∨ i = .unlockSync p)

/-- A program without joins does not join workers. -/
lemma not_joinsCode_of_deep {p : ℕ} {c : List TpInstr} (h : ∀ j ∈ c, j.deep) : ¬JoinsCode p c := by
  rintro (⟨r, rfl⟩ | ⟨w, r, rfl⟩)
  · exact absurd (h _ List.mem_cons_self) (by simp [TpInstr.deep])
  · exact absurd (h _ List.mem_cons_self) (by simp [TpInstr.deep])

/-- A program that begins otherwise does not join workers. -/
lemma not_joinsCode_cons {p : ℕ} {i : TpInstr} {c : List TpInstr} (hall : i ≠ .joinAll p)
    (hjoin : ∀ w, i ≠ .join p w) : ¬JoinsCode p (i :: c) := by
  rintro (⟨r, hr⟩ | ⟨w, r, hr⟩)
  · exact hall (List.cons.inj hr).1
  · exact hjoin w (List.cons.inj hr).1

namespace TpState

variable {s : TpState} {t p : ℕ} {env : TpEnv} {i : TpInstr} {rest : List TpInstr}

/-- Only the kill signal leads to joining the workers of a pool. -/
lemma not_joinsCode_next (hheaded : Headed (i :: rest)) (hsend : ∀ q, i ≠ .sendKill q)
    (hall : ∀ q, i ≠ .joinAll q) (hjoin : ∀ q w, i ≠ .join q w) :
    ¬JoinsCode p (s.next t env i ++ rest) := by
  have hrest : ¬JoinsCode p rest := not_joinsCode_of_deep (hheaded.deep hjoin)
  cases i with
  | sendKill q => exact absurd rfl (hsend q)
  | joinAll q => exact absurd rfl (hall q)
  | join q w => exact absurd rfl (hjoin q w)
  | launch q l => exact not_joinsCode_cons (by simp) (by simp)
  | getBody a b =>
    simp only [next, newPoolCode]
    repeat' split
    · exact not_joinsCode_cons (by simp) (by simp)
    · exact not_joinsCode_cons (by simp) (by simp)
    · exact not_joinsCode_cons (by simp) (by simp)
    · exact hrest
  | checkJoinFrom q ws =>
    cases ws with
    | nil => exact hrest
    | cons w ws =>
      simp only [next]
      split
      · simp [JoinsCode]
      · simp [JoinsCode]
  | _ =>
    simp only [next]
    repeat' split
    all_goals
      first
        | exact hrest
        | exact not_joinsCode_cons (by simp) (by simp)

/-- Who joins the workers of a pool, and who holds `wt_sync_lock`. -/
structure Killing (s : TpState) : Prop where
  /-- The kill signal is raised exactly as long as the workers are joined. -/
  kill_iff : ∀ p, (s.pools p).killSignal = true ↔ ∃ t, JoinsCode p (s.code t)
  joined : ∀ t p w r, s.code t = .join p w :: .joinAll p :: r → w ∈ (s.pools p).workers
  /-- The holder of `wt_sync_lock` is between taking it and letting go of it. -/
  sync : ∀ p h, (s.pools p).wtSyncLock = some h → HoldsSync p (s.code h)

/-- At first nobody joins workers. -/
lemma killing_init : init.Killing where
  kill_iff := by
    intro p
    constructor
    · intro h
      cases h
    · rintro ⟨t, ⟨r, hr⟩ | ⟨w, r, hr⟩⟩ <;> cases hr
  joined := fun _ _ _ _ h => by cases h
  sync := fun _ _ h => by cases h

/-- A thread that joins the workers of a pool holds `pool_lock`. -/
lemma Locked.depth_joins (h : s.Locked) (hjoins : JoinsCode p (s.code t)) : 0 < s.depth t := by
  have hbal := h.bal t
  rcases hjoins with ⟨r, hr⟩ | ⟨w, r, hr⟩
  · rw [hr] at hbal
    exact hbal.1
  · rw [hr] at hbal
    exact hbal.1

/-- A pool whose workers are joined was created. -/
lemma Staffed.joins_lt (h : s.Staffed) (hjoins : JoinsCode p (s.code t)) : p < s.numPools := by
  rcases hjoins with ⟨r, hr⟩ | ⟨w, r, hr⟩
  · exact h.uses_lt t (.joinAll p) (by rw [hr]; simp) p rfl
  · exact h.uses_lt t (.joinAll p) (by rw [hr]; simp) p rfl

/-- A pool whose lock is held was created. -/
lemma Staffed.sync_lt (h : s.Staffed) {c : List TpInstr} (hc : s.code t = c)
    (hsync : HoldsSync p c) : p < s.numPools := by
  obtain ⟨i, r, rfl, hi⟩ := hsync
  refine h.uses_lt t i (by rw [hc]; simp) p ?_
  rcases hi with rfl | rfl | rfl | rfl <;> rfl

/-- The holder of the lock stays under it until it lets go. -/
lemma holdsSync_next (h : HoldsSync p (i :: rest)) (hunlock : ∀ q, i ≠ .unlockSync q) :
    HoldsSync p (s.next t env i ++ rest) := by
  obtain ⟨j, r, hj, hcases⟩ := h
  obtain ⟨rfl, rfl⟩ := List.cons.inj hj
  rcases hcases with rfl | rfl | rfl | rfl
  · simp only [next]
    split
    · exact ⟨_, _, rfl, .inr (.inr (.inr rfl))⟩
    · exact ⟨_, _, rfl, .inr (.inl rfl)⟩
  · simp only [next]
    split
    · exact ⟨_, _, rfl, .inr (.inr (.inr rfl))⟩
    · exact ⟨_, _, rfl, .inr (.inr (.inl rfl))⟩
  · simp only [next]
    split
    · exact ⟨_, _, rfl, .inr (.inr (.inr rfl))⟩
    · exact ⟨_, _, rfl, .inr (.inr (.inr rfl))⟩
  · exact absurd rfl (hunlock p)

/-- Nobody holds the lock of a pool that is only just created. -/
lemma wtSyncLock_after_new (hsync : (s.pools s.numPools).wtSyncLock = none)
    (hlock : i ≠ .lockSync s.numPools) :
    ((s.after t env i).pools s.numPools).wtSyncLock = none := by
  cases i with
  | getBody a b =>
    simp only [after]
    repeat' split
    · rw [field_updPool TpPool.wtSyncLock]
      · exact hsync
      · exact fun _ => rfl
    · simp [addPool]
    · exact hsync
  | lockSync q =>
    have hne : s.numPools ≠ q := by
      rintro rfl
      exact hlock rfl
    simp [after, updPool, hne, hsync]
  | unlockSync q =>
    simp only [after]
    rw [pools_updPool]
    split
    · rfl
    · exact hsync
  | _ => rw [wtSyncLock_after (by simp) (by simp) (by simp), hsync]

/-- A thread that joins a worker in the course of joining all of them found it in the list. -/
lemma next_eq_join {w : ℕ} {r : List TpInstr} (hheaded : Headed (i :: rest))
    (heq : s.next t env i ++ rest = .join p w :: .joinAll p :: r) :
    i = .joinAll p ∧ ∃ ws, (s.pools p).workers = w :: ws := by
  by_cases hsend : ∃ q, i = .sendKill q
  · obtain ⟨q, rfl⟩ := hsend
    cases heq
  by_cases hall : ∃ q, i = .joinAll q
  · obtain ⟨q, rfl⟩ := hall
    have hdeep := hheaded.deep (by simp)
    cases hworkers : (s.pools q).workers with
    | nil =>
      simp only [next, hworkers, List.nil_append] at heq
      exact absurd (.inr ⟨w, r, heq⟩) (not_joinsCode_of_deep hdeep)
    | cons v ws =>
      simp only [next, hworkers, List.cons_append, List.nil_append, List.cons.injEq,
        TpInstr.join.injEq] at heq
      obtain ⟨⟨rfl, rfl⟩, -⟩ := heq
      exact ⟨rfl, ws, hworkers⟩
  by_cases hjoin : ∃ q v, i = .join q v
  · obtain ⟨q, v, rfl⟩ := hjoin
    obtain ⟨j, r', rfl, hj, -⟩ := hheaded.join
    rcases hj with rfl | ⟨ws, rfl⟩ <;> cases heq
  · push Not at hsend hall hjoin
    exact absurd (.inr ⟨w, r, heq⟩) (not_joinsCode_next hheaded hsend hall hjoin)

/-- A thread that carries out an instruction under `pool_lock` holds it. -/
lemma Locked.depth_needs (h : s.Locked) (hcode : s.code t = i :: rest)
    (hi : i.lockUse = .needs ∨ ∃ n, i.lockUse = .gives n) : 0 < s.depth t := by
  have hbal := h.bal t
  rw [hcode, Bal] at hbal
  rcases hi with hi | ⟨n, hi⟩
  · simp only [hi] at hbal
    exact hbal.1
  · simp only [hi] at hbal
    omega

section

variable (h : s.Killing) (hlocked : s.Locked) (hstaffed : s.Staffed)
include h hlocked hstaffed

/-- Who joins the workers of a pool, and under which signal, after an instruction. -/
lemma Killing.kill_iff_step (hcode : s.code t = i :: rest) (p : ℕ) :
    ((s.after t env i).pools p).killSignal = true ↔
      ∃ u, JoinsCode p (((s.after t env i).setCode t (s.next t env i ++ rest)).code u) := by
  have hheaded := hlocked.headed t
  rw [hcode] at hheaded
  -- the other threads join as before, and a new one does not join
  have hothers : ∀ u, u ≠ t →
      (JoinsCode p (((s.after t env i).setCode t (s.next t env i ++ rest)).code u) ↔
        JoinsCode p (s.code u)) := by
    intro u hu
    rw [code_step, if_neg hu]
    split
    · rename_i hnew
      cases launches env i with
      | none => exact Iff.rfl
      | some q =>
        rw [hlocked.fresh u (by omega)]
        simp [JoinsCode, workerCode]
    · exact Iff.rfl
  have hself : ((s.after t env i).setCode t (s.next t env i ++ rest)).code t =
      s.next t env i ++ rest := by
    rw [code_step, if_pos rfl]
  -- what has to be shown of the thread that goes on
  have hmain : (((s.after t env i).pools p).killSignal = (s.pools p).killSignal →
      (JoinsCode p (s.next t env i ++ rest) ↔ JoinsCode p (i :: rest)) →
      (((s.after t env i).pools p).killSignal = true ↔
        ∃ u, JoinsCode p (((s.after t env i).setCode t (s.next t env i ++ rest)).code u))) := by
    intro hkill hjoins
    rw [hkill, h.kill_iff p]
    constructor
    · rintro ⟨u, hu⟩
      by_cases hut : u = t
      · subst hut
        refine ⟨u, ?_⟩
        rw [hself, hjoins, ← hcode]
        exact hu
      · exact ⟨u, (hothers u hut).mpr hu⟩
    · rintro ⟨u, hu⟩
      by_cases hut : u = t
      · subst hut
        refine ⟨u, ?_⟩
        rwa [hself, hjoins, ← hcode] at hu
      · exact ⟨u, (hothers u hut).mp hu⟩
  by_cases hsend : ∃ q, i = .sendKill q
  · obtain ⟨q, rfl⟩ := hsend
    by_cases hpq : p = q
    · subst hpq
      have hkill : ((s.after t env (.sendKill p)).pools p).killSignal = true := by
        simp [after, updPool]
      rw [hkill]
      refine ⟨fun _ => ⟨t, ?_⟩, fun _ => rfl⟩
      rw [hself]
      exact .inl ⟨rest, rfl⟩
    · apply hmain
      · simp [after, updPool, hpq]
      · simp [next, JoinsCode, Ne.symm hpq]
  by_cases hall : ∃ q, i = .joinAll q
  · obtain ⟨q, rfl⟩ := hall
    have hdeep := hheaded.deep (by simp)
    by_cases hpq : p = q
    · subst hpq
      cases hworkers : (s.pools p).workers with
      | nil =>
        have hkill : ((s.after t env (.joinAll p)).pools p).killSignal = false := by
          simp [after, hworkers, updPool]
        rw [hkill]
        constructor
        · intro hfalse
          cases hfalse
        · rintro ⟨u, hu⟩
          exfalso
          by_cases hut : u = t
          · subst hut
            rw [hself] at hu
            simp only [next, hworkers, List.nil_append] at hu
            exact not_joinsCode_of_deep hdeep hu
          · rw [hothers u hut] at hu
            have hpos := hlocked.depth_joins hu
            have hpos' := hlocked.depth_joins (by
              rw [hcode]
              exact .inl ⟨rest, rfl⟩)
            exact hut (depth_unique hpos hpos')
      | cons w ws =>
        apply hmain
        · simp [after, hworkers]
        · simp [next, hworkers, JoinsCode]
    · apply hmain
      · simp only [after]
        split
        · rw [pools_updPool, if_neg hpq]
        · rfl
      · have hnot : ¬JoinsCode p (.joinAll q :: rest) :=
          not_joinsCode_cons (by simp [Ne.symm hpq]) (by simp)
        simp only [hnot, iff_false, next]
        split
        · exact not_joinsCode_of_deep hdeep
        · simp [JoinsCode, Ne.symm hpq]
  by_cases hjoin : ∃ q w, i = .join q w
  · obtain ⟨q, w, rfl⟩ := hjoin
    apply hmain
    · exact killSignal_after (by simp) (by simp) (by simp)
    · obtain ⟨j, r, rfl, hj, hr⟩ := hheaded.join
      rcases hj with rfl | ⟨ws, rfl⟩
      · simp only [next, JoinsCode, List.nil_append, List.cons.injEq, TpInstr.joinAll.injEq,
          TpInstr.join.injEq]
        constructor
        · rintro (⟨r', hq, -⟩ | ⟨w', r', hfalse, -⟩)
          · exact .inr ⟨w, r, ⟨hq, rfl⟩, hq, rfl⟩
          · cases hfalse
        · rintro (⟨r', hfalse, -⟩ | ⟨w', r', ⟨hq, -⟩, -, -⟩)
          · cases hfalse
          · exact .inl ⟨r, hq, rfl⟩
      · simp [next, JoinsCode]
  · push Not at hsend hall hjoin
    have hnot : ¬JoinsCode p (i :: rest) := not_joinsCode_cons (hall p) (hjoin p)
    have hnext : ¬JoinsCode p (s.next t env i ++ rest) :=
      not_joinsCode_next hheaded hsend hall hjoin
    by_cases hnew : p = s.numPools
    · subst hnew
      have hfalse : (s.pools s.numPools).killSignal = false := by
        rw [Bool.eq_false_iff]
        intro htrue
        obtain ⟨u, hu⟩ := (h.kill_iff _).mp htrue
        exact absurd (hstaffed.joins_lt hu) (Nat.lt_irrefl _)
      apply hmain
      · by_cases hget : ∃ a b, i = .getBody a b
        · obtain ⟨a, b, rfl⟩ := hget
          rw [hfalse]
          simp only [after]
          repeat' split
          · rw [field_updPool TpPool.killSignal]
            · exact hfalse
            · exact fun _ => rfl
          · simp [addPool]
          · exact hfalse
        · exact killSignal_after (fun h => absurd h hget) hsend hall
      · exact ⟨fun h => absurd h hnext, fun h => absurd h hnot⟩
    · apply hmain
      · exact killSignal_after (fun _ => hnew) hsend hall
      · exact ⟨fun h => absurd h hnext, fun h => absurd h hnot⟩

/-- The holder of `wt_sync_lock` after an instruction. -/
lemma Killing.sync_step (hcode : s.code t = i :: rest) {u : ℕ}
    (hsync : ((s.after t env i).pools p).wtSyncLock = some u) :
    HoldsSync p (((s.after t env i).setCode t (s.next t env i ++ rest)).code u) := by
  -- the holder before goes on, unless it lets go of the lock
  have hkeep : (s.pools p).wtSyncLock = some u → (u = t → ∀ q, i ≠ .unlockSync q) →
      HoldsSync p (((s.after t env i).setCode t (s.next t env i ++ rest)).code u) := by
    intro hold hunlock
    have hholds := h.sync p u hold
    rw [code_step]
    by_cases hut : u = t
    · subst hut
      rw [if_pos rfl]
      rw [hcode] at hholds
      exact holdsSync_next hholds (hunlock rfl)
    · have hlt : u < s.numThreads := by
        obtain ⟨j, r, hj, -⟩ := hholds
        exact hlocked.lt_numThreads hj
      rw [if_neg hut, if_neg (by omega)]
      exact hholds
  by_cases hnew : p = s.numPools
  · subst hnew
    have hnone : (s.pools s.numPools).wtSyncLock = none := by
      cases hold : (s.pools s.numPools).wtSyncLock with
      | none => rfl
      | some v => exact absurd (hstaffed.sync_lt rfl (h.sync _ v hold)) (Nat.lt_irrefl _)
    rw [wtSyncLock_after_new hnone] at hsync
    · cases hsync
    · rintro rfl
      have hlt := hstaffed.uses_lt t (.lockSync s.numPools) (by rw [hcode]; simp) s.numPools rfl
      exact absurd hlt (Nat.lt_irrefl _)
  by_cases hlock : ∃ q, i = .lockSync q
  · obtain ⟨q, rfl⟩ := hlock
    by_cases hpq : p = q
    · subst hpq
      have hu : t = u := by simpa [after, updPool] using hsync
      subst hu
      rw [code_step, if_pos rfl]
      exact ⟨_, _, rfl, .inl rfl⟩
    · apply hkeep
      · simpa [after, updPool, hpq] using hsync
      · simp
  by_cases hunlock : ∃ q, i = .unlockSync q
  · obtain ⟨q, rfl⟩ := hunlock
    by_cases hpq : p = q
    · subst hpq
      simp [after, updPool] at hsync
    · have hold : (s.pools p).wtSyncLock = some u := by simpa [after, updPool, hpq] using hsync
      apply hkeep hold
      rintro rfl
      have hholds := h.sync p u hold
      rw [hcode] at hholds
      obtain ⟨j, r, hj, hcases⟩ := hholds
      obtain ⟨rfl, -⟩ := List.cons.inj hj
      simp [Ne.symm hpq] at hcases
  · push Not at hlock hunlock
    rw [wtSyncLock_after (fun _ => hnew) hlock hunlock] at hsync
    exact hkeep hsync fun _ => hunlock

/-- Who joins workers, and who holds `wt_sync_lock`, in all states that are reached. -/
lemma Killing.step (c : TpChoice) : (s.step c).Killing := by
  rcases step_cases s c with hsame | ⟨call, hcall⟩ | ⟨t, env, i, rest, -, hcode, hblocked, hstep⟩
  · rw [hsame]
    exact h
  · rw [hcall]
    have hnew : ∀ u, (s.call call).code u = if u = s.numThreads then call.code else s.code u := by
      intro u
      by_cases hu : u = s.numThreads
      · simp [code, TpState.call, addThread, hu]
      · simp [code, TpState.call, addThread, hu]
    have hfresh := hlocked.fresh s.numThreads (le_refl _)
    have hdeep : ∀ p, ¬JoinsCode p call.code := by
      intro p
      cases call <;> simp [TpCall.code, getCode, releaseCode, JoinsCode]
    refine ⟨?_, ?_, ?_⟩
    · intro p
      refine (h.kill_iff p).trans ⟨?_, ?_⟩
      · rintro ⟨u, hu⟩
        refine ⟨u, ?_⟩
        rw [hnew]
        split
        · rename_i hu'
          rw [hu', hfresh] at hu
          simp [JoinsCode] at hu
        · exact hu
      · rintro ⟨u, hu⟩
        rw [hnew] at hu
        split at hu
        · exact absurd hu (hdeep p)
        · exact ⟨u, hu⟩
    · intro u p w r hr
      rw [hnew] at hr
      split at hr
      · exact absurd (.inr ⟨w, r, hr⟩) (hdeep p)
      · exact h.joined u p w r hr
    · intro p u hu
      have hholds := h.sync p u hu
      rw [hnew, if_neg]
      · exact hholds
      · rintro rfl
        obtain ⟨j, r, hj, -⟩ := hholds
        rw [hfresh] at hj
        cases hj
  · rw [hstep]
    refine ⟨h.kill_iff_step hlocked hstaffed hcode, ?_,
      fun p u => h.sync_step hlocked hstaffed hcode⟩
    intro u p w r hr
    have hheaded := hlocked.headed t
    rw [hcode] at hheaded
    rw [code_step] at hr
    split at hr
    · obtain ⟨rfl, ws, hworkers⟩ := next_eq_join hheaded hr
      have hp := hstaffed.uses_lt t (.joinAll p) (by rw [hcode]; simp) p rfl
      exact mem_workers_after (by rw [hworkers]; simp) hp (by simp)
    · rename_i hut
      have hold : s.code u = .join p w :: .joinAll p :: r := by
        split at hr
        · cases hl : launches env i with
          | none =>
            rw [hl] at hr
            exact hr
          | some q =>
            rw [hl] at hr
            cases hr
        · exact hr
      have hjoins : JoinsCode p (s.code u) := .inr ⟨w, r, hold⟩
      refine mem_workers_after (h.joined u p w r hold) (hstaffed.joins_lt hjoins) ?_
      -- the thread that carries out a join holds the lock, and so does the one that joins `w`
      rintro rfl
      exact hut (depth_unique (hlocked.depth_joins hjoins) (hlocked.depth_needs hcode (.inl rfl)))

end

end TpState

end AudioReach
