import AudioReach.Amdb.LoaderRuns

/-!
# The module loader finishes every request

What the accounts and the wake-ups come to: the promise of the loader for every state of a run that
does not jam it, and the run that does.
-/

namespace AudioReach

open Function (update)
open Library List

namespace AmdbLoader

/-- No thread that is doing something can go on. -/
def Stuck (s : AmdbLoader) : Prop :=
  ∀ t < s.core.total, ¬ (s.stage t = .ready ∧ s.core.point t = .idle) →
    ∀ more u, s.step (.run t more u) = s

/-- Everything that was asked for was done. -/
structure Finished (s : AmdbLoader) : Prop where
  clients : ∀ t < s.core.total, s.core.numThreads ≤ t → s.core.point t = .idle
  ran : ∀ k < s.core.numTasks, s.core.ran.count k = 1
  called : ∀ r < s.core.numRequests, s.core.called.count r = 1
  votes : ∀ r < s.core.numRequests, s.core.taskQueue.pushed.count (.releaseVote r) = 1
  tasks : s.core.taskQueue.contents = []

/-- **What the loader promises.** -/
structure Right (s : AmdbLoader) : Prop where
  /-- The task queue delivers what was pushed, in order. -/
  taskQueue : s.core.taskQueue.Fifo
  handleQueue : s.core.handleQueue.Fifo
  /-- Each task was run, is in the queue or is with one thread, and only one of this once. -/
  tasks : ∀ k < s.core.numTasks, s.core.ran.count k +
    (s.core.taskQueue.contents.map LoaderTask.number).count (some k) + s.core.inHand (.task k) = 1
  ran : ∀ k ∈ s.core.ran, k < s.core.numTasks
  /-- Each client is called back once at most, and only clients are. -/
  called : ∀ r, s.core.called.count r ≤ 1 ∧ (r ∈ s.core.called → r < s.core.numRequests)
  /-- A client that was called back has released its handle, and its tasks have been run. -/
  after : ∀ r ∈ s.core.called, s.core.released.count r = 1 ∧
    ∀ k < s.core.numTasks, s.core.taskRequest k = r → s.core.ran.count k = 1
  oneClient : ∀ t < s.core.total, ∀ u < s.core.total, ∀ h, (s.core.point t).client = some h →
    (s.core.point u).client = some h → t = u
  taken : ∀ t < s.core.total, ∀ h, (s.core.point t).client = some h →
    h ∉ s.core.handleQueue.contents
  /-- The vote of a client that was called back was asked for once, and its release was asked for
  once or is about to be. -/
  votes : ∀ r ∈ s.core.called, s.core.taskQueue.pushed.count (.vote r) = 1 ∧
    s.core.taskQueue.pushed.count (.releaseVote r) + s.core.inHand (.release r) = 1
  /-- The loader threads do not all wait for room in the task queue. -/
  goesOn : ¬ s.AllWait
  /-- If nothing can be done any more, everything was done. -/
  finishes : s.Stuck → s.Finished

variable {s : AmdbLoader}

/-! ## The requests -/

section Requests

variable {c : LoaderCore} (h : c.Sound)
include h

variable {r a t : ℕ}

lemma live_eq_zero (hr : r ∈ c.called) : r < c.numRequests ∧ c.live r = 0 := by
  have hbal := h.balanced (.call r)
  have hpos : 0 < c.called.count r := count_pos_iff.mpr hr
  change c.live r + c.called.count r + _ = oneIfBelow r c.numRequests at hbal
  have hlt : r < c.numRequests := by
    by_contra hge
    rw [oneIfBelow_of_not_lt hge] at hbal
    omega
  rw [oneIfBelow_of_lt hlt] at hbal
  exact ⟨hlt, by omega⟩

lemma request_ne (hlive : c.live r = 0) (hpos : 0 < c.refs a) : c.request a ≠ r := by
  rintro rfl
  have hlt := (h.balanced.referred hpos).1
  have hle := Finset.single_le_sum (f := fun b => oneIfLive (c.refs b) (c.request b) (c.request a))
    (fun _ _ => Nat.zero_le _) (Finset.mem_range.mpr hlt)
  have hone : oneIfLive (c.refs a) (c.request a) (c.request a) = 1 := by
    unfold oneIfLive
    rw [if_pos rfl, oneIfReferred_of_pos hpos]
  have hle : oneIfLive (c.refs a) (c.request a) (c.request a) ≤ c.live (c.request a) := hle
  omega

lemma clientOf_eq_zero (hlive : c.live r = 0) (ht : t < c.total) : (c.point t).clientOf r = 0 := by
  have hknows := h.points t ht
  have hrefs : ∀ a, 0 < (c.point t).refsOf a → c.request a ≠ r :=
    fun a hpos => request_ne h hlive (h.balanced.refs_pos ht hpos)
  cases hpt : c.point t <;> rw [hpt] at hknows hrefs
  case pushVote a r' | holding a r' =>
    have hne := hrefs a (by simp)
    exact if_neg fun heq => hne (hknows.trans heq)
  case pushTask a r' k =>
    have hne := hrefs a (by simp)
    exact if_neg fun heq => hne (hknows.1.trans heq)
  all_goals rfl

lemma taskOf_eq_zero {k : ℕ} (hlive : c.live r = 0) (ht : t < c.total)
    (hk : c.taskRequest k = r) : (c.point t).taskOf k = 0 := by
  have hknows := h.points t ht
  have hrefs : ∀ a, 0 < (c.point t).refsOf a → c.request a ≠ r :=
    fun a hpos => request_ne h hlive (h.balanced.refs_pos ht hpos)
  cases hpt : c.point t <;> rw [hpt] at hknows hrefs
  case pushTask a r' k' =>
    have hne := hrefs a (by simp)
    refine if_neg fun heq => hne ?_
    rw [hknows.1, ← hknows.2, heq, hk]
  case runTask a k' =>
    have hne := hrefs a (by simp)
    refine if_neg fun heq => hne ?_
    rw [← hk, ← heq]
    exact hknows
  all_goals rfl

/-- A request that was called back was released, and its tasks have been run. -/
lemma released_and_ran (hr : r ∈ c.called) : c.released.count r = 1 ∧
    ∀ k < c.numTasks, c.taskRequest k = r → c.ran.count k = 1 := by
  obtain ⟨hlt, hlive⟩ := live_eq_zero h hr
  constructor
  · have hbal := h.balanced (.client r)
    have hzero : c.inHand (.client r) = 0 :=
      Finset.sum_eq_zero fun t ht => clientOf_eq_zero h hlive (Finset.mem_range.mp ht)
    rw [hzero] at hbal
    change c.released.count r + 0 = oneIfBelow r c.numRequests at hbal
    rw [oneIfBelow_of_lt hlt] at hbal
    exact hbal
  · intro k hk hkr
    have hbal := h.balanced (.task k)
    have hzero : c.inHand (.task k) = 0 :=
      Finset.sum_eq_zero fun t ht => taskOf_eq_zero h hlive (Finset.mem_range.mp ht) hkr
    have hqueue : (c.taskQueue.contents.map LoaderTask.number).count (some k) = 0 := by
      refine count_eq_zero.mpr fun hmem => ?_
      obtain ⟨x, hx, hnumber⟩ := mem_map.mp hmem
      cases x with
      | dlopen a k' =>
        cases hnumber
        exact request_ne h hlive (h.balanced.queued_pos hx) ((h.queued a k hx).trans hkr)
      | vote r' => cases hnumber
      | releaseVote r' => cases hnumber
    rw [hzero] at hbal
    change c.ran.count k + (c.taskQueue.contents.map LoaderTask.number).count (some k) + 0 =
      oneIfBelow k c.numTasks at hbal
    rw [hqueue, oneIfBelow_of_lt hk] at hbal
    exact hbal

/-- The votes of a request that was called back. -/
lemma votes_of_called (hr : r ∈ c.called) : c.taskQueue.pushed.count (.vote r) = 1 ∧
      c.taskQueue.pushed.count (.releaseVote r) + c.inHand (.release r) = 1 := by
  obtain ⟨hlt, hlive⟩ := live_eq_zero h hr
  constructor
  · have hbal := h.balanced (.vote r)
    have hzero : c.inHand (.vote r) = 0 := by
      refine Finset.sum_eq_zero fun t ht => ?_
      have hclient := clientOf_eq_zero h hlive (Finset.mem_range.mp ht)
      cases hpt : c.point t <;> rw [hpt] at hclient <;> first | rfl | exact hclient
    rw [hzero] at hbal
    change c.taskQueue.pushed.count (.vote r) + 0 = oneIfBelow r c.numRequests at hbal
    rw [oneIfBelow_of_lt hlt] at hbal
    exact hbal
  · have hbal := h.balanced (.release r)
    have hcalls := h.balanced (.call r)
    change _ = c.called.count r at hbal
    change c.live r + c.called.count r + _ = oneIfBelow r c.numRequests at hcalls
    rw [oneIfBelow_of_lt hlt] at hcalls
    have hpos : 0 < c.called.count r := count_pos_iff.mpr hr
    change c.taskQueue.pushed.count (.releaseVote r) + c.inHand (.release r) = _ at hbal
    omega

omit h in
lemma client_cases (hknows : c.Linked (c.point t))
    (hclient : (c.point t).client = some a) : (c.point t).keepsOf a = 1 ∨
      0 < (c.point t).refsOf a ∧ (c.point t).clientOf (c.request a) = 1 := by
  cases hpt : c.point t <;> rw [hpt] at hclient hknows <;> cases hclient
  case fillHandle => exact .inl (if_pos rfl)
  case pushVote r | holding r => exact .inr ⟨by simp, if_pos hknows.symm⟩
  case pushTask r k => exact .inr ⟨by simp, if_pos hknows.1.symm⟩

/-- Two clients do not have the same handle. -/
lemma client_unique {u : ℕ} (ht : t < c.total) (hu : u < c.total)
    (hta : (c.point t).client = some a) (hua : (c.point u).client = some a) : t = u := by
  by_contra hne
  rcases client_cases (h.points t ht) hta with htk | ⟨htr, htc⟩
  · obtain ⟨-, hzero, -, hothers⟩ := h.balanced.keeps ht htk
    rcases client_cases (h.points u hu) hua with huk | ⟨hur, -⟩
    · rw [hothers u hu (Ne.symm hne)] at huk
      cases huk
    · have := h.balanced.refs_pos hu hur
      omega
  · rcases client_cases (h.points u hu) hua with huk | ⟨-, huc⟩
    · have hzero := (h.balanced.keeps hu huk).2.1
      have := h.balanced.refs_pos ht htr
      omega
    · have htwo : (c.point t).clientOf (c.request a) + (c.point u).clientOf (c.request a) ≤ _ :=
        LoaderCore.has_add_has_le ht hu hne (.client (c.request a))
      have hbal := h.balanced (.client (c.request a))
      change _ = oneIfBelow (c.request a) c.numRequests at hbal
      have hle : oneIfBelow (c.request a) c.numRequests ≤ 1 := by
        unfold oneIfBelow
        split <;> omega
      omega

lemma client_taken (ht : t < c.total) (hclient : (c.point t).client = some a) :
    a ∉ c.handleQueue.contents := by
  rcases client_cases (h.points t ht) hclient with hkeeps | ⟨hrefs, -⟩
  · exact (h.balanced.keeps ht hkeeps).2.2.1
  · exact (h.balanced.referred (h.balanced.refs_pos ht hrefs)).2.1

end Requests

/-! ## No thread can go on -/

section Stuck

variable (h : s.Orderly) (hstuck : s.Stuck)
include h hstuck

variable {t : ℕ}

omit h hstuck in
lemma nextPoint_ne {c : LoaderCore} (hop : (c.point t).queueOp = none) :
    c.nextPoint t true ≠ c.point t := by
  unfold LoaderCore.nextPoint
  cases hpt : c.point t <;> rw [hpt] at hop <;> cases hop
  case releaseTask a k =>
    dsimp only
    unfold LoaderCore.afterRelease LoaderCore.home
    split_ifs <;> exact nofun
  all_goals exact nofun

/-- What keeps a thread from going on. -/
lemma stuck_cases (ht : t < s.core.total) :
    (s.stage t = .ready ∧ s.core.point t = .idle) ∨ s.stage t = .waiting ∨
      s.stage t = .ready ∧ ∃ q op, (s.core.point t).queueOp = some (q, op) ∧ s.lock q ≠ none := by
  by_cases hidle : s.stage t = .ready ∧ s.core.point t = .idle
  · exact .inl hidle
  have hsame : ∀ more u, s.runThread t more u = s := fun more u => by
    have := hstuck t ht hidle more u
    unfold step at this
    dsimp only at this
    rwa [if_pos ht] at this
  have hstage : ∀ u, (s.runThread t true u).stage t = s.stage t := fun u => by
    rw [hsame true u]
  -- a signal goes to a thread that waits for it, if there is one
  have hsignal : ∀ q op (next : AmdbLoader → AmdbLoader), ∃ u s₁,
      s.signal q op u next = next s₁ := fun q op next => by
    unfold signal
    by_cases hex : ∃ u < s.core.total, s.waits q op u = true
    · obtain ⟨u, hu, hwaits⟩ := hex
      exact ⟨u, s.setStage u .ready, if_pos ⟨hu, hwaits⟩⟩
    · refine ⟨0, s, ?_⟩
      rw [if_neg fun hw => hex ⟨0, hw⟩, if_pos fun v hv hw => hex ⟨v, hv, hw⟩]
  refine .inr ?_
  unfold runThread at hstage hsame
  cases hst : s.stage t with
  | waiting => exact .inl rfl
  | ready =>
    rw [hst] at hstage hsame
    cases hop : (s.core.point t).queueOp with
    | none =>
      exfalso
      have hpoint : (s.core.act t true).point t = s.core.point t := by
        have hcore := congrArg AmdbLoader.core (hsame true 0)
        rw [hop] at hcore
        exact congrArg (fun c => c.point t) hcore
      rw [LoaderCore.act_point_self] at hpoint
      exact nextPoint_ne hop hpoint
    | some qop =>
      refine .inr ⟨rfl, qop.1, qop.2, rfl, fun hfree => ?_⟩
      have hlocked := hstage 0
      rw [hop] at hlocked
      dsimp only at hlocked
      rw [if_pos hfree, setStage_stage_self] at hlocked
      cases hlocked
  | locked =>
    exfalso
    rw [hst] at hstage
    cases hop : (s.core.point t).queueOp with
    | none => exact h.inOp t (.inl hst) hop
    | some qop =>
      have hnext := hstage 0
      rw [hop] at hnext
      dsimp only at hnext
      split at hnext
      · rw [setStage_stage_self] at hnext
        cases hnext
      · rw [setStage_stage_self] at hnext
        cases hnext
  | signalOther q op =>
    rw [hst] at hstage
    dsimp only at hstage
    obtain ⟨u, s₁, heq⟩ := hsignal q op.other fun s => s.setStage t (.signalSame q op)
    have hnext := hstage u
    rw [heq, setStage_stage_self] at hnext
    cases hnext
  | signalSame q op =>
    rw [hst] at hstage
    dsimp only at hstage
    by_cases hp : s.core.possible q op = true
    · obtain ⟨u, s₁, heq⟩ := hsignal q op fun s => s.setStage t (.unlock q)
      have hnext := hstage u
      rw [if_pos hp, heq, setStage_stage_self] at hnext
      cases hnext
    · have hnext := hstage 0
      rw [if_neg hp, setStage_stage_self] at hnext
      cases hnext
  | unlock q =>
    rw [hst] at hstage
    have hnext := hstage 0
    rw [setStage_stage_self] at hnext
    cases hnext

/-- A thread that cannot go on has nothing to do, or the operation it needs is not possible. -/
lemma stuck_or_idle (ht : t < s.core.total) : s.core.point t = .idle ∨
    ∃ q op, (s.core.point t).queueOp = some (q, op) ∧ s.core.possible q op = false := by
  -- who holds a mutex could go on
  have hfree : ∀ q, s.lock q = none := by
    intro q
    cases hlock : s.lock q with
    | none => rfl
    | some u =>
      obtain ⟨hu, hmutex⟩ := h.locked q u hlock
      rcases stuck_cases h hstuck hu with ⟨hst, -⟩ | hst | ⟨hst, -⟩ <;> rw [hst] at hmutex <;>
        cases hmutex
  have hcases : ∀ u < s.core.total,
      s.stage u = .ready ∧ s.core.point u = .idle ∨ s.stage u = .waiting := by
    intro u hu
    rcases stuck_cases h hstuck hu with hidle | hst | ⟨-, q, -, -, hlock⟩
    · exact .inl hidle
    · exact .inr hst
    · exact absurd (hfree q) hlock
  rcases hcases t ht with ⟨-, hidle⟩ | hst
  · exact .inl hidle
  · cases hop : (s.core.point t).queueOp with
    | none => exact absurd hop (h.inOp t (.inr hst))
    | some qop =>
      refine .inr ⟨qop.1, qop.2, rfl, Bool.eq_false_iff.mpr fun hp => ?_⟩
      obtain ⟨u, hu, halert⟩ := h.woken qop.1 qop.2 hp ⟨t, ht, waits_iff.mpr ⟨hst, hop⟩⟩
      unfold alert at halert
      rcases hcases u hu with ⟨hst', hidle⟩ | hst' <;> rw [hst'] at halert
      · rw [hidle] at halert
        cases halert
      · exact halert

omit hstuck in
/-- There is room for a handle that is not in its queue. -/
lemma handles_room {a : ℕ} (hlt : a < amdbNumClientHandles)
    (hmem : a ∉ s.core.handleQueue.contents) : s.core.possible .handles .push = true := by
  have hcount : ∀ b, s.core.handleQueue.contents.count b ≤ oneIfBelow b amdbNumClientHandles := by
    intro b
    have hbal := h.core.balanced (.handle b)
    change s.core.handleQueue.contents.count b + _ + _ = oneIfBelow b _ at hbal
    omega
  have hnodup : s.core.handleQueue.contents.Nodup := by
    refine nodup_iff_count_le_one.mpr fun b => (hcount b).trans ?_
    unfold oneIfBelow
    split <;> omega
  have hsub : s.core.handleQueue.contents ⊆ (range amdbNumClientHandles).erase a := by
    intro b hb
    refine (nodup_range.mem_erase_iff).mpr ⟨?_, mem_range.mpr ?_⟩
    · rintro rfl
      exact hmem hb
    · by_contra hge
      have hle := hcount b
      rw [oneIfBelow_of_not_lt hge] at hle
      have := count_pos_iff.mpr hb
      omega
  have hlen := (hnodup.subperm hsub).length_le
  rw [length_erase_of_mem (mem_range.mpr hlt), length_range] at hlen
  unfold LoaderCore.possible
  simp only [Bool.not_eq_true', Bool.eq_false_iff, ne_eq, AmdbQueue.isFull_iff, h.room.2,
    ← h.core.handles.num]
  omega

lemma point_ne_pushHandle {a r : ℕ} (ht : t < s.core.total) : s.core.point t ≠ .pushHandle a r := by
  intro hpt
  obtain ⟨hlt, -, hmem, -⟩ := h.core.balanced.keeps ht (h := a) (by rw [hpt]; simp)
  rcases stuck_or_idle h hstuck ht with hidle | ⟨q, op, hop, hblocked⟩
  · cases hpt.symm.trans hidle
  · rw [hpt] at hop
    cases hop
    cases (handles_room h hlt hmem).symm.trans hblocked

/-- The loader threads wait for tasks, and there are none. -/
lemma loaders_idle (hjam : ¬ s.core.Jammed) :
    s.core.taskQueue.isEmpty = true ∧ ∀ t < s.core.numThreads, s.core.point t = .popTask := by
  have hcases : ∀ t < s.core.numThreads, s.core.point t = .popTask ∧
      s.core.taskQueue.isEmpty = true ∨ (s.core.point t).finishing = true ∧
      s.core.taskQueue.isFull = true := by
    intro t ht
    have htotal : t < s.core.total := Nat.lt_of_lt_of_le ht (Nat.le_add_right _ _)
    have hloader := (h.roles t htotal).1 ht
    rcases stuck_or_idle h hstuck htotal with hidle | ⟨q, op, hop, hblocked⟩
    · rw [hidle] at hloader
      exact hloader.elim
    · cases hpt : s.core.point t with
      | popTask =>
        rw [hpt] at hop
        cases hop
        exact .inl ⟨rfl, by simpa [LoaderCore.possible] using hblocked⟩
      | pushRelease r =>
        rw [hpt] at hop
        cases hop
        exact .inr ⟨rfl, by simpa [LoaderCore.possible] using hblocked⟩
      | pushHandle a r => exact absurd hpt (point_ne_pushHandle h hstuck htotal)
      | idle | popHandle | fillHandle a | pushVote a r | holding a r | pushTask a r k =>
        rw [hpt] at hloader
        exact hloader.elim
      | vote r | releaseVote r | runTask a k | releaseTask a k | callback a r =>
        rw [hpt] at hop
        cases hop
  have hnotBoth : s.core.taskQueue.isEmpty = true → s.core.taskQueue.isFull = true → False := by
    intro hempty hfull
    rw [AmdbQueue.isEmpty_iff] at hempty
    rw [AmdbQueue.isFull_iff, hempty] at hfull
    exact absurd hfull (Nat.pos_iff_ne_zero.mp h.core.tasks.pos)
  have hempty : s.core.taskQueue.isEmpty = true := by
    by_contra hnot
    have hfinishing : ∀ t < s.core.numThreads, (s.core.point t).finishing = true ∧
        s.core.taskQueue.isFull = true := fun t ht =>
      (hcases t ht).resolve_left fun hpop => hnot hpop.2
    exact hjam ⟨(hfinishing 0 h.threads).2, fun t ht => (hfinishing t ht).1⟩
  refine ⟨hempty, fun t ht => ?_⟩
  rcases hcases t ht with hpop | ⟨-, hfull⟩
  · exact hpop.1
  · exact (hnotBoth hempty hfull).elim

/-- The clients have returned, or wait for a handle. -/
lemma clients_idle (hjam : ¬ s.core.Jammed) (ht : t < s.core.total)
    (hclient : s.core.numThreads ≤ t) : s.core.point t = .idle ∨ s.core.point t = .popHandle ∧
      s.core.handleQueue.isEmpty = true := by
  have hempty := (loaders_idle h hstuck hjam).1
  have hroom : s.core.possible .tasks .push = true := by
    have hnot : s.core.taskQueue.isFull = false := by
      rw [AmdbQueue.isEmpty_iff] at hempty
      rw [Bool.eq_false_iff, ne_eq, AmdbQueue.isFull_iff, hempty]
      exact Nat.pos_iff_ne_zero.mp h.core.tasks.pos
    simp [LoaderCore.possible, hnot]
  have hrole := (h.roles t ht).2 hclient
  rcases stuck_or_idle h hstuck ht with hidle | ⟨q, op, hop, hblocked⟩
  · exact .inl hidle
  · cases hpt : s.core.point t with
    | idle => exact .inl rfl
    | popHandle =>
      rw [hpt] at hop
      cases hop
      exact .inr ⟨rfl, by simpa [LoaderCore.possible] using hblocked⟩
    | pushHandle a r => exact absurd hpt (point_ne_pushHandle h hstuck ht)
    | pushVote a r | pushTask a r k | pushRelease r =>
      rw [hpt] at hop
      cases hop
      cases hroom.symm.trans hblocked
    | popTask | vote r | releaseVote r | runTask a k | releaseTask a k =>
      rw [hpt] at hrole
      exact hrole.elim
    | fillHandle a | holding a r | callback a r =>
      rw [hpt] at hop
      cases hop

/-- **If no thread can go on, everything was done**, unless the loader is jammed. -/
theorem finished_of_stuck (hjam : ¬ s.core.Jammed) : s.Finished := by
  obtain ⟨hempty, hloaders⟩ := loaders_idle h hstuck hjam
  have hcontents : s.core.taskQueue.contents = [] := by
    rw [← length_eq_zero_iff, h.core.tasks.num]
    exact AmdbQueue.isEmpty_iff.mp hempty
  have hhas : ∀ t < s.core.total, ∀ a, (s.core.point t).has a = 0 := by
    intro t ht a
    by_cases hloader : t < s.core.numThreads
    · rw [hloaders t hloader]
      cases a <;> rfl
    · rcases clients_idle h hstuck hjam ht (Nat.le_of_not_lt hloader) with hpt | ⟨hpt, -⟩ <;>
        rw [hpt] <;> cases a <;> rfl
  have hinHand : ∀ a, s.core.inHand a = 0 := fun a =>
    Finset.sum_eq_zero fun t ht => hhas t (Finset.mem_range.mp ht) a
  have hrefs : ∀ a, s.core.refs a = 0 := by
    intro a
    have hbal := h.core.balanced (.refs a)
    rw [hinHand] at hbal
    change (s.core.taskQueue.contents.map LoaderTask.handle).count (some a) + 0 = _ at hbal
    rw [hcontents] at hbal
    exact hbal.symm
  have hcalled : ∀ r < s.core.numRequests, s.core.called.count r = 1 := by
    intro r hr
    have hbal := h.core.balanced (.call r)
    rw [hinHand] at hbal
    have hlive : s.core.live r = 0 := by
      refine Finset.sum_eq_zero fun a _ => ?_
      unfold oneIfLive
      rw [hrefs, oneIfReferred_zero, ite_self]
    change s.core.live r + s.core.called.count r + 0 = oneIfBelow r s.core.numRequests at hbal
    rw [hlive, oneIfBelow_of_lt hr] at hbal
    omega
  refine ⟨fun t ht hclient => ?_, fun k hk => ?_, hcalled, fun r hr => ?_, hcontents⟩
  · refine (clients_idle h hstuck hjam ht hclient).resolve_right fun hwaits => ?_
    -- all handles are free
    have hbal := h.core.balanced (.handle 0)
    rw [hinHand] at hbal
    change s.core.handleQueue.contents.count 0 + oneIfReferred (s.core.refs 0) + 0 = 1 at hbal
    rw [hrefs, oneIfReferred_zero] at hbal
    have hnone : s.core.handleQueue.contents = [] := by
      rw [← length_eq_zero_iff, h.core.handles.num]
      exact AmdbQueue.isEmpty_iff.mp hwaits.2
    rw [hnone] at hbal
    cases hbal
  · have hbal := h.core.balanced (.task k)
    rw [hinHand] at hbal
    change s.core.ran.count k + (s.core.taskQueue.contents.map LoaderTask.number).count (some k) +
      0 = oneIfBelow k s.core.numTasks at hbal
    rw [hcontents, oneIfBelow_of_lt hk] at hbal
    exact hbal
  · have hbal := h.core.balanced (.release r)
    rw [hinHand] at hbal
    exact hbal.trans (hcalled r hr)

end Stuck

/-! ## Runs -/

lemma create_handleQueue (numThreads numClients : ℕ) :
    (create numThreads numClients).core.handleQueue.Fifo ∧
      (create numThreads numClients).core.handleQueue.contents = range amdbNumClientHandles ∧
      (create numThreads numClients).core.handleQueue.maxElements = amdbNumClientHandles := by
  have hpos : 0 < amdbNumClientHandles := by decide
  exact (AmdbQueue.fifo_create hpos fun _ => 0).foldl_push (range amdbNumClientHandles)
    (by rw [length_range]; exact Nat.le_of_eq (Nat.zero_add _))

lemma create_point (numThreads numClients t : ℕ) :
    (create numThreads numClients).core.point t = if t < numThreads then .popTask else .idle := rfl

lemma sound_create (numThreads numClients : ℕ) : (create numThreads numClients).core.Sound := by
  obtain ⟨hfifo, hcontents, -⟩ := create_handleQueue numThreads numClients
  refine ⟨AmdbQueue.fifo_create (by decide) _, hfifo, fun a => ?_, fun t _ => ?_, fun _ _ => nofun⟩
  · have hzero : (create numThreads numClients).core.inHand a = 0 := by
      refine Finset.sum_eq_zero fun t _ => ?_
      rw [create_point]
      split <;> cases a <;> rfl
    rw [hzero]
    cases a with
    | handle h =>
      change (create numThreads numClients).core.handleQueue.contents.count h + 0 + 0 =
        oneIfBelow h amdbNumClientHandles
      rw [hcontents, nodup_range.count]
      unfold oneIfBelow
      simp only [mem_range, Nat.add_zero]
    | call r =>
      have hlive : (create numThreads numClients).core.live r = 0 :=
        Finset.sum_eq_zero fun a _ => ite_self 0
      change (create numThreads numClients).core.live r + 0 + 0 = 0
      rw [hlive]
    | refs h | task k | client r | vote r | release r => rfl
  · rw [create_point]
    split <;> trivial

lemma orderly_create {numThreads : ℕ} (hpos : 0 < numThreads) (numClients : ℕ) :
    (create numThreads numClients).Orderly where
  core := sound_create numThreads numClients
  roles t _ := by
    rw [create_point]
    split
    · rename_i ht
      exact ⟨fun _ => trivial, fun hle => absurd ht (Nat.not_lt.mpr hle)⟩
    · rename_i ht
      exact ⟨fun hlt => absurd hlt ht, fun _ => trivial⟩
  threads := hpos
  room := ⟨rfl, (create_handleQueue numThreads numClients).2.2⟩
  inOp t ht := by rcases ht with ht | ht <;> cases ht
  locked _ _ hlock := by cases hlock
  woken _ _ _ hwaits := by
    obtain ⟨t, -, hw⟩ := hwaits
    cases (waits_iff.mp hw).1
  allWait hall := by cases (waits_iff.mp (hall 0 hpos)).1

lemma not_jammed_create (numThreads numClients : ℕ) :
    ¬ (create numThreads numClients).core.Jammed := by
  rintro ⟨hfull, -⟩
  cases AmdbQueue.isFull_iff.mp hfull

/-- A loader that is in order and not jammed keeps its promise. -/
lemma Right.of_orderly (h : s.Orderly) (hjam : ¬ s.core.Jammed) : s.Right where
  taskQueue := h.core.tasks
  handleQueue := h.core.handles
  tasks k hk := by
    have hbal := h.core.balanced (.task k)
    exact hbal.trans (oneIfBelow_of_lt hk)
  ran k hk := by
    have hbal := h.core.balanced (.task k)
    have hpos : 0 < s.core.ran.count k := count_pos_iff.mpr hk
    change s.core.ran.count k + _ + _ = oneIfBelow k s.core.numTasks at hbal
    by_contra hge
    rw [oneIfBelow_of_not_lt hge] at hbal
    omega
  called r := by
    refine ⟨?_, fun hr => (live_eq_zero h.core hr).1⟩
    have hbal := h.core.balanced (.call r)
    change s.core.live r + s.core.called.count r + _ = oneIfBelow r s.core.numRequests at hbal
    have hle : oneIfBelow r s.core.numRequests ≤ 1 := by
      unfold oneIfBelow
      split <;> omega
    omega
  after _ hr := released_and_ran h.core hr
  oneClient _ ht _ hu _ hta hua := client_unique h.core ht hu hta hua
  taken _ ht _ hclient := client_taken h.core ht hclient
  votes _ hr := votes_of_called h.core hr
  goesOn := not_allWait h hjam
  finishes hstuck := finished_of_stuck h hstuck hjam

/-- **The loader finishes every request once and does not block itself**, in every run whose steps
do not jam it: for any number of threads and clients, and any interleaving. -/
theorem loader_finishes (numThreads numClients : ℕ) (hpos : 0 < numThreads)
    (events : List LoaderEvent)
    (hfits : Meets step Fits (create numThreads numClients) events) :
    Along step Right (create numThreads numClients) events := by
  refine (along_of_meets (I := fun s => s.Orderly ∧ ¬ s.core.Jammed)
    (fun s e hs hfit => ⟨hs.1.step e, not_jammed_step hs.1 hs.2 hfit⟩)
    ⟨orderly_create hpos numClients, not_jammed_create numThreads numClients⟩ hfits).mono
    fun s hs => Right.of_orderly hs.1 hs.2

section Runs

/-- A client asks for one module: its steps until it has released its handle. -/
def oneModule (t : ℕ) : List LoaderEvent :=
  replicate 18 (.run t true t) ++ [.run t false t]

/-- A loader thread serves a vote and runs a task, up to the release of the vote. -/
def serveModule (t : ℕ) : List LoaderEvent :=
  replicate 19 (.run t true t)

/-- One client, one loader thread and one module, from the handle to the release of the vote. -/
theorem loader_finishes_oneModule : Along step Right (create 1 1)
        (oneModule 1 ++ serveModule 0 ++ replicate 11 (.run 0 true 0)) ∧
      (run step (create 1 1)
        (oneModule 1 ++ serveModule 0 ++ replicate 11 (.run 0 true 0))).core.called = [0] :=
  ⟨loader_finishes 1 1 (by decide) _ (by decide +kernel), by decide +kernel⟩

/-- Two loader threads finish a request each, and a third client fills the task queue before they
push the release of their votes. -/
def twoFinishing : List LoaderEvent :=
  oneModule 2 ++ oneModule 3 ++ serveModule 0 ++ serveModule 1 ++
    replicate 12 (.run 4 true 4) ++ replicate 378 (.run 4 true 4) ++
    [.run 0 true 0, .run 1 true 1, .run 0 true 0, .run 1 true 1, .run 0 true 0, .run 1 true 1]

/-- **The loader can block itself**: with two loader threads, the run above ends with both of them
waiting for room in the task queue. -/
theorem not_loader_finishes : ¬ ∀ numThreads numClients : ℕ, 0 < numThreads →
    ∀ events, Along step Right (create numThreads numClients) events := by
  intro hall
  have hlast := (hall 2 3 (by decide) twoFinishing).last
  have hwait : ∀ t < (run step (create 2 3) twoFinishing).core.numThreads,
      (run step (create 2 3) twoFinishing).waits .tasks .push t = true := by decide +kernel
  exact hlast.goesOn hwait

end Runs

end AmdbLoader

end AudioReach
