import AudioReach.Amdb.LoaderCounts

/-!
# The steps of the module loader keep the accounts

Between two operations of a queue a thread changes what it has of the accounts, and one queue, one
handle or one log with it.  Each place of a thread has one lemma that says this.
-/

namespace AudioReach

open Function (update update_of_ne update_self)
open Library List

namespace LoaderCore

variable {c : LoaderCore} {t : ℕ}

/-- What a thread knows at its place about its handle, its request and its task. -/
def Linked (c : LoaderCore) : LoaderPoint → Prop
  | .pushVote h r | .holding h r | .callback h r => c.request h = r
  | .pushTask h r k => c.request h = r ∧ c.taskRequest k = r
  | .runTask h k => c.request h = c.taskRequest k
  | _ => True

/-- What holds of the loader at any time. -/
structure Sound (c : LoaderCore) : Prop where
  tasks : c.taskQueue.Fifo
  handles : c.handleQueue.Fifo
  balanced : c.Balanced
  points : ∀ t < c.total, c.Linked (c.point t)
  /-- The tasks of the queue have the handle of their request. -/
  queued : ∀ h k, LoaderTask.dlopen h k ∈ c.taskQueue.contents → c.request h = c.taskRequest k

/-! ## Accounts -/

lemma home_has (c : LoaderCore) (t : ℕ) (a : LoaderAccount) : (c.home t).has a = 0 := by
  unfold home
  split <;> cases a <;> rfl

variable {h r : ℕ} {p : LoaderPoint}

lemma Balanced.popHandle (hb : c.Balanced) (ht : t < c.total) (hpt : c.point t = .popHandle)
    {rest : List ℕ} {q : AmdbQueue ℕ} (hcons : c.handleQueue.contents = h :: rest)
    (hrest : q.contents = rest) :
    ({ c with handleQueue := q }.goto t (.fillHandle h)).Balanced := by
  refine hb.of_local ht rfl rfl fun a => ?_
  rw [hpt]
  cases a <;> simp [goto, live, hcons, hrest, count_cons]
  omega

/-- The new request has one handle. -/
lemma Balanced.fillHandle (hb : c.Balanced) (ht : t < c.total) (hpt : c.point t = .fillHandle h) :
    ({ c with
      request := update c.request h c.numRequests
      refs := update c.refs h 1
      numRequests := c.numRequests + 1 }.goto t (.pushVote h c.numRequests)).Balanced := by
  obtain ⟨hlt, hzero, -, -⟩ := hb.keeps ht (h := h) (by rw [hpt]; simp)
  refine hb.of_local ht rfl rfl fun a => ?_
  rw [hpt]
  cases a with
  | refs h' =>
    rcases eq_or_ne h' h with rfl | hh
    · simp [goto, hzero]
    · simp [goto, hh, Ne.symm hh]
  | handle h' =>
    rcases eq_or_ne h' h with rfl | hh
    · simp [goto, hzero, oneIfReferred_of_pos]
    · simp [goto, hh, Ne.symm hh]
  | call r =>
    have hlive := live_except c { c with
      request := update c.request h c.numRequests
      refs := update c.refs h 1 } hlt (fun h' hne => update_of_ne hne ..)
      (fun h' hne => update_of_ne hne ..) r
    simp only [update_self, hzero] at hlive
    simp [goto, oneIfBelow_succ]
    simp [oneIfLive, oneIfReferred_of_pos] at hlive
    simp only [live] at hlive ⊢
    omega
  | client r | vote r => simp [goto, oneIfBelow_succ]; omega
  | _ => simp [goto]

variable {x : LoaderTask} {k : ℕ}

section Push

variable {q : AmdbQueue LoaderTask}

section

variable {h r : ℕ} (hb : c.Balanced) (ht : t < c.total)
include hb ht

lemma Balanced.pushVote (hpt : c.point t = .pushVote h r)
    (hcontents : q.contents = c.taskQueue.contents ++ [.vote r])
    (hpushed : q.pushed = c.taskQueue.pushed ++ [.vote r]) :
    ({ c with taskQueue := q }.goto t (.holding h r)).Balanced := by
  refine hb.of_local ht rfl rfl fun a => ?_
  rw [hpt]
  cases a <;> simp [goto, live, hcontents, hpushed, LoaderTask.handle, LoaderTask.number,
    count_cons]

lemma Balanced.pushTask (hpt : c.point t = .pushTask h r k)
    (hcontents : q.contents = c.taskQueue.contents ++ [.dlopen h k])
    (hpushed : q.pushed = c.taskQueue.pushed ++ [.dlopen h k]) :
    ({ c with taskQueue := q }.goto t (.holding h r)).Balanced := by
  refine hb.of_local ht rfl rfl fun a => ?_
  rw [hpt]
  cases a <;> simp [goto, live, hcontents, hpushed, LoaderTask.handle, LoaderTask.number,
    count_cons] <;> split_ifs <;> omega

lemma Balanced.pushRelease (hpt : c.point t = .pushRelease r)
    (hcontents : q.contents = c.taskQueue.contents ++ [.releaseVote r])
    (hpushed : q.pushed = c.taskQueue.pushed ++ [.releaseVote r]) :
    ({ c with taskQueue := q }.goto t (c.home t)).Balanced := by
  refine hb.of_local ht rfl rfl fun a => ?_
  rw [hpt]
  rw [home_has]
  cases a <;> simp [goto, live, hcontents, hpushed, LoaderTask.handle, LoaderTask.number,
    count_cons]

lemma Balanced.popTask (hpt : c.point t = .popTask) {rest : List LoaderTask}
    (hcons : c.taskQueue.contents = x :: rest) (hrest : q.contents = rest)
    (hpushed : q.pushed = c.taskQueue.pushed) :
    ({ c with taskQueue := q }.goto t (LoaderPoint.serve x)).Balanced := by
  refine hb.of_local ht rfl rfl fun a => ?_
  rw [hpt]
  cases x <;> cases a <;> simp [goto, live, hcons, hrest, hpushed, LoaderTask.handle,
    LoaderTask.number, LoaderPoint.serve, count_cons]
  omega

end

end Push

section

variable (hb : c.Balanced) (ht : t < c.total)
include hb ht

lemma Balanced.goto (hold : ∀ a, (c.point t).has a = 0) (hnew : ∀ a, p.has a = 0) :
    (c.goto t p).Balanced := by
  refine hb.of_local ht rfl rfl fun a => ?_
  rw [hold, hnew]
  cases a <;> simp [LoaderCore.goto, live]

lemma Balanced.runTask (hpt : c.point t = .runTask h k) :
    ({ c with ran := k :: c.ran }.goto t (.releaseTask h k)).Balanced := by
  refine hb.of_local ht rfl rfl fun a => ?_
  rw [hpt]
  cases a <;> simp [LoaderCore.goto, live, count_cons]
  omega

/-- A client adds a task, and a reference for it. -/
lemma Balanced.addTask (hpt : c.point t = .holding h r) :
    ({ c with
      refs := update c.refs h (c.refs h + 1)
      taskRequest := update c.taskRequest c.numTasks r
      numTasks := c.numTasks + 1 }.goto t (.pushTask h r c.numTasks)).Balanced := by
  have hpos : 0 < c.refs h := hb.refs_pos ht (by rw [hpt]; simp)
  have hone : oneIfReferred (c.refs h + 1) = oneIfReferred (c.refs h) :=
    (oneIfReferred_of_pos (Nat.succ_pos _)).trans (oneIfReferred_of_pos hpos).symm
  have hlive : ∀ r h', oneIfLive (update c.refs h (c.refs h + 1) h') (c.request h') r =
      oneIfLive (c.refs h') (c.request h') r := by
    intro r h'
    unfold oneIfLive
    rcases eq_or_ne h' h with rfl | hh
    · rw [update_self, hone]
    · rw [update_of_ne hh]
  refine hb.of_local ht rfl rfl fun a => ?_
  rw [hpt]
  cases a with
  | refs h' =>
    rcases eq_or_ne h' h with rfl | hh
    · simp [LoaderCore.goto]
      omega
    · simp [LoaderCore.goto, hh, Ne.symm hh]
  | handle h' =>
    rcases eq_or_ne h' h with rfl | hh
    · simp [LoaderCore.goto, hone]
    · simp [LoaderCore.goto, hh]
  | task k =>
    simp [LoaderCore.goto, oneIfBelow_succ]
    omega
  | call r => simp [LoaderCore.goto, live, hlive]
  | _ => simp [LoaderCore.goto]

end

/-! ## Giving up a reference -/

/-- One reference to handle `h`. -/
def oneRef (h : ℕ) : LoaderAccount → ℕ
  | .refs h' => if h = h' then 1 else 0
  | _ => 0

/-- Where a thread is after it gave up a reference to `h`. -/
def afterRelease (c : LoaderCore) (t h : ℕ) : LoaderPoint :=
  if c.refs h - 1 = 0 then .callback h (c.request h) else c.home t

lemma releaseHandle_point (c : LoaderCore) (t h : ℕ) :
    (c.releaseHandle t h).point = update c.point t (c.afterRelease t h) := rfl

/-- **A reference is given up**: with the last one, the thread has the handle and the callback of
its request. -/
lemma release_local (hlt : h < amdbNumClientHandles) (hpos : 0 < c.refs h) (a : LoaderAccount) :
    (c.releaseHandle t h).stored a + (c.afterRelease t h).has a + c.due a =
      c.stored a + oneRef h a + (c.releaseHandle t h).due a := by
  unfold afterRelease
  by_cases hlast : c.refs h - 1 = 0
  · rw [if_pos hlast]
    have hone : c.refs h = 1 := by omega
    cases a with
    | refs h' =>
      rcases eq_or_ne h' h with rfl | hh
      · simp [releaseHandle, LoaderCore.goto, oneRef, hone]
      · simp [releaseHandle, LoaderCore.goto, oneRef, hh, Ne.symm hh]
    | handle h' =>
      rcases eq_or_ne h' h with rfl | hh
      · simp [releaseHandle, LoaderCore.goto, oneRef, hone, oneIfReferred_of_pos]
      · simp [releaseHandle, LoaderCore.goto, oneRef, hh, Ne.symm hh]
    | call r =>
      have hlive := live_except c (c.releaseHandle t h) hlt
        (fun h' hne => update_of_ne hne ..) (fun h' _ => rfl) r
      have hnew : oneIfLive ((c.releaseHandle t h).refs h) ((c.releaseHandle t h).request h) r =
          0 := by
        simp [releaseHandle, LoaderCore.goto, oneIfLive, hone]
      have hold : oneIfLive (c.refs h) (c.request h) r =
          (LoaderPoint.callback h (c.request h)).callOf r := by
        simp [oneIfLive, hone, oneIfReferred_of_pos]
      change (c.releaseHandle t h).live r + c.called.count r + _ + oneIfBelow r c.numRequests =
        c.live r + c.called.count r + 0 + oneIfBelow r c.numRequests
      simp only [LoaderPoint.has] at hlive ⊢
      omega
    | _ => simp [releaseHandle, LoaderCore.goto, oneRef]
  · rw [if_neg hlast, home_has]
    have hone : oneIfReferred (c.refs h - 1) = oneIfReferred (c.refs h) :=
      (oneIfReferred_of_pos (by omega)).trans (oneIfReferred_of_pos hpos).symm
    cases a with
    | refs h' =>
      rcases eq_or_ne h' h with rfl | hh
      · simp [releaseHandle, LoaderCore.goto, oneRef]
        omega
      · simp [releaseHandle, LoaderCore.goto, oneRef, hh, Ne.symm hh]
    | handle h' =>
      rcases eq_or_ne h' h with rfl | hh
      · simp [releaseHandle, LoaderCore.goto, oneRef, hone]
      · simp [releaseHandle, LoaderCore.goto, oneRef, hh]
    | call r =>
      have hlive := live_except c (c.releaseHandle t h) hlt
        (fun h' hne => update_of_ne hne ..) (fun h' _ => rfl) r
      have hnew : oneIfLive ((c.releaseHandle t h).refs h) ((c.releaseHandle t h).request h) r =
          oneIfLive (c.refs h) (c.request h) r := by
        simp [releaseHandle, LoaderCore.goto, oneIfLive, hone]
      change (c.releaseHandle t h).live r + c.called.count r + 0 + oneIfBelow r c.numRequests =
        c.live r + c.called.count r + 0 + oneIfBelow r c.numRequests
      omega
    | _ => simp [releaseHandle, LoaderCore.goto, oneRef]

section

variable (hb : c.Balanced) (ht : t < c.total)
include hb ht

lemma Balanced.releaseTask (hpt : c.point t = .releaseTask h k) :
    (c.releaseHandle t h).Balanced := by
  have hpos : 0 < c.refs h := hb.refs_pos ht (by rw [hpt]; simp)
  refine hb.of_local ht rfl (releaseHandle_point c t h) fun a => ?_
  have hhas : (c.point t).has a = oneRef h a := by
    rw [hpt]
    cases a <;> rfl
  rw [hhas]
  exact release_local (hb.referred hpos).1 hpos a

lemma Balanced.releaseClient (hpt : c.point t = .holding h r) :
    ({ c with released := r :: c.released }.releaseHandle t h).Balanced := by
  have hpos : 0 < c.refs h := hb.refs_pos ht (by rw [hpt]; simp)
  have hlocal := release_local (c := { c with released := r :: c.released }) (t := t)
    (hb.referred hpos).1 hpos
  refine hb.of_local ht rfl (releaseHandle_point { c with released := r :: c.released } t h)
    fun a => ?_
  have hhas : { c with released := r :: c.released }.stored a + oneRef h a =
      c.stored a + (c.point t).has a := by
    rw [hpt]
    cases a <;> simp [oneRef, live, count_cons]
  have hdue : { c with released := r :: c.released }.due a = c.due a := by
    cases a <;> rfl
  have := hlocal a
  omega

lemma Balanced.callback (hpt : c.point t = .callback h r) (hr : c.request h = r) :
    ({ c with called := c.request h :: c.called }.goto t
      (.pushHandle h (c.request h))).Balanced := by
  refine hb.of_local ht rfl rfl fun a => ?_
  rw [hpt, hr]
  cases a <;> simp [LoaderCore.goto, live, count_cons] <;> omega

lemma Balanced.pushHandle (hpt : c.point t = .pushHandle h r) {q : AmdbQueue ℕ}
    (hcontents : q.contents = c.handleQueue.contents ++ [h]) :
    ({ c with handleQueue := q }.goto t (.pushRelease r)).Balanced := by
  refine hb.of_local ht rfl rfl fun a => ?_
  rw [hpt]
  cases a <;> simp [LoaderCore.goto, live, hcontents, count_cons]
  omega

end

/-! ## Steps -/

lemma Linked.stable {c' : LoaderCore} (h : c.Linked p)
    (hrequest : ∀ a, 0 < p.refsOf a + p.keepsOf a → c'.request a = c.request a)
    (htask : ∀ k, 0 < p.taskOf k → c'.taskRequest k = c.taskRequest k) : c'.Linked p := by
  cases p with
  | pushVote a r | holding a r | callback a r => exact (hrequest a (by simp)).trans h
  | pushTask a r k =>
    exact ⟨(hrequest a (by simp)).trans h.1, (htask k (by simp)).trans h.2⟩
  | runTask a k => exact (hrequest a (by simp)).trans (h.trans (htask k (by simp)).symm)
  | _ => trivial

lemma linked_home (c : LoaderCore) (t : ℕ) : c.Linked (c.home t) := by
  unfold home
  split <;> trivial

lemma linked_afterRelease (c : LoaderCore) (t h : ℕ) : c.Linked (c.afterRelease t h) := by
  unfold afterRelease
  split
  · rfl
  · exact linked_home c t

lemma Sound.move (h : c.Sound) {c' : LoaderCore} (htotal : c'.total = c.total)
    (hpoint : c'.point = update c.point t p) (htasks : c'.taskQueue.Fifo)
    (hhandles : c'.handleQueue.Fifo) (hbalanced : c'.Balanced) (hnew : c'.Linked p)
    (hothers : ∀ u < c.total, u ≠ t → c.Linked (c.point u) → c'.Linked (c.point u))
    (hqueued : ∀ a k, LoaderTask.dlopen a k ∈ c'.taskQueue.contents →
      c'.request a = c'.taskRequest k) : c'.Sound := by
  refine ⟨htasks, hhandles, hbalanced, fun u hu => ?_, hqueued⟩
  rw [hpoint]
  by_cases hut : u = t
  · rw [hut, update_self]
    exact hnew
  · rw [update_of_ne hut]
    rw [htotal] at hu
    exact hothers u hu hut (h.points u hu)

lemma Sound.pushed (h : c.Sound) (hroom : c.possible .tasks .push = true)
    (hx : ∀ a k, x = .dlopen a k → c.request a = c.taskRequest k) :
    (c.taskQueue.push x).Fifo ∧ (c.taskQueue.push x).contents = c.taskQueue.contents ++ [x] ∧
      ∀ a k, LoaderTask.dlopen a k ∈ (c.taskQueue.push x).contents →
        c.request a = c.taskRequest k := by
  have hfull : c.taskQueue.isFull = false := by simpa [possible] using hroom
  have hcontents := h.tasks.contents_push x
  refine ⟨h.tasks.push hfull x, hcontents, fun a k hmem => ?_⟩
  rw [hcontents, mem_append, mem_singleton] at hmem
  rcases hmem with hmem | heq
  · exact h.queued a k hmem
  · exact hx a k heq.symm

/-- **A step of a thread keeps the accounts.** -/
theorem Sound.act (h : c.Sound) (ht : t < c.total) (more : Bool)
    (hop : ∀ q op, (c.point t).queueOp = some (q, op) → c.possible q op = true) :
    (c.act t more).Sound := by
  have hknows := h.points t ht
  unfold LoaderCore.act
  cases hpt : c.point t with
  | idle =>
    exact h.move rfl rfl h.tasks h.handles
      (h.balanced.goto ht (fun a => by rw [hpt]; cases a <;> rfl) fun a => by cases a <;> rfl)
      trivial (fun _ _ _ hu => hu) h.queued
  | popHandle =>
    have hsome : c.handleQueue.isEmpty = false := by
      simpa [possible] using hop .handles .pop (by rw [hpt]; rfl)
    obtain ⟨a, rest, hcons, hpop, hfifo, hrest⟩ := h.handles.pop hsome
    rw [hpop]
    exact h.move rfl rfl h.tasks hfifo
      (h.balanced.popHandle ht hpt hcons hrest) trivial (fun _ _ _ hu => hu) h.queued
  | fillHandle a =>
    obtain ⟨-, hzero, -, hkeeps⟩ := h.balanced.keeps ht (h := a) (by rw [hpt]; simp)
    refine h.move rfl rfl h.tasks h.handles
      (h.balanced.fillHandle ht hpt) (update_self ..) (fun u hu hut hlinked => ?_)
      fun b k hmem => ?_
    · refine hlinked.stable (fun b hpos => ?_) fun _ _ => rfl
      refine update_of_ne ?_ ..
      rintro rfl
      have hle := h.balanced.refsOf_le b hu
      have := hkeeps u hu hut
      omega
    · have hne : b ≠ a := by
        rintro rfl
        exact h.balanced.not_queued hzero hmem
      exact (update_of_ne hne ..).trans (h.queued b k hmem)
  | pushVote a r =>
    obtain ⟨hfifo, hcontents, hqueued⟩ := h.pushed (x := .vote r)
      (hop .tasks .push (by rw [hpt]; rfl)) (fun _ _ heq => by cases heq)
    rw [hpt] at hknows
    exact h.move rfl rfl hfifo h.handles
      (h.balanced.pushVote ht hpt hcontents rfl) hknows (fun _ _ _ hu => hu) hqueued
  | holding a r =>
    rw [hpt] at hknows
    cases more with
    | true =>
      refine h.move rfl rfl h.tasks h.handles
        (h.balanced.addTask ht hpt) ⟨hknows, update_self ..⟩
        (fun u hu hut hlinked => ?_) fun b k hmem => ?_
      · refine hlinked.stable (fun _ _ => rfl) fun k hpos => ?_
        refine update_of_ne (Nat.ne_of_lt ?_) ..
        exact h.balanced.task_lt hu hpos
      · have hlt := h.balanced.queued_lt hmem
        exact (h.queued b k hmem).trans (update_of_ne (Nat.ne_of_lt hlt) ..).symm
    | false =>
      exact h.move rfl rfl
        h.tasks h.handles (h.balanced.releaseClient ht hpt) (linked_afterRelease _ t a)
        (fun _ _ _ hu => hu) h.queued
  | pushTask a r k =>
    rw [hpt] at hknows
    obtain ⟨hfifo, hcontents, hqueued⟩ := h.pushed (x := .dlopen a k)
      (hop .tasks .push (by rw [hpt]; rfl)) (fun b j heq => by
        cases heq
        exact hknows.1.trans hknows.2.symm)
    exact h.move rfl rfl hfifo h.handles
      (h.balanced.pushTask ht hpt hcontents rfl) hknows.1 (fun _ _ _ hu => hu) hqueued
  | popTask =>
    have hsome : c.taskQueue.isEmpty = false := by
      simpa [possible] using hop .tasks .pop (by rw [hpt]; rfl)
    obtain ⟨x, rest, hcons, hpop, hfifo, hrest⟩ := h.tasks.pop hsome
    rw [hpop]
    refine h.move rfl rfl hfifo h.handles
      (h.balanced.popTask ht hpt hcons hrest rfl) ?_ (fun _ _ _ hu => hu) fun a k hmem => ?_
    · cases x with
      | dlopen a k =>
        refine h.queued a k ?_
        rw [hcons]
        exact mem_cons_self ..
      | vote r => trivial
      | releaseVote r => trivial
    · refine h.queued a k ?_
      rw [hcons]
      refine mem_cons_of_mem _ ?_
      rw [← hrest]
      exact hmem
  | vote r | releaseVote r =>
    exact h.move rfl rfl h.tasks h.handles
      (h.balanced.goto ht (fun a => by rw [hpt]; cases a <;> rfl) fun a => by cases a <;> rfl)
      trivial (fun _ _ _ hu => hu) h.queued
  | runTask a k =>
    exact h.move rfl rfl h.tasks h.handles
      (h.balanced.runTask ht hpt) trivial (fun _ _ _ hu => hu) h.queued
  | releaseTask a k =>
    exact h.move rfl rfl h.tasks h.handles
      (h.balanced.releaseTask ht hpt) (linked_afterRelease c t a) (fun _ _ _ hu => hu) h.queued
  | callback a r =>
    rw [hpt] at hknows
    exact h.move rfl rfl h.tasks h.handles
      (h.balanced.callback ht hpt hknows) trivial (fun _ _ _ hu => hu) h.queued
  | pushHandle a r =>
    have hfull : c.handleQueue.isFull = false := by
      simpa [possible] using hop .handles .push (by rw [hpt]; rfl)
    exact h.move rfl rfl h.tasks (h.handles.push hfull a)
      (h.balanced.pushHandle ht hpt (h.handles.contents_push a)) trivial (fun _ _ _ hu => hu)
      h.queued
  | pushRelease r =>
    obtain ⟨hfifo, hcontents, hqueued⟩ := h.pushed (x := .releaseVote r)
      (hop .tasks .push (by rw [hpt]; rfl)) (fun _ _ heq => by cases heq)
    exact h.move rfl rfl hfifo h.handles
      (h.balanced.pushRelease ht hpt hcontents rfl) (linked_home c t) (fun _ _ _ hu => hu) hqueued

end LoaderCore

end AudioReach
