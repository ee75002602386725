import AudioReach.Amdb.LoaderWaits

/-!
# The module loader in every run

The accounts and the wake-ups are kept by every step, so whatever the interleaving each task is run
once, each client is called back once, and no handle has two clients.  What can go wrong is that the
loader threads, which make room in the task queue, wait for room there to ask for the release of a
vote.  From then on nothing is loaded any more.

A loader thread is *finishing* from its last release of a handle until it pushed the release of the
vote.  The bad state comes when all loader threads are finishing and the task queue is full
(`Jammed`), and it is avoided exactly as long as this is (`Fits`).
-/

namespace AudioReach

open Function (update update_of_ne update_self)
open Library

namespace LoaderPoint

/-- Where loader threads stand. -/
def ofLoader : LoaderPoint → Prop
  | popTask | vote _ | releaseVote _ | runTask _ _ | releaseTask _ _ | callback _ _
  | pushHandle _ _ | pushRelease _ => True
  | _ => False

/-- Where clients stand. -/
def ofClient : LoaderPoint → Prop
  | idle | popHandle | fillHandle _ | pushVote _ _ | holding _ _ | pushTask _ _ _ | callback _ _
  | pushHandle _ _ | pushRelease _ => True
  | _ => False

/-- The thread gave up the last reference and has not pushed the release of the vote yet. -/
def finishing : LoaderPoint → Bool
  | callback _ _ | pushHandle _ _ | pushRelease _ => true
  | _ => false

/-- The handle that `amdb_loader_get_handle` gave or is about to give to the thread. -/
def client : LoaderPoint → Option ℕ
  | fillHandle h | pushVote h _ | holding h _ | pushTask h _ _ => some h
  | _ => none

end LoaderPoint

namespace LoaderCore

variable {c : LoaderCore} {t : ℕ} {more : Bool}

/-- Loader threads and clients stand where they can. -/
def Roles (c : LoaderCore) : Prop :=
  ∀ t < c.total, (t < c.numThreads → (c.point t).ofLoader) ∧
    (c.numThreads ≤ t → (c.point t).ofClient)

/-- The thread gives up the last reference of its handle next. -/
def releasesLast (c : LoaderCore) (t : ℕ) : Bool :=
  match c.point t with
  | .releaseTask h _ => c.refs h = 1
  | _ => false

/-- The task queue is full, and the loader threads will push before they pop. -/
def Jammed (c : LoaderCore) : Prop :=
  c.taskQueue.isFull = true ∧ ∀ u < c.numThreads, (c.point u).finishing = true

lemma home_ofLoader (h : t < c.numThreads) : (c.home t).ofLoader := by
  unfold home
  rw [if_pos h]
  trivial

lemma home_ofClient (h : c.numThreads ≤ t) : (c.home t).ofClient := by
  unfold home
  rw [if_neg (Nat.not_lt.mpr h)]
  trivial

/-- Where a thread is after its step. -/
def nextPoint (c : LoaderCore) (t : ℕ) (more : Bool) : LoaderPoint :=
  match c.point t with
  | .idle => .popHandle
  | .popHandle => .fillHandle c.handleQueue.pop.1
  | .fillHandle h => .pushVote h c.numRequests
  | .pushVote h r | .pushTask h r _ => .holding h r
  | .holding h r => if more then .pushTask h r c.numTasks else c.afterRelease t h
  | .popTask => LoaderPoint.serve c.taskQueue.pop.1
  | .vote _ | .releaseVote _ => .popTask
  | .runTask h k => .releaseTask h k
  | .releaseTask h _ => c.afterRelease t h
  | .callback h _ => .pushHandle h (c.request h)
  | .pushHandle _ r => .pushRelease r
  | .pushRelease _ => c.home t

lemma act_point_self (c : LoaderCore) (t : ℕ) (more : Bool) :
    (c.act t more).point t = c.nextPoint t more := by
  unfold act nextPoint
  cases c.point t with
  | holding h r => cases more <;> exact update_self ..
  | _ => exact update_self ..

lemma afterRelease_ofLoader (h : ℕ) (ht : t < c.numThreads) : (c.afterRelease t h).ofLoader := by
  unfold afterRelease
  split
  · trivial
  · exact home_ofLoader ht

lemma afterRelease_ofClient (h : ℕ) (ht : c.numThreads ≤ t) : (c.afterRelease t h).ofClient := by
  unfold afterRelease
  split
  · trivial
  · exact home_ofClient ht

lemma nextPoint_ofLoader (ht : t < c.numThreads) (h : (c.point t).ofLoader) :
    (c.nextPoint t more).ofLoader := by
  unfold nextPoint
  cases hpt : c.point t with
  | popTask => cases hx : c.taskQueue.pop.1 <;> trivial
  | releaseTask a k => exact afterRelease_ofLoader a ht
  | pushRelease r => exact home_ofLoader ht
  | idle | popHandle | fillHandle a | pushVote a r | holding a r | pushTask a r k =>
    rw [hpt] at h
    exact h.elim
  | vote r | releaseVote r | runTask a k | callback a r | pushHandle a r => trivial

lemma nextPoint_ofClient (ht : c.numThreads ≤ t) (h : (c.point t).ofClient) :
    (c.nextPoint t more).ofClient := by
  unfold nextPoint
  cases hpt : c.point t with
  | holding a r =>
    cases more with
    | true => trivial
    | false => exact afterRelease_ofClient a ht
  | pushRelease r => exact home_ofClient ht
  | popTask | vote r | releaseVote r | runTask a k | releaseTask a k =>
    rw [hpt] at h
    exact h.elim
  | idle | popHandle | fillHandle a | pushVote a r | pushTask a r k | callback a r
  | pushHandle a r => trivial

lemma Roles.act (h : c.Roles) (t : ℕ) (more : Bool) : (c.act t more).Roles := by
  intro u hu
  rw [act_total] at hu
  rw [act_numThreads]
  by_cases hut : u = t
  · subst hut
    rw [act_point_self]
    exact ⟨fun ht => nextPoint_ofLoader ht ((h u hu).1 ht),
      fun ht => nextPoint_ofClient ht ((h u hu).2 ht)⟩
  · rw [act_point_of_ne hut]
    exact h u hu

/-- A loader thread is finishing if it was, or by giving up the last reference. -/
lemma finishing_nextPoint (hroles : c.Roles) (hb : c.Balanced) (ht : t < c.numThreads)
    (htotal : t < c.total) (h : (c.nextPoint t more).finishing = true) :
    (c.point t).finishing = true ∧ (c.point t).queueOp ≠ some (.tasks, .push) ∨
      c.releasesLast t = true := by
  have hloader := (hroles t htotal).1 ht
  have hhome : (c.home t).finishing = false := by
    unfold home
    rw [if_pos ht]
    rfl
  unfold nextPoint at h
  unfold releasesLast
  cases hpt : c.point t with
  | callback a r | pushHandle a r => exact .inl ⟨rfl, nofun⟩
  | pushRelease r =>
    rw [hpt] at h
    cases hhome.symm.trans h
  | releaseTask a k =>
    have hpos : 0 < c.refs a := hb.refs_pos htotal (by rw [hpt]; simp)
    rw [hpt] at h
    unfold afterRelease at h
    dsimp only at h
    split at h
    · exact .inr (decide_eq_true (by omega))
    · cases hhome.symm.trans h
  | popTask =>
    rw [hpt] at h
    cases hx : c.taskQueue.pop.1 <;> rw [hx] at h <;> cases h
  | idle | popHandle | fillHandle a | pushVote a r | holding a r | pushTask a r k =>
    rw [hpt] at hloader
    exact hloader.elim
  | vote r | releaseVote r | runTask a k =>
    rw [hpt] at h
    cases h

end LoaderCore

namespace AmdbLoader

/-! ## The bad state -/

/-- A step does not jam the loader: a client that fills the last place of the task queue, and a
loader thread that gives up a last reference while the queue is full, leave a loader thread that
pops before it pushes. -/
def Fits (s : AmdbLoader) : LoaderEvent → Prop
  | .run t _ _ =>
    (s.stage t = .locked → s.core.numThreads ≤ t → (s.core.point t).queueOp = some (.tasks, .push) →
      s.core.taskQueue.numElements + 1 = s.core.taskQueue.maxElements →
      ¬ ∀ u < s.core.numThreads, (s.core.point u).finishing = true) ∧
    (t < s.core.numThreads → s.core.releasesLast t = true → s.core.taskQueue.isFull = true →
      ¬ ∀ u < s.core.numThreads, u ≠ t → (s.core.point u).finishing = true)
  | .wake _ => True

instance Fits.decidable (s : AmdbLoader) : ∀ e, Decidable (s.Fits e)
  | .run _ _ _ => @instDecidableAnd _ _ inferInstance inferInstance
  | .wake _ => inferInstanceAs (Decidable True)

/-- All loader threads wait inside `amdb_queue_push` for room in the task queue. -/
def AllWait (s : AmdbLoader) : Prop :=
  ∀ t < s.core.numThreads, s.waits .tasks .push t = true

/-- What holds of the loader in every state, whatever the steps. -/
structure Orderly (s : AmdbLoader) : Prop where
  core : s.core.Sound
  roles : s.core.Roles
  threads : 0 < s.core.numThreads
  room : s.core.taskQueue.maxElements = amdbTaskQLength ∧
    s.core.handleQueue.maxElements = amdbNumClientHandles
  inOp : ∀ t, s.stage t = .locked ∨ s.stage t = .waiting → (s.core.point t).queueOp ≠ none
  locked : s.Locked
  woken : s.Woken
  /-- All loader threads wait for room only if there is none. -/
  allWait : s.AllWait → s.core.possible .tasks .push = false

variable {s : AmdbLoader}

lemma Orderly.control (h : s.Orderly) {e : LoaderEvent} (s' : AmdbLoader) (hstep : Steps s e s')
    (hcore : s'.core = s.core)
    (hinOp : ∀ t, s'.stage t = .locked ∨ s'.stage t = .waiting → (s.core.point t).queueOp ≠ none)
    (hallWait : s'.AllWait → s.AllWait ∨ s.core.possible .tasks .push = false) : s'.Orderly where
  core := hcore ▸ h.core
  roles := hcore ▸ h.roles
  threads := hcore ▸ h.threads
  room := hcore ▸ h.room
  inOp t ht := by
    rw [hcore]
    exact hinOp t ht
  locked := h.locked.step hstep
  woken := h.woken.step hstep
  allWait hall := by
    rw [hcore]
    exact (hallWait hall).elim h.allWait id

variable {st : QueueStage} {t : ℕ}

lemma AllWait.before {s' : AmdbLoader} (hall : s'.AllWait) (hcore : s'.core = s.core)
    (hstage : s'.stage = update s.stage t st) (hst : st ≠ .waiting) : s.AllWait := by
  intro u hu
  have hwaits := hall u (by rw [hcore]; exact hu)
  rw [waits_iff, hcore, hstage] at hwaits
  by_cases hut : u = t
  · subst hut
    rw [update_self] at hwaits
    exact absurd hwaits.1 hst
  · rw [update_of_ne hut] at hwaits
    exact waits_iff.mpr hwaits

lemma inOp_setStage (h : s.Orderly) {stage : ℕ → QueueStage} (hstage : stage = update s.stage t st)
    (hst : st = .locked ∨ st = .waiting → (s.core.point t).queueOp ≠ none) (u : ℕ)
    (hu : stage u = .locked ∨ stage u = .waiting) : (s.core.point u).queueOp ≠ none := by
  rw [hstage] at hu
  by_cases hut : u = t
  · subst hut
    rw [update_self] at hu
    exact hst hu
  · rw [update_of_ne hut] at hu
    exact h.inOp u hu

/-- **Every step keeps the loader in order.** -/
theorem Orderly.step (h : s.Orderly) (e : LoaderEvent) : (s.step e).Orderly := by
  have hstep := steps_step s e
  generalize s.step e = s' at hstep
  cases hstep with
  | stay => exact h
  | @act t u more ht hstage hop =>
    have hstep : Steps s (.run t more u) { s with core := s.core.act t more } :=
      .act ht hstage hop
    refine ⟨h.core.act ht more fun q op hq => ?_, h.roles.act t more, ?_, ?_, fun v hv => ?_,
      h.locked.step hstep, h.woken.step hstep, fun hall => ?_⟩
    · cases hop.symm.trans hq
    · exact (s.core.act_numThreads t more).symm ▸ h.threads
    · have hmax := s.core.act_maxElements t more
      exact ⟨hmax.1.trans h.room.1, hmax.2.trans h.room.2⟩
    · have hne : v ≠ t := by
        rintro rfl
        rcases hv with hv | hv <;> cases hstage.symm.trans hv
      rw [LoaderCore.act_point_of_ne hne]
      exact h.inOp v hv
    · rw [LoaderCore.act_possible fun op => by rw [hop]; exact nofun]
      refine h.allWait fun v hv => ?_
      have hwaits := waits_iff.mp (hall v ((s.core.act_numThreads t more).symm ▸ hv))
      have hne : v ≠ t := by
        rintro rfl
        cases hstage.symm.trans hwaits.1
      rw [LoaderCore.act_point_of_ne hne] at hwaits
      exact waits_iff.mpr hwaits
  | @lock t u more q op ht hstage hop hfree =>
    exact h.control _ (show Steps s (.run t more u) _ from .lock ht hstage hop hfree) rfl
      (inOp_setStage h rfl fun _ => by rw [hop]; exact nofun)
      fun hall => .inl (hall.before rfl rfl nofun)
  | @wait t u more q op ht hstage hop hblocked =>
    refine h.control _ (show Steps s (.run t more u) _ from .wait ht hstage hop hblocked) rfl
      (inOp_setStage h rfl fun _ => by rw [hop]; exact nofun) fun hall => ?_
    by_cases hloader : t < s.core.numThreads
    · have hwaits := waits_iff.mp (hall t hloader)
      cases hop.symm.trans hwaits.2
      exact .inr hblocked
    · refine .inl fun v hv => ?_
      have hne : v ≠ t := by
        rintro rfl
        exact hloader hv
      have hwaits := waits_iff.mp (hall v hv)
      rw [setStage_stage_of_ne hne] at hwaits
      exact waits_iff.mpr hwaits
  | @operate t u more q op ht hstage hop hpossible =>
    have hstep : Steps s (.run t more u)
        ({ s with core := s.core.act t more }.setStage t (.signalOther q op)) :=
      .operate ht hstage hop hpossible
    refine ⟨h.core.act ht more fun q' op' hq => ?_, h.roles.act t more, ?_, ?_, fun v hv => ?_,
      h.locked.step hstep, h.woken.step hstep, fun hall => ?_⟩
    · cases hop.symm.trans hq
      exact hpossible
    · exact (s.core.act_numThreads t more).symm ▸ h.threads
    · have hmax := s.core.act_maxElements t more
      exact ⟨hmax.1.trans h.room.1, hmax.2.trans h.room.2⟩
    · have hne : v ≠ t := by
        rintro rfl
        rw [setStage_stage_self] at hv
        rcases hv with hv | hv <;> cases hv
      rw [setStage_stage_of_ne hne] at hv
      change ((s.core.act t more).point v).queueOp ≠ none
      rw [LoaderCore.act_point_of_ne hne]
      exact h.inOp v hv
    · -- only a client can be the one that did the operation, and the queue was full before
      have hclient : s.core.numThreads ≤ t := by
        by_contra hlt
        have hwaits := waits_iff.mp
          (hall t ((s.core.act_numThreads t more).symm ▸ Nat.lt_of_not_le hlt))
        rw [setStage_stage_self] at hwaits
        cases hwaits.1
      have hbefore : s.AllWait := by
        intro v hv
        have hne : v ≠ t := by omega
        have hwaits := waits_iff.mp (hall v ((s.core.act_numThreads t more).symm ▸ hv))
        rw [setStage_stage_of_ne hne] at hwaits
        change s.stage v = .waiting ∧ ((s.core.act t more).point v).queueOp = _ at hwaits
        rw [LoaderCore.act_point_of_ne hne] at hwaits
        exact waits_iff.mpr hwaits
      have hfull := h.allWait hbefore
      change (s.core.act t more).possible .tasks .push = false
      rw [LoaderCore.act_possible ?_, hfull]
      intro op' hq
      cases op' with
      | push =>
        cases hop.symm.trans hq
        cases hpossible.symm.trans hfull
      | pop =>
        have hrole := (h.roles t ht).2 hclient
        cases hpt : s.core.point t <;> rw [hpt] at hrole hq <;> first | exact hrole | cases hq
  | @wakes t u more q op op' next ht hstage hu hwaits =>
    have hnext : next ≠ .waiting ∧ next ≠ .locked := by
      rcases hstage with ⟨-, -, rfl⟩ | ⟨-, -, rfl⟩ <;> exact ⟨nofun, nofun⟩
    refine h.control _ (show Steps s (.run t more u) _ from .wakes ht hstage hu hwaits) rfl
      (fun v hv => ?_)
      fun hall => .inl (AllWait.before (AllWait.before (s := s.setStage u .ready) hall rfl rfl
        hnext.1) rfl rfl nofun)
    by_cases hvt : v = t
    · subst hvt
      rw [setStage_stage_self] at hv
      rcases hv with hv | hv
      · exact absurd hv hnext.2
      · exact absurd hv hnext.1
    · rw [setStage_stage_of_ne hvt] at hv
      exact inOp_setStage h rfl (by rintro (hst | hst) <;> cases hst) v hv
  | @wakesNone t u more q op op' next ht hstage hnone =>
    have hnext : next ≠ .waiting ∧ next ≠ .locked := by
      rcases hstage with ⟨-, -, rfl⟩ | ⟨-, -, rfl⟩ <;> exact ⟨nofun, nofun⟩
    exact h.control _ (show Steps s (.run t more u) _ from .wakesNone ht hstage hnone) rfl
      (inOp_setStage h rfl fun hst => (hst.elim hnext.2 hnext.1).elim)
      fun hall => .inl (hall.before rfl rfl hnext.1)
  | @unlock t u more q ht hstage =>
    exact h.control _ (show Steps s (.run t more u) _ from .unlock ht hstage) rfl
      (inOp_setStage h rfl (by rintro (hst | hst) <;> cases hst))
      fun hall => .inl (hall.before rfl rfl nofun)
  | wake hstage =>
    exact h.control _ (.wake hstage) rfl (inOp_setStage h rfl (by rintro (hst | hst) <;> cases hst))
      fun hall => .inl (hall.before rfl rfl nofun)

/-- What a step of a thread does to the task queue. -/
lemma isFull_act {c : LoaderCore} {more : Bool} (hfull : (c.act t more).taskQueue.isFull = true)
    (hpush : (c.point t).queueOp ≠ some (.tasks, .push)) (hfifo : c.taskQueue.Fifo)
    (hpop : (c.point t).queueOp = some (.tasks, .pop) → c.possible .tasks .pop = true) :
    (c.point t).queueOp ≠ some (.tasks, .pop) ∧ c.taskQueue.isFull = true := by
  by_cases hq : (c.point t).queueOp = some (.tasks, .pop)
  · have hsome : c.taskQueue.isEmpty = false := by simpa [LoaderCore.possible] using hpop hq
    have hne : c.taskQueue.numElements ≠ 0 := fun hzero => by
      rw [AmdbQueue.isEmpty_iff.mpr hzero] at hsome
      cases hsome
    have hle := hfifo.le
    have hpt : c.point t = .popTask := by
      cases hpt : c.point t <;> rw [hpt] at hq <;> first | rfl | cases hq
    unfold LoaderCore.act at hfull
    rw [hpt, AmdbQueue.isFull_iff] at hfull
    change c.taskQueue.maxElements = c.taskQueue.numElements - 1 at hfull
    omega
  · refine ⟨hq, ?_⟩
    have hsame : (c.act t more).possible .tasks .push = c.possible .tasks .push :=
      LoaderCore.act_possible (fun op => by cases op <;> assumption) .push
    unfold LoaderCore.possible at hsame
    rw [hfull] at hsame
    simpa using hsame.symm

/-- **The loader is not jammed by a step that fits.** -/
theorem not_jammed_step (h : s.Orderly) (hjam : ¬ s.core.Jammed) {e : LoaderEvent}
    (hfits : s.Fits e) : ¬ (s.step e).core.Jammed := by
  have hstep := steps_step s e
  generalize s.step e = s' at hstep
  -- the step of a thread that is not a push into the task queue
  have hact : ∀ {t u : ℕ} {more : Bool}, t < s.core.total → s.Fits (.run t more u) →
      (s.core.point t).queueOp ≠ some (.tasks, .push) →
      (∀ q op, (s.core.point t).queueOp = some (q, op) → s.core.possible q op = true) →
      ¬ (s.core.act t more).Jammed := by
    intro t u more ht hfits hpush hop hafter
    obtain ⟨hfull, hfinishing⟩ := hafter
    obtain ⟨hnotpop, hbefore⟩ := isFull_act hfull hpush h.core.tasks fun hq => hop _ _ hq
    rw [LoaderCore.act_numThreads] at hfinishing
    refine hjam ⟨hbefore, fun v hv => ?_⟩
    by_cases hvt : v = t
    · subst hvt
      have hself := hfinishing v hv
      rw [LoaderCore.act_point_self] at hself
      rcases LoaderCore.finishing_nextPoint h.roles h.core.balanced hv ht hself with
        ⟨hold, -⟩ | hlast
      · exact hold
      · refine absurd (fun w hw hne => ?_) (hfits.2 hv hlast hbefore)
        have hother := hfinishing w hw
        rwa [LoaderCore.act_point_of_ne hne] at hother
    · have hother := hfinishing v hv
      rwa [LoaderCore.act_point_of_ne hvt] at hother
  cases hstep with
  | stay => exact hjam
  | @act t u more ht hstage hop =>
    exact hact ht hfits (by rw [hop]; exact nofun) fun q op hq => by cases hop.symm.trans hq
  | @operate t u more q op ht hstage hop hpossible =>
    by_cases hpush : (q, op) = (.tasks, .push)
    · cases hpush
      change ¬ (s.core.act t more).Jammed
      rintro ⟨hfull, hfinishing⟩
      rw [LoaderCore.act_numThreads] at hfinishing
      by_cases hloader : t < s.core.numThreads
      · have hself := hfinishing t hloader
        rw [LoaderCore.act_point_self] at hself
        rcases LoaderCore.finishing_nextPoint h.roles h.core.balanced hloader ht hself with
          ⟨-, hnot⟩ | hlast
        · exact hnot hop
        · unfold LoaderCore.releasesLast at hlast
          cases hpt : s.core.point t <;> rw [hpt] at hlast hop <;> first | cases hlast | cases hop
      · have hnum : (s.core.act t more).taskQueue.numElements =
            s.core.taskQueue.numElements + 1 := by
          unfold LoaderCore.act
          cases hpt : s.core.point t <;> rw [hpt] at hop <;> first | rfl | cases hop
        have hmax := (s.core.act_maxElements t more).1
        rw [AmdbQueue.isFull_iff, hnum, hmax] at hfull
        refine hfits.1 hstage (Nat.le_of_not_lt hloader) hop hfull.symm fun w hw => ?_
        have hother := hfinishing w hw
        rwa [LoaderCore.act_point_of_ne (by omega)] at hother
    · refine hact ht hfits (fun hq => hpush (Option.some.inj (hop.symm.trans hq)))
        fun q' op' hq => ?_
      cases hop.symm.trans hq
      exact hpossible
  | lock | wait | wakes | wakesNone | unlock | wake => exact hjam

lemma not_allWait (h : s.Orderly) (hjam : ¬ s.core.Jammed) : ¬ s.AllWait := by
  intro hall
  have hfull := h.allWait hall
  refine hjam ⟨by simpa [LoaderCore.possible] using hfull, fun u hu => ?_⟩
  have hop := (waits_iff.mp (hall u hu)).2
  have hloader := (h.roles u (Nat.lt_of_lt_of_le hu (Nat.le_add_right _ _))).1 hu
  cases hpt : s.core.point u <;> rw [hpt] at hop hloader <;>
    first | rfl | exact hloader.elim | cases hop

end AmdbLoader

end AudioReach
