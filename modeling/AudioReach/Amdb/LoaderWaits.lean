import AudioReach.Amdb.LoaderSteps

/-!
# Waiting for the queues of the module loader

A thread waits for a queue while the operation it needs is not possible.  Whoever makes it possible
signals one waiting thread, which passes the signal on when it is done: while a thread waits for an
operation that is possible, another one is on its way to signal it or to do the operation itself
(`Woken`).  So no wake-up is lost, although a signal wakes one thread only.
-/

namespace AudioReach

open Function (update update_of_ne update_self)

namespace LoaderCore

variable {c : LoaderCore} {t u : ℕ} {more : Bool}

lemma act_point_of_ne (hne : u ≠ t) : (c.act t more).point u = c.point u := by
  unfold act
  split
  case h_5 => split <;> exact update_of_ne hne ..
  all_goals exact update_of_ne hne ..

section

variable (c : LoaderCore) (t : ℕ) (more : Bool)

lemma act_total : (c.act t more).total = c.total := by
  unfold act
  split
  case h_5 => split <;> rfl
  all_goals rfl

lemma act_numThreads : (c.act t more).numThreads = c.numThreads := by
  unfold act
  split
  case h_5 => split <;> rfl
  all_goals rfl

lemma act_maxElements :
    (c.act t more).taskQueue.maxElements = c.taskQueue.maxElements ∧
      (c.act t more).handleQueue.maxElements = c.handleQueue.maxElements := by
  unfold act
  split
  case h_5 => split <;> exact ⟨rfl, rfl⟩
  all_goals exact ⟨rfl, rfl⟩

end

lemma act_possible {q : LoaderQueue} (hq : ∀ op, (c.point t).queueOp ≠ some (q, op))
    (op : QueueOp) : (c.act t more).possible q op = c.possible q op := by
  unfold act
  cases hpt : c.point t with
  | holding h r => cases more <;> cases q <;> cases op <;> rfl
  | popHandle | pushHandle h r =>
    rw [hpt] at hq
    cases q with
    | tasks => cases op <;> rfl
    | handles => exact absurd rfl (hq _)
  | pushVote h r | pushTask h r k | pushRelease r | popTask =>
    rw [hpt] at hq
    cases q with
    | tasks => exact absurd rfl (hq _)
    | handles => cases op <;> rfl
  | _ => cases q <;> cases op <;> rfl

end LoaderCore

namespace AmdbLoader

/-- What a step does, by what the thread was about to do. -/
inductive Steps (s : AmdbLoader) : LoaderEvent → AmdbLoader → Prop
  /-- Nothing happens. -/
  | stay {e : LoaderEvent} : Steps s e s
  /-- A thread goes on outside the queues. -/
  | act {t u : ℕ} {more : Bool} (ht : t < s.core.total) (hstage : s.stage t = .ready)
      (hop : (s.core.point t).queueOp = none) :
      Steps s (.run t more u) { s with core := s.core.act t more }
  /-- It takes the mutex of a queue. -/
  | lock {t u : ℕ} {more : Bool} {q : LoaderQueue} {op : QueueOp} (ht : t < s.core.total)
      (hstage : s.stage t = .ready) (hop : (s.core.point t).queueOp = some (q, op))
      (hfree : s.lock q = none) :
      Steps s (.run t more u) ((s.setLock q (some t)).setStage t .locked)
  /-- It waits. -/
  | wait {t u : ℕ} {more : Bool} {q : LoaderQueue} {op : QueueOp} (ht : t < s.core.total)
      (hstage : s.stage t = .locked) (hop : (s.core.point t).queueOp = some (q, op))
      (hblocked : s.core.possible q op = false) :
      Steps s (.run t more u) ((s.setLock q none).setStage t .waiting)
  /-- It does the operation. -/
  | operate {t u : ℕ} {more : Bool} {q : LoaderQueue} {op : QueueOp} (ht : t < s.core.total)
      (hstage : s.stage t = .locked) (hop : (s.core.point t).queueOp = some (q, op))
      (hpossible : s.core.possible q op = true) :
      Steps s (.run t more u) ({ s with core := s.core.act t more }.setStage t (.signalOther q op))
  /-- A signal for `op'` wakes a thread. -/
  | wakes {t u : ℕ} {more : Bool} {q : LoaderQueue} {op op' : QueueOp} {next : QueueStage}
      (ht : t < s.core.total)
      (hstage : s.stage t = .signalOther q op ∧ op' = op.other ∧ next = .signalSame q op ∨
        s.stage t = .signalSame q op ∧ op' = op ∧ next = .unlock q)
      (hu : u < s.core.total) (hwaits : s.waits q op' u = true) :
      Steps s (.run t more u) ((s.setStage u .ready).setStage t next)
  /-- No thread has to be woken for `op'`. -/
  | wakesNone {t u : ℕ} {more : Bool} {q : LoaderQueue} {op op' : QueueOp} {next : QueueStage}
      (ht : t < s.core.total)
      (hstage : s.stage t = .signalOther q op ∧ op' = op.other ∧ next = .signalSame q op ∨
        s.stage t = .signalSame q op ∧ op' = op ∧ next = .unlock q)
      (hnone : s.core.possible q op' = true → ∀ v < s.core.total, ¬ s.waits q op' v) :
      Steps s (.run t more u) (s.setStage t next)
  /-- It gives back the mutex. -/
  | unlock {t u : ℕ} {more : Bool} {q : LoaderQueue} (ht : t < s.core.total)
      (hstage : s.stage t = .unlock q) :
      Steps s (.run t more u) ((s.setLock q none).setStage t .ready)
  /-- A thread wakes up. -/
  | wake {t : ℕ} (hstage : s.stage t = .waiting) : Steps s (.wake t) (s.setStage t .ready)

variable {s : AmdbLoader}

lemma steps_step (s : AmdbLoader) (e : LoaderEvent) : Steps s e (s.step e) := by
  cases e with
  | wake t =>
    unfold step
    dsimp only
    split
    · rename_i hstage
      exact .wake hstage
    · exact .stay
  | run t more u =>
    unfold step
    dsimp only
    split
    · rename_i ht
      unfold runThread
      cases hstage : s.stage t with
      | ready =>
        cases hop : (s.core.point t).queueOp with
        | none => exact .act ht hstage hop
        | some qop =>
          dsimp only
          split
          · rename_i hfree
            exact .lock ht hstage hop hfree
          · exact .stay
      | locked =>
        cases hop : (s.core.point t).queueOp with
        | none => exact .stay
        | some qop =>
          dsimp only
          split
          · rename_i hpossible
            exact .operate ht hstage hop hpossible
          · rename_i hblocked
            exact .wait ht hstage hop (Bool.eq_false_iff.mpr hblocked)
      | waiting => exact .stay
      | signalOther q op =>
        dsimp only
        unfold signal
        split
        · rename_i hwoken
          exact .wakes ht (.inl ⟨hstage, rfl, rfl⟩) hwoken.1 hwoken.2
        · split
          · rename_i hnone
            exact .wakesNone ht (.inl ⟨hstage, rfl, rfl⟩) fun _ => hnone
          · exact .stay
      | signalSame q op =>
        dsimp only
        split
        · unfold signal
          split
          · rename_i hwoken
            exact .wakes ht (.inr ⟨hstage, rfl, rfl⟩) hwoken.1 hwoken.2
          · split
            · rename_i hnone
              exact .wakesNone ht (.inr ⟨hstage, rfl, rfl⟩) fun _ => hnone
            · exact .stay
        · rename_i hblocked
          exact .wakesNone ht (.inr ⟨hstage, rfl, rfl⟩) fun hpossible => absurd hpossible hblocked
      | unlock q => exact .unlock ht hstage
    · exact .stay

/-! ## Mutexes -/

/-- The mutex that a thread at `p` has. -/
def mutexOf (p : LoaderPoint) : QueueStage → Option LoaderQueue
  | .locked => p.queueOp.map Prod.fst
  | .signalOther q _ | .signalSame q _ | .unlock q => some q
  | .ready | .waiting => none

/-- Who holds a mutex is inside an operation of its queue. -/
def Locked (s : AmdbLoader) : Prop :=
  ∀ q t, s.lock q = some t → t < s.core.total ∧ mutexOf (s.core.point t) (s.stage t) = some q

variable {t : ℕ}

lemma Locked.frame (h : s.Locked) (s' : AmdbLoader) {q : LoaderQueue}
    (htotal : s'.core.total = s.core.total)
    (hothers : ∀ u, u ≠ t → s'.stage u = s.stage u ∧ s'.core.point u = s.core.point u)
    (hlock : s'.lock q = s.lock q) (ht : mutexOf (s.core.point t) (s.stage t) ≠ some q) (u : ℕ)
    (hu : s'.lock q = some u) :
    u < s'.core.total ∧ mutexOf (s'.core.point u) (s'.stage u) = some q := by
  rw [hlock] at hu
  obtain ⟨hlt, hmutex⟩ := h q u hu
  have hne : u ≠ t := by
    rintro rfl
    exact ht hmutex
  rw [htotal, (hothers u hne).1, (hothers u hne).2]
  exact ⟨hlt, hmutex⟩

lemma setStage_stage_of_ne {u : ℕ} (hne : u ≠ t) (st : QueueStage) :
    (s.setStage t st).stage u = s.stage u :=
  update_of_ne hne ..

lemma setStage_stage_self (t : ℕ) (st : QueueStage) : (s.setStage t st).stage t = st :=
  update_self ..

lemma Locked.wake (h : s.Locked) (hstage : s.stage t = .waiting) :
    (s.setStage t .ready).Locked := fun q u hu =>
  h.frame (s.setStage t .ready) rfl
    (fun _ hne => ⟨setStage_stage_of_ne hne _, rfl⟩) rfl (by rw [hstage]; exact nofun) u hu

variable {q : LoaderQueue} {next : QueueStage}

section

variable (h : s.Locked) (hold : mutexOf (s.core.point t) (s.stage t) = some q)
include h hold

lemma Locked.keep (hnew : mutexOf (s.core.point t) next = some q) : (s.setStage t next).Locked := by
  intro q' u hu
  by_cases hq : q' = q
  · subst hq
    obtain ⟨hlt, hmutex⟩ := h q' u hu
    by_cases hne : u = t
    · subst hne
      rw [setStage_stage_self]
      exact ⟨hlt, hnew⟩
    · rw [setStage_stage_of_ne hne]
      exact ⟨hlt, hmutex⟩
  · refine h.frame (s.setStage t next) rfl
      (fun _ hne => ⟨setStage_stage_of_ne hne _, rfl⟩) rfl ?_ u hu
    rw [hold]
    exact fun heq => hq (Option.some.inj heq).symm

lemma Locked.release : ((s.setLock q none).setStage t next).Locked := by
  intro q' u hu
  by_cases hq : q' = q
  · subst hq
    have hnone : ((s.setLock q' none).setStage t next).lock q' = none := update_self ..
    cases hnone.symm.trans hu
  · refine h.frame ((s.setLock q none).setStage t next) rfl
      (fun _ hne => ⟨update_of_ne hne .., rfl⟩) (update_of_ne hq ..) ?_ u hu
    rw [hold]
    exact fun heq => hq (Option.some.inj heq).symm

end

variable {s' : AmdbLoader} {e : LoaderEvent}

/-- **Every step keeps the mutexes right.** -/
lemma Locked.step (h : s.Locked) (hstep : Steps s e s') : s'.Locked := by
  cases hstep with
  | stay => exact h
  | @act t u more ht hstage hop =>
    intro q v hv
    exact h.frame { s with core := s.core.act t more } (s.core.act_total t more)
      (fun w hne => ⟨rfl, LoaderCore.act_point_of_ne hne⟩) rfl
      (by rw [hstage]; exact nofun) v hv
  | @lock t u more q op ht hstage hop hfree =>
    intro q' v hv
    by_cases hq : q' = q
    · subst hq
      have hsome : ((s.setLock q' (some t)).setStage t .locked).lock q' = some t :=
        update_self ..
      cases hsome.symm.trans hv
      refine ⟨ht, ?_⟩
      rw [setStage_stage_self]
      exact congrArg (Option.map Prod.fst) hop
    · refine h.frame ((s.setLock q (some t)).setStage t .locked) rfl
        (fun _ hne => ⟨update_of_ne hne .., rfl⟩) (update_of_ne hq ..) ?_ v hv
      rw [hstage]
      exact nofun
  | @wait t u more q op ht hstage hop hblocked =>
    refine h.release ?_
    rw [hstage]
    exact congrArg (Option.map Prod.fst) hop
  | @operate t u more q op ht hstage hop hpossible =>
    have hold : mutexOf (s.core.point t) (s.stage t) = some q := by
      rw [hstage]
      exact congrArg (Option.map Prod.fst) hop
    intro q' v hv
    by_cases hq : q' = q
    · subst hq
      obtain ⟨hlt, hmutex⟩ := h q' v hv
      change v < (s.core.act t more).total ∧ _
      rw [LoaderCore.act_total]
      refine ⟨hlt, ?_⟩
      by_cases hne : v = t
      · subst hne
        rw [setStage_stage_self]
        rfl
      · rw [setStage_stage_of_ne hne]
        change mutexOf ((s.core.act t more).point v) _ = _
        rw [LoaderCore.act_point_of_ne hne]
        exact hmutex
    · refine h.frame ({ s with core := s.core.act t more }.setStage t (.signalOther q op))
        (s.core.act_total t more)
        (fun _ hne => ⟨update_of_ne hne .., LoaderCore.act_point_of_ne hne⟩) rfl ?_ v hv
      rw [hold]
      exact fun heq => hq (Option.some.inj heq).symm
  | @wakes t u more q op op' next ht hstage hu hwaits =>
    unfold waits at hwaits
    rw [Bool.and_eq_true, decide_eq_true_iff] at hwaits
    have hne : t ≠ u := by
      rintro rfl
      rcases hstage with ⟨hstage, -⟩ | ⟨hstage, -⟩ <;> cases hstage.symm.trans hwaits.1
    have hsame : (s.setStage u .ready).stage t = s.stage t := setStage_stage_of_ne hne _
    refine (h.wake hwaits.1).keep (q := q) ?_ ?_
    · rw [hsame]
      rcases hstage with ⟨hstage, -⟩ | ⟨hstage, -⟩ <;> rw [hstage] <;> rfl
    · rcases hstage with ⟨-, -, rfl⟩ | ⟨-, -, rfl⟩ <;> rfl
  | @wakesNone t u more q op op' next ht hstage hnone =>
    refine h.keep (q := q) ?_ ?_
    · rcases hstage with ⟨hstage, -⟩ | ⟨hstage, -⟩ <;> rw [hstage] <;> rfl
    · rcases hstage with ⟨-, -, rfl⟩ | ⟨-, -, rfl⟩ <;> rfl
  | @unlock t u more q ht hstage =>
    refine h.release ?_
    rw [hstage]
    rfl
  | wake hstage => exact h.wake hstage

/-! ## Wake-ups -/

/-- The thread is on its way to do the operation, or to signal a thread that waits for it. -/
def alert (s : AmdbLoader) (q : LoaderQueue) (op : QueueOp) (t : ℕ) : Prop :=
  match s.stage t with
  | .ready | .locked => (s.core.point t).queueOp = some (q, op)
  | .signalOther q' _ => q' = q
  | .signalSame q' op' => q' = q ∧ op' = op
  | .waiting | .unlock _ => False

/-- A thread that waits for a possible operation will be signalled. -/
def WokenFor (s : AmdbLoader) (q : LoaderQueue) (op : QueueOp) : Prop :=
  s.core.possible q op = true → (∃ t < s.core.total, s.waits q op t = true) →
    ∃ u < s.core.total, s.alert q op u

/-- **No wake-up is lost.** -/
def Woken (s : AmdbLoader) : Prop := ∀ q op, s.WokenFor q op

lemma waits_iff {op : QueueOp} :
    s.waits q op t = true ↔ s.stage t = .waiting ∧ (s.core.point t).queueOp = some (q, op) := by
  unfold waits
  rw [Bool.and_eq_true, decide_eq_true_iff, decide_eq_true_iff]

/-- The step of a thread that has nothing to do with the operation. -/
lemma WokenFor.frame {q : LoaderQueue} {op : QueueOp} (h : s.WokenFor q op) (s' : AmdbLoader)
    (htotal : s'.core.total = s.core.total)
    (hothers : ∀ u, u ≠ t → s'.stage u = s.stage u ∧ s'.core.point u = s.core.point u)
    (hpossible : s'.core.possible q op = s.core.possible q op) (halert : ¬ s.alert q op t)
    (hwaits : s'.waits q op t = true → s.waits q op t = true) : s'.WokenFor q op := by
  intro hp hw
  rw [hpossible] at hp
  obtain ⟨v, hv, hvwaits⟩ := hw
  rw [htotal] at hv ⊢
  have hbefore : s.waits q op v = true := by
    by_cases hne : v = t
    · subst hne
      exact hwaits hvwaits
    · rw [waits_iff] at hvwaits ⊢
      rw [(hothers v hne).1, (hothers v hne).2] at hvwaits
      exact hvwaits
  obtain ⟨u, hu, hualert⟩ := h hp ⟨v, hv, hbefore⟩
  have hne : u ≠ t := by
    rintro rfl
    exact halert hualert
  refine ⟨u, hu, ?_⟩
  unfold alert
  rw [(hothers u hne).1, (hothers u hne).2]
  exact hualert

lemma Woken.wake (h : s.Woken) (hstage : s.stage t = .waiting) :
    (s.setStage t .ready).Woken := fun q op =>
  (h q op).frame (s.setStage t .ready) rfl
    (fun _ hne => ⟨setStage_stage_of_ne hne _, rfl⟩) rfl
    (by unfold alert; rw [hstage]; exact id)
    (fun hw => by
      rw [waits_iff, setStage_stage_self] at hw
      cases hw.1)

/-- A thread has sent a signal for `op'`, or did not have to. -/
lemma Woken.signalled (h : s.Woken) {op op' : QueueOp} (ht : t < s.core.total)
    (hstage : s.stage t = .signalOther q op ∧ op' = op.other ∧
      next = .signalSame q op ∨ s.stage t = .signalSame q op ∧ op' = op ∧ next = .unlock q)
    (hsent : s.core.possible q op' = true →
      (∃ u < s.core.total, u ≠ t ∧ s.alert q op' u) ∨ ∀ v < s.core.total, ¬ s.waits q op' v)
    : (s.setStage t next).Woken := by
  intro q₁ op₁
  have hnot : ∀ q op, (s.setStage t next).waits q op t = true → False := by
    intro q op hw
    rw [waits_iff, setStage_stage_self] at hw
    rcases hstage with ⟨-, -, rfl⟩ | ⟨-, -, rfl⟩ <;> cases hw.1
  by_cases hop : q₁ = q ∧ op₁ = op'
  · obtain ⟨rfl, rfl⟩ := hop
    intro hp hw
    rcases hsent hp with ⟨u, hu, hne, hualert⟩ | hnone
    · refine ⟨u, hu, ?_⟩
      unfold alert
      rw [setStage_stage_of_ne hne]
      exact hualert
    · obtain ⟨v, hv, hvwaits⟩ := hw
      by_cases hne : v = t
      · subst hne
        exact absurd hvwaits (hnot _ _)
      · rw [waits_iff, setStage_stage_of_ne hne] at hvwaits
        exact absurd (waits_iff.mpr hvwaits) (hnone v hv)
  · by_cases hself : (s.setStage t next).alert q₁ op₁ t
    · exact fun _ _ => ⟨t, ht, hself⟩
    · refine (h q₁ op₁).frame (s.setStage t next) rfl
        (fun _ hne => ⟨setStage_stage_of_ne hne _, rfl⟩) rfl (fun halert => ?_)
        fun hw => absurd hw (hnot _ _)
      unfold alert at halert hself
      rw [setStage_stage_self] at hself
      rcases hstage with ⟨hstage, rfl, rfl⟩ | ⟨hstage, rfl, rfl⟩
      · rw [hstage] at halert
        cases op <;> cases op₁ <;>
          first | exact hop ⟨halert.symm, rfl⟩ | exact hself ⟨halert, rfl⟩
      · rw [hstage] at halert
        exact hop ⟨halert.1.symm, halert.2.symm⟩

/-- **Every step keeps the wake-ups.** -/
lemma Woken.step (h : s.Woken) (hstep : Steps s e s') : s'.Woken := by
  cases hstep with
  | stay => exact h
  | @act t u more ht hstage hop =>
    intro q op
    refine (h q op).frame { s with core := s.core.act t more } (s.core.act_total t more)
      (fun w hne => ⟨rfl, LoaderCore.act_point_of_ne hne⟩)
      (LoaderCore.act_possible (fun op => by rw [hop]; exact nofun) op) ?_ fun hw => ?_
    · unfold alert
      rw [hstage, hop]
      exact nofun
    · cases hstage.symm.trans (waits_iff.mp hw).1
  | @lock t u more q op ht hstage hop hfree =>
    intro q₁ op₁
    by_cases hq : (s.core.point t).queueOp = some (q₁, op₁)
    · refine fun _ _ => ⟨t, ht, ?_⟩
      unfold alert
      rw [setStage_stage_self]
      exact hq
    · refine (h q₁ op₁).frame ((s.setLock q (some t)).setStage t .locked) rfl
        (fun _ hne => ⟨update_of_ne hne .., rfl⟩) rfl ?_ fun hw => ?_
      · unfold alert
        rw [hstage]
        exact hq
      · rw [waits_iff, setStage_stage_self] at hw
        cases hw.1
  | @wait t u more q op ht hstage hop hblocked =>
    intro q₁ op₁
    by_cases hq : (s.core.point t).queueOp = some (q₁, op₁)
    · intro hp
      cases hop.symm.trans hq
      cases hblocked.symm.trans hp
    · refine (h q₁ op₁).frame ((s.setLock q none).setStage t .waiting) rfl
        (fun _ hne => ⟨update_of_ne hne .., rfl⟩) rfl ?_ fun hw => ?_
      · unfold alert
        rw [hstage]
        exact hq
      · exact absurd (waits_iff.mp hw).2 hq
  | @operate t u more q op ht hstage hop hpossible =>
    intro q₁ op₁
    by_cases hq : q = q₁
    · refine fun _ _ => ⟨t, ?_, ?_⟩
      · change t < (s.core.act t more).total
        rw [LoaderCore.act_total]
        exact ht
      · unfold alert
        rw [setStage_stage_self]
        exact hq
    · have hother : ∀ op, (s.core.point t).queueOp ≠ some (q₁, op) := by
        rw [hop]
        exact fun op heq => hq (congrArg Prod.fst (Option.some.inj heq))
      refine (h q₁ op₁).frame ({ s with core := s.core.act t more }.setStage t (.signalOther q op))
        (s.core.act_total t more)
        (fun _ hne => ⟨update_of_ne hne .., LoaderCore.act_point_of_ne hne⟩)
        (LoaderCore.act_possible hother op₁) ?_ fun hw => ?_
      · unfold alert
        rw [hstage]
        exact hother op₁
      · rw [waits_iff, setStage_stage_self] at hw
        cases hw.1
  | @wakes t u more q op op' next ht hstage hu hwaits =>
    have huwaits := waits_iff.mp hwaits
    have hne : t ≠ u := by
      rintro rfl
      rcases hstage with ⟨hstage, -⟩ | ⟨hstage, -⟩ <;> cases hstage.symm.trans huwaits.1
    have hsame : (s.setStage u .ready).stage t = s.stage t := setStage_stage_of_ne hne _
    rw [← hsame] at hstage
    refine (h.wake huwaits.1).signalled ht hstage fun _ => .inl ⟨u, hu, hne.symm, ?_⟩
    · unfold alert
      rw [setStage_stage_self]
      exact huwaits.2
  | @wakesNone t u more q op op' next ht hstage hnone =>
    exact h.signalled ht hstage fun hp => .inr (hnone hp)
  | @unlock t u more q ht hstage =>
    intro q₁ op₁
    refine (h q₁ op₁).frame ((s.setLock q none).setStage t .ready) rfl
      (fun _ hne => ⟨update_of_ne hne .., rfl⟩) rfl ?_ fun hw => ?_
    · unfold alert
      rw [hstage]
      exact id
    · rw [waits_iff, setStage_stage_self] at hw
      cases hw.1
  | wake hstage => exact h.wake hstage

end AmdbLoader

end AudioReach
