import AudioReach.PosalQueue.Refine

/-!
# A queue that signals what it has

The queue and the deque in lockstep: what one call does to the signal, when it keeps the
agreement, and what follows for every run.  Every call keeps the queue on a bit of its own
(`OnChannel`) and the memory in agreement with the deque (`Stores`).  The signal stays in
agreement exactly in the runs whose calls all satisfy `KeepsSignal`.
-/

namespace AudioReach

open Library

variable {E : Type}

/-! ## What a call does to the signal -/

namespace OnChannel

variable {w : QueueWorld E} {d : Deque E} {c i : ℕ}

/-- A push that is accepted raises the bit, unless the signal is switched off. -/
lemma pushAt {place : Option (QueueWorld E)} (h : OnChannel w c i)
    (hplaced : ∀ w', place = some w' → Placed w w') (slot : PosalQueue → Addr) (payload : E) :
    OnChannel (w.pushAt place slot payload).2 c i ∧ ((w.pushAt place slot payload).2.poll ≠ 0 ↔
        ((w.pushAt place slot payload).1 = .eok ∧ w.queue.disableSignaling = false) ∨
          w.poll ≠ 0) := by
  unfold QueueWorld.pushAt
  rw [h.channelPtr]
  split_ifs with hfull
  · exact ⟨h, by simp⟩
  · cases hplace : place with
    | none => exact ⟨h, by simp⟩
    | some w' =>
      have hw := hplaced w' hplace
      have hptr : w'.queue.channelPtr = w.queue.channelPtr := by rw [hw.queue]
      have hbit : w'.queue.channelBit = w.queue.channelBit := by rw [hw.queue]
      have hdis : w'.queue.disableSignaling = w.queue.disableSignaling := by rw [hw.queue]
      let w'' : QueueWorld E := { w' with nodes := w'.nodes.setElem (slot w'.queue) payload }
      have hon : OnChannel w'' c i := h.congr hptr hbit hw.channels
      have hpoll : w''.poll = w.poll := poll_congr hptr hbit hw.channels
      obtain ⟨hon', hsignal⟩ := QueueWorld.finishPush_signal hon
      refine ⟨hon', hsignal.trans ?_⟩
      rw [hpoll, show w''.queue.disableSignaling = _ from hdis]
      simp

lemma popAt (h : OnChannel w c i) (slot head tail : Addr) :
    OnChannel (w.popAt slot head tail).2 c i ∧ ((w.popAt slot head tail).2.poll ≠ 0 ↔
        w.poll ≠ 0 ∧ ((w.popAt slot head tail).1.1 = .eok →
          (w.popAt slot head tail).2.queue.activeNodes ≠ 0)) := by
  unfold QueueWorld.popAt
  rw [h.channelPtr]
  split_ifs with hempty hlast
  · exact ⟨h, by simp⟩
  · have hcount : OnChannel w.countPop c i := h.congr rfl rfl rfl
    obtain ⟨hon, hclear⟩ := hcount.signalClear
    refine ⟨hon, iff_of_false (not_ne_iff.mpr hclear) ?_⟩
    rintro ⟨_, hne⟩
    exact hne rfl hlast
  · have hpoll : (w.countPop.setEnds head tail).poll = w.poll := poll_congr rfl rfl rfl
    refine ⟨h.congr rfl rfl rfl, ?_⟩
    exact (and_iff_left fun _ => hlast).symm

/-- The switch clears the bit, or raises it if there is something to pop. -/
lemma enableDisableSignaling (h : OnChannel w c i) (isEnable : Bool) :
    OnChannel (w.enableDisableSignaling isEnable) c i ∧
      ((w.enableDisableSignaling isEnable).poll ≠ 0 ↔
        isEnable = true ∧ (0 < w.queue.activeNodes ∨ w.poll ≠ 0)) := by
  have hset : OnChannel (w.setSignaling isEnable) c i := h.congr rfl rfl rfl
  unfold QueueWorld.enableDisableSignaling
  rw [h.channelPtr]
  cases isEnable with
  | false =>
    obtain ⟨hon, hclear⟩ := hset.signalClear
    exact ⟨hon, iff_of_false (not_ne_iff.mpr hclear) (by simp)⟩
  | true =>
    simp only [QueueWorld.setSignaling, Bool.not_true, Bool.false_eq_true, if_false, true_and]
    split_ifs with hactive
    · obtain ⟨hon, hraised⟩ := hset.signalSet
      exact ⟨hon, iff_of_true hraised (Or.inl hactive)⟩
    · refine ⟨hset, ?_⟩
      change (w.setSignaling true).poll ≠ 0 ↔ _
      exact (or_iff_right hactive).symm

end OnChannel

/-! ## One call -/

namespace Deque

variable (d : Deque E)

lemma call_capacity (a : QueueCall E) : (d.call a).2.capacity = d.capacity := by
  cases a with
  | pushBack payload allocated | insertFront payload allocated =>
    simp only [call, push]
    split_ifs <;> rfl
  | popFront | popBack =>
    simp only [call]
    split <;> rfl
  | enableDisableSignaling isEnable | addq c unBitMask => rfl

lemma push_cases (elems : List E) (allocated : Bool) :
    ((d.push elems allocated).1 = some (.eok, none) ∧ (d.push elems allocated).2.elems = elems ∧
        (d.push elems allocated).2.signalling = d.signalling) ∨
      (d.push elems allocated).1 ≠ some (.eok, none) ∧ (d.push elems allocated).2 = d := by
  unfold push
  split_ifs <;> simp

lemma popFront_cases : (d.elems ≠ [] ∧ (∃ x, (d.call .popFront).1 = some (.eok, some x)) ∧
        (d.call .popFront).2.signalling = d.signalling) ∨
      (d.call .popFront).1 = some (.eneedmore, none) ∧ (d.call .popFront).2 = d := by
  simp only [call]
  cases hd : d.elems <;> simp

lemma popBack_cases : (d.elems ≠ [] ∧ (∃ x, (d.call .popBack).1 = some (.eok, some x)) ∧
        (d.call .popBack).2.signalling = d.signalling) ∨
      (d.call .popBack).1 = some (.eneedmore, none) ∧ (d.call .popBack).2 = d := by
  simp only [call]
  cases hd : d.elems.getLast? with
  | none => simp
  | some x =>
    left
    refine ⟨?_, ⟨x, rfl⟩, rfl⟩
    rintro hnil
    simp [hnil] at hd

end Deque

namespace Stores

variable {w : QueueWorld E} {d : Deque E} {active idle : List Addr} {c i : ℕ}

section

variable (h : Stores w d active idle)
include h

lemma activeNodes_pos_iff : 0 < w.queue.activeNodes ↔ d.elems ≠ [] := by
  rw [h.activeNodes, ← h.length_elems, Int.natCast_pos, List.length_pos_iff]

lemma activeNodes_ne_zero_iff : w.queue.activeNodes ≠ 0 ↔ d.elems ≠ [] := by
  rw [h.activeNodes, ← h.length_elems, Ne, Int.natCast_eq_zero, List.length_eq_zero_iff]

/-- **One call of the memory.** Every call gives the answer of the deque and leaves its elements
in the ring. -/
lemma call (hfits : d.capacity ≤ 32767) (hon : OnChannel w c i) (a : QueueCall E) :
    (w.call a).1 = (d.call a).1 ∧
      ∃ active' idle', Stores (w.call a).2 (d.call a).2 active' idle' := by
  cases a with
  | pushBack payload allocated => exact h.pushBack hfits hon.channelPtr payload allocated
  | insertFront payload allocated => exact h.insertFront hfits hon.channelPtr payload allocated
  | popFront => exact h.popFront hfits hon.channelPtr
  | popBack => exact h.popBack hfits hon.channelPtr
  | enableDisableSignaling isEnable =>
    exact ⟨rfl, active, idle, h.enableDisableSignaling isEnable⟩
  | addq c' unBitMask => exact ⟨rfl, active, idle, h.addq c' unBitMask⟩

end

end Stores

lemma OnChannel.call {w : QueueWorld E} {c i : ℕ} (h : OnChannel w c i) (a : QueueCall E) :
    ∃ c' i', OnChannel (w.call a).2 c' i' := by
  cases a with
  | pushBack payload allocated =>
    exact ⟨c, i, (h.pushAt (fun _ => QueueWorld.placeBack_placed) _ _).1⟩
  | insertFront payload allocated =>
    exact ⟨c, i, (h.pushAt (fun _ => QueueWorld.placeFront_placed) _ _).1⟩
  | popFront => exact ⟨c, i, (h.popAt _ _ _).1⟩
  | popBack => exact ⟨c, i, (h.popAt _ _ _).1⟩
  | enableDisableSignaling isEnable => exact ⟨c, i, (h.enableDisableSignaling isEnable).1⟩
  | addq c' unBitMask =>
    cases hcheck : (w.channels c').checkBitMask unBitMask with
    | error result =>
      refine ⟨c, i, ?_⟩
      simp only [QueueWorld.call, QueueWorld.addq, hcheck]
      exact h
    | ok mask =>
      obtain ⟨i', hon, _⟩ := QueueWorld.addq_moves h hcheck
      exact ⟨c', i', hon⟩

namespace Signals

variable {w : QueueWorld E} {d : Deque E} {active idle : List Addr} {c i : ℕ}

lemma pushAt {place : Option (QueueWorld E)} {elems : List E} {allocated : Bool}
    {slot : PosalQueue → Addr} {payload : E} (h : Signals w d) (hon : OnChannel w c i)
    (hdis : w.queue.disableSignaling = !d.signalling) (hne : elems ≠ [])
    (hplaced : ∀ w', place = some w' → Placed w w')
    (hanswer : some ((w.pushAt place slot payload).1, none) = (d.push elems allocated).1) :
    Signals (w.pushAt place slot payload).2 (d.push elems allocated).2 := by
  unfold Signals at h ⊢
  rw [(hon.pushAt hplaced slot payload).2, h, hdis]
  obtain ⟨hok, helems, hsignalling⟩ | ⟨hrefused, hsame⟩ := d.push_cases elems allocated
  · have hresult : (w.pushAt place slot payload).1 = .eok := by
      rw [hok] at hanswer
      simpa using hanswer
    rw [hresult, helems, hsignalling]
    cases d.signalling <;> simp [hne]
  · have hresult : (w.pushAt place slot payload).1 ≠ .eok := by
      rintro heok
      rw [heok] at hanswer
      exact hrefused hanswer.symm
    rw [hsame]
    simp [hresult]

lemma popAt {a : QueueCall E} {slot head tail : Addr} (h : Signals w d) (hon : OnChannel w c i)
    (hanswer : some (w.popAt slot head tail).1 = (d.call a).1)
    (hstores : Stores (w.popAt slot head tail).2 (d.call a).2 active idle)
    (hcases : (d.elems ≠ [] ∧ (∃ x, (d.call a).1 = some (.eok, some x)) ∧
        (d.call a).2.signalling = d.signalling) ∨
      (d.call a).1 = some (.eneedmore, none) ∧ (d.call a).2 = d) :
    Signals (w.popAt slot head tail).2 (d.call a).2 := by
  unfold Signals at h ⊢
  rw [(hon.popAt slot head tail).2, h, hstores.activeNodes_ne_zero_iff]
  rcases hcases with ⟨hne, ⟨x, hok⟩, hsignalling⟩ | ⟨hempty, hsame⟩
  · have hresult : (w.popAt slot head tail).1 = (.eok, some x) := by
      rw [hok] at hanswer
      exact Option.some_inj.mp hanswer
    rw [hresult, hsignalling]
    simp [hne, and_comm]
  · have hresult : (w.popAt slot head tail).1 = (.eneedmore, none) := by
      rw [hempty] at hanswer
      exact Option.some_inj.mp hanswer
    rw [hresult, hsame]
    simp

/-- **One call of the signal.** A call keeps the signal in agreement exactly when it does not
take a queue that signals off one of the upper 24 positions. -/
lemma call_iff (h : Signals w d) (hstores : Stores w d active idle) (hfits : d.capacity ≤ 32767)
    (hon : OnChannel w c i) (a : QueueCall E) :
    Signals (w.call a).2 (d.call a).2 ↔ w.KeepsSignal a := by
  obtain ⟨hanswer, active', idle', hstores'⟩ := hstores.call hfits hon a
  cases a with
  | pushBack payload allocated =>
    exact iff_of_true (h.pushAt hon hstores.disableSignaling (by simp)
      (fun _ => QueueWorld.placeBack_placed) hanswer) trivial
  | insertFront payload allocated =>
    exact iff_of_true (h.pushAt hon hstores.disableSignaling (by simp)
      (fun _ => QueueWorld.placeFront_placed) hanswer) trivial
  | popFront => exact iff_of_true (h.popAt hon hanswer hstores' d.popFront_cases) trivial
  | popBack => exact iff_of_true (h.popAt hon hanswer hstores' d.popBack_cases) trivial
  | enableDisableSignaling isEnable =>
    refine iff_of_true ?_ trivial
    unfold Signals at h ⊢
    simp only [QueueWorld.call, Deque.call]
    rw [(hon.enableDisableSignaling isEnable).2, hstores.activeNodes_pos_iff, h, and_comm,
      or_iff_left_of_imp And.left]
  | addq c' unBitMask =>
    simp only [QueueWorld.call, Deque.call, QueueWorld.KeepsSignal]
    cases hcheck : (w.channels c').checkBitMask unBitMask with
    | error result =>
      have hsame : (w.addq c' unBitMask).2 = w := by simp only [QueueWorld.addq, hcheck]
      rw [hsame]
      exact iff_of_true h (fun hok => by cases hok)
    | ok mask =>
      obtain ⟨i', _, hpoll⟩ := QueueWorld.addq_moves hon hcheck
      unfold Signals at h ⊢
      rw [hpoll, h, hstores.activeNodes_pos_iff, hstores.disableSignaling, hon.channelBit,
        toNat_twoPow_lt_iff hon.lt]
      simp only [Except.isOk, Except.toBool, Bool.not_eq_false']
      tauto

end Signals

/-! ## Creation -/

variable {allocated : ℕ → Bool}

/-- The loop of the preallocation leaves idle nodes. -/
lemma Shape.createPreallocNodes {count : ℕ} {w w' : QueueWorld E}
    {idle : List Addr} (h : Shape w.queue w.nodes [] idle) (hroom : idle.length + count ≤ 32767)
    (hcreate : QueueWorld.createPreallocNodes allocated count w = (.eok, w')) :
    (∃ idle', idle'.length = idle.length + count ∧ Shape w'.queue w'.nodes [] idle') ∧
      Placed w w' := by
  induction count generalizing w idle with
  | zero =>
    cases hcreate
    exact ⟨⟨idle, rfl, h⟩, rfl, rfl, rfl⟩
  | succ count ih =>
    unfold QueueWorld.createPreallocNodes QueueNodes.createNode at hcreate
    cases hallocated : allocated (count + 1) with
    | false =>
      rw [hallocated] at hcreate
      cases congrArg Prod.fst hcreate
    | true =>
      rw [hallocated, if_pos rfl] at hcreate
      obtain ⟨idle₁, hlen₁, h₁⟩ := h.addIdleNode (by omega)
      obtain ⟨⟨idle₂, hlen₂, h₂⟩, hplaced⟩ := ih h₁ (by omega) hcreate
      refine ⟨⟨idle₂, by omega, h₂⟩, ?_⟩
      have hfirst : Placed w
          (w.addIdleNode w.nodes.fresh { w.nodes with fresh := w.nodes.fresh + 1 }) := by
        unfold QueueWorld.addIdleNode
        split_ifs <;> exact ⟨rfl, rfl, rfl⟩
      refine ⟨hplaced.elem.trans hfirst.elem, hplaced.channels.trans hfirst.channels, ?_⟩
      rw [hplaced.queue, hfirst.queue]

/-- A queue that was created stores the empty deque, and has no channel yet. -/
lemma Stores.init {w w' : QueueWorld E} {attr : QueueInitAttr}
    (hmax : attr.maxNodes ≤ 32767) (hinit : w.init attr allocated = (.eok, w')) :
    (∃ idle, Stores w' (Deque.init attr) [] idle) ∧ w'.queue.channelPtr = none := by
  unfold QueueWorld.init at hinit
  split_ifs at hinit with hzero hpre hnone hneg
  · cases congrArg Prod.fst hinit
  · cases congrArg Prod.fst hinit
  · cases hinit
    have hfits : toInt16 attr.maxNodes = attr.maxNodes := toInt16_of_le (by omega) hmax
    refine ⟨⟨[], ⟨Shape.nil rfl, rfl, rfl, ?_, ?_, ?_, rfl⟩⟩, rfl⟩
    · simp only [hfits, Deque.init]
      omega
    · simp [Deque.init, ← hnone]
    · simp
  · cases congrArg Prod.fst hinit
  · have hfits : toInt16 attr.maxNodes = attr.maxNodes := toInt16_of_le (by omega) hmax
    obtain ⟨⟨idle, hlen, hshape⟩, hplaced⟩ :=
      (Shape.nil rfl).createPreallocNodes (by simp; omega) hinit
    refine ⟨⟨idle, hshape, ?_, rfl, ?_, ?_, ?_, ?_⟩, ?_⟩
    · rw [hplaced.queue]
      rfl
    · rw [hplaced.queue]
      simp only [hfits, Deque.init]
      omega
    · simp [Deque.init, hlen]
    · simp only [List.nil_append, hlen, List.length_nil, Deque.init]
      omega
    · rw [hplaced.queue]
      rfl
    · rw [hplaced.queue]

/-! ## Every run -/

/-- The queue gives the answer of the deque to the call. -/
def SameAnswer (p : QueueWorld E × Deque E) (a : QueueCall E) : Prop :=
  (p.1.call a).1 = (p.2.call a).1

/-- What every call keeps, whatever becomes of the signal. -/
structure Settled (p : QueueWorld E × Deque E) : Prop where
  fits : p.2.capacity ≤ 32767
  stores : ∃ active idle, Stores p.1 p.2 active idle
  onChannel : ∃ c i, OnChannel p.1 c i

lemma Settled.step {p : QueueWorld E × Deque E} (h : Settled p) (a : QueueCall E) :
    Settled (lockstep p a) := by
  obtain ⟨hfits, ⟨active, idle, hstores⟩, c, i, hon⟩ := h
  refine ⟨?_, (hstores.call hfits hon a).2, hon.call a⟩
  change (p.2.call a).2.capacity ≤ 32767
  rw [Deque.call_capacity]
  exact hfits

lemma Settled.faithful_iff {p : QueueWorld E × Deque E} (h : Settled p)
    (hp : Faithful p.1 p.2) (a : QueueCall E) :
    p.1.KeepsSignal a ↔ Faithful (lockstep p a).1 (lockstep p a).2 ∧ SameAnswer p a := by
  obtain ⟨hfits, ⟨active, idle, hstores⟩, c, i, hon⟩ := h
  obtain ⟨hanswer, hnext⟩ := hstores.call hfits hon a
  rw [← hp.2.call_iff hstores hfits hon a]
  exact ⟨fun hsignals => ⟨⟨hnext, hsignals⟩, hanswer⟩, fun hboth => hboth.1.2⟩

lemma Settled.attached {attr : QueueInitAttr} (hmax : attr.maxNodes ≤ 32767)
    {w w₁ w₂ : QueueWorld E} {c : ℕ} {unBitMask : BitVec 32}
    (hinit : w.init attr allocated = (.eok, w₁)) (haddq : w₁.addq c unBitMask = (.eok, w₂)) :
    Settled (w₂, Deque.init attr) ∧ Faithful w₂ (Deque.init attr) := by
  obtain ⟨⟨idle, hstores⟩, hptr⟩ := Stores.init hmax hinit
  obtain ⟨i, hon, hpoll⟩ := QueueWorld.addq_first hptr (congrArg Prod.fst haddq)
  have hstores₂ := hstores.addq c unBitMask
  rw [haddq] at hon hpoll hstores₂
  refine ⟨⟨?_, ⟨[], idle, hstores₂⟩, c, i, hon⟩, ⟨[], idle, hstores₂⟩, ?_⟩
  · simp only [Deque.init]
    omega
  · exact iff_of_false (not_ne_iff.mpr hpoll) (by simp [Deque.init])

/-- **The queue.** Let a queue be created with a capacity that fits its 16-bit counters, and
attached to a channel.  A run of calls, in which any allocation may fail, gives the answers of
the bounded deque, with its elements in the ring from head to tail and its signal set exactly
when there is something to pop, in every state it passes through, if and only if no call of it
takes the queue off one of the upper 24 bits of a channel while it signals. -/
theorem posalQueue_faithful_iff {attr : QueueInitAttr} (hmax : attr.maxNodes ≤ 32767)
    {allocated : ℕ → Bool} {w w₁ w₂ : QueueWorld E} {c : ℕ} {unBitMask : BitVec 32}
    (hinit : w.init attr allocated = (.eok, w₁)) (haddq : w₁.addq c unBitMask = (.eok, w₂))
    (calls : List (QueueCall E)) :
    Along lockstep (fun p => Faithful p.1 p.2) (w₂, Deque.init attr) calls ∧
        Meets lockstep SameAnswer (w₂, Deque.init attr) calls ↔
      Meets lockstep (fun p a => p.1.KeepsSignal a) (w₂, Deque.init attr) calls := by
  obtain ⟨hsettled, hfaithful⟩ := Settled.attached hmax hinit haddq
  exact (meets_iff_along (fun _ a hp => hp.step a) (fun _ a hp hf => hp.faithful_iff hf a)
    hsettled hfaithful calls).symm

/-- A queue with nothing in memory, and channels of which no bit is used or raised. -/
def blankWorld : QueueWorld ℕ :=
  { queue := ⟨none, 0, 0, 0, 0, 0, 0, false⟩
    nodes := ⟨fun _ => 0, fun _ => 0, fun _ => 0, 1⟩
    channels := fun _ => ⟨0, 0⟩ }

/-- The queue of `blankWorld` created for up to `maxNodes` elements. -/
def createdQueue (maxNodes : ℤ) : QueueWorld ℕ :=
  (blankWorld.init ⟨maxNodes, 0⟩ fun _ => true).2

/-- That queue attached to channel `0`. -/
def attachedQueue (maxNodes : ℤ) (unBitMask : BitVec 32) : QueueWorld ℕ :=
  ((createdQueue maxNodes).addq 0 unBitMask).2

/-- A queue on the lowest bit that is moved while it signals. -/
theorem posalQueue_faithful_moved :
    Along lockstep (fun p => Faithful p.1 p.2) (attachedQueue 2 1, Deque.init ⟨2, 0⟩)
        [.pushBack 7 true, .addq 1 0, .insertFront 8 true, .popBack] ∧
      Meets lockstep SameAnswer (attachedQueue 2 1, Deque.init ⟨2, 0⟩)
        [.pushBack 7 true, .addq 1 0, .insertFront 8 true, .popBack] := by
  have hinit : blankWorld.init ⟨2, 0⟩ (fun _ => true) = (.eok, createdQueue 2) := rfl
  have haddq : (createdQueue 2).addq 0 1 = (.eok, attachedQueue 2 1) := rfl
  refine (posalQueue_faithful_iff (by decide) hinit haddq _).mpr
    ⟨trivial, fun _ _ _ => ?_, trivial, trivial, trivial⟩
  decide

/-- A queue on bit 31, which is the one that a queue gets that does not ask for a bit, loses its
signal when it is moved with an element in it.  A queue created for 65536 elements takes none. -/
theorem not_posalQueue_faithful :
    (¬ ∀ (attr : QueueInitAttr) (allocated : ℕ → Bool) (w w₁ w₂ : QueueWorld ℕ) (c : ℕ)
        (unBitMask : BitVec 32) (calls : List (QueueCall ℕ)),
      attr.maxNodes ≤ 32767 → w.init attr allocated = (.eok, w₁) →
        w₁.addq c unBitMask = (.eok, w₂) →
        Along lockstep (fun p => Signals p.1 p.2) (w₂, Deque.init attr) calls) ∧
    ¬ ∀ (attr : QueueInitAttr) (allocated : ℕ → Bool) (w w₁ w₂ : QueueWorld ℕ) (c : ℕ)
        (unBitMask : BitVec 32) (calls : List (QueueCall ℕ)),
      w.init attr allocated = (.eok, w₁) → w₁.addq c unBitMask = (.eok, w₂) →
        Meets lockstep SameAnswer (w₂, Deque.init attr) calls := by
  constructor
  · intro h
    have hinit : blankWorld.init ⟨1, 0⟩ (fun _ => true) = (.eok, createdQueue 1) := rfl
    have haddq : (createdQueue 1).addq 0 0 = (.eok, attachedQueue 1 0) := rfl
    have hlast := (h ⟨1, 0⟩ (fun _ => true) blankWorld _ _ 0 0 [.pushBack 7 true, .addq 1 0]
      (by decide) hinit haddq).last
    exact absurd (hlast.mpr ⟨by decide, by decide⟩) (by decide)
  · intro h
    have hinit : blankWorld.init ⟨65536, 0⟩ (fun _ => true) = (.eok, createdQueue 65536) := rfl
    have haddq : (createdQueue 65536).addq 0 0 = (.eok, attachedQueue 65536 0) := rfl
    have hanswer := (h ⟨65536, 0⟩ (fun _ => true) blankWorld _ _ 0 0 [.pushBack 7 true] hinit
      haddq).1
    unfold SameAnswer at hanswer
    exact absurd hanswer (by decide)

end AudioReach
