import AudioReach.PosalQueue.Ring
import AudioReach.PosalQueue.Signal
import AudioReach.Library.Runs

/-!
# The queue is a bounded double-ended queue

`Deque` is what the queue is for: a sequence of bounded length to which elements are added and
from which they are taken at either end, and a switch for the signal.  It also knows how much
storage it has, since a push that needs more may fail.

The queue and the deque are run in lockstep.  The memory of the queue stores the deque after any
calls (`Stores`), as long as the capacity fits the 16-bit counters.  The signal agrees with it
(`Signals`) up to the first time the queue is moved off one of the upper 24 positions while it
signals.
-/

namespace AudioReach

open Library List

variable {E : Type}

/-! ## The abstract queue -/

/-- A double-ended queue of bounded length. -/
structure Deque (E : Type) where
  capacity : ℕ
  places : ℕ
  elems : List E
  signalling : Bool

/-- A call of a client of the queue. -/
inductive QueueCall (E : Type)
  /-- `posal_queue_push_back`; `allocated` tells whether a node can be allocated. -/
  | pushBack (payload : E) (allocated : Bool)
  /-- `posal_queue_insert_front`. -/
  | insertFront (payload : E) (allocated : Bool)
  /-- `posal_queue_pop_front`. -/
  | popFront
  /-- `posal_queue_pop_back`. -/
  | popBack
  /-- `posal_queue_enable_disable_signaling`. -/
  | enableDisableSignaling (isEnable : Bool)
  /-- `posal_channel_addq`. -/
  | addq (c : ℕ) (unBitMask : BitVec 32)

/-- The answer to a call: the result and the element popped.  The result of
`posal_channel_addq` is about the channel and not about the sequence. -/
abbrev QueueAnswer (E : Type) := Option (ArResult × Option E)

namespace Deque

/-- A new, empty queue. -/
def init (attr : QueueInitAttr) : Deque E :=
  { capacity := attr.maxNodes.toNat
    places := attr.preallocNodes.toNat
    elems := []
    signalling := true }

/-- Add an element, so that the elements are then `elems`.  A full queue refuses it, and so
does one that needs more storage and does not get it. -/
def push (d : Deque E) (elems : List E) (allocated : Bool) : QueueAnswer E × Deque E :=
  if d.elems.length = d.capacity then (some (.eneedmore, none), d)
  else if d.elems.length < d.places then (some (.eok, none), { d with elems := elems })
  else if allocated then
    (some (.eok, none), { d with places := d.places + 1, elems := elems })
  else (some (.enomemory, none), d)

/-- What a call does to the sequence. -/
def call (d : Deque E) : QueueCall E → QueueAnswer E × Deque E
  | .pushBack payload allocated => d.push (d.elems ++ [payload]) allocated
  | .insertFront payload allocated => d.push (payload :: d.elems) allocated
  | .popFront =>
    match d.elems with
    | [] => (some (.eneedmore, none), d)
    | x :: rest => (some (.eok, some x), { d with elems := rest })
  | .popBack =>
    match d.elems.getLast? with
    | none => (some (.eneedmore, none), d)
    | some x => (some (.eok, some x), { d with elems := d.elems.dropLast })
  | .enableDisableSignaling isEnable => (some (.eok, none), { d with signalling := isEnable })
  | .addq _ _ => (none, d)

end Deque

/-! ## The queue as a component -/

namespace QueueWorld

/-- What a call does to the queue. -/
def call (w : QueueWorld E) : QueueCall E → QueueAnswer E × QueueWorld E
  | .pushBack payload allocated =>
    (some ((w.pushBack payload allocated).1, none), (w.pushBack payload allocated).2)
  | .insertFront payload allocated =>
    (some ((w.insertFront payload allocated).1, none), (w.insertFront payload allocated).2)
  | .popFront => (some w.popFront.1, w.popFront.2)
  | .popBack => (some w.popBack.1, w.popBack.2)
  | .enableDisableSignaling isEnable =>
    (some (.eok, none), w.enableDisableSignaling isEnable)
  | .addq c unBitMask => (none, (w.addq c unBitMask).2)

/-- The call does not take a queue that signals off one of the upper 24 positions. -/
def KeepsSignal (w : QueueWorld E) : QueueCall E → Prop
  | .addq c unBitMask =>
    ((w.channels c).checkBitMask unBitMask).isOk → 0 < w.queue.activeNodes →
      w.queue.disableSignaling = false → w.queue.channelBit.toNat < 256
  | _ => True

end QueueWorld

namespace QueueWorld

lemma finishPush_nodes (w : QueueWorld E) (c : ℕ) : (w.finishPush c).nodes = w.nodes := by
  unfold finishPush
  split <;> rfl

lemma finishPush_queue (w : QueueWorld E) (c : ℕ) : (w.finishPush c).queue =
    { w.queue with activeNodes := toInt16 (w.queue.activeNodes + 1) } := by
  unfold finishPush
  split <;> rfl

lemma finishPush_signal {w : QueueWorld E} {c i : ℕ} (h : OnChannel w c i) :
    OnChannel (w.finishPush c) c i ∧
      ((w.finishPush c).poll ≠ 0 ↔ w.queue.disableSignaling = false ∨ w.poll ≠ 0) := by
  have hcount : OnChannel w.countPush c i := h.congr rfl rfl rfl
  unfold finishPush
  cases hdis : w.queue.disableSignaling with
  | false =>
    obtain ⟨hon, hset⟩ := hcount.signalSet
    exact ⟨hon, iff_of_true hset (Or.inl rfl)⟩
  | true =>
    have hpoll : w.countPush.poll = w.poll := OnChannel.poll_congr rfl rfl rfl
    exact ⟨hcount, by simp [hpoll]⟩

end QueueWorld

/-- A call made to the queue and to the deque. -/
def lockstep (p : QueueWorld E × Deque E) (a : QueueCall E) : QueueWorld E × Deque E :=
  (after QueueWorld.call p.1 a, after Deque.call p.2 a)

/-- The memory of the queue stores the deque in the nodes `active`. -/
structure Stores (w : QueueWorld E) (d : Deque E) (active idle : List Addr) : Prop where
  shape : Shape w.queue w.nodes active idle
  activeNodes : w.queue.activeNodes = active.length
  elems : active.map w.nodes.elem = d.elems
  maxNodes : w.queue.maxNodes = d.capacity
  places : d.places = (active ++ idle).length
  le : (active ++ idle).length ≤ d.capacity
  disableSignaling : w.queue.disableSignaling = !d.signalling

/-- The bit of the queue is raised exactly when there is something to pop and the signal is
switched on. -/
def Signals (w : QueueWorld E) (d : Deque E) : Prop :=
  w.poll ≠ 0 ↔ d.elems ≠ [] ∧ d.signalling = true

/-- **What the queue is.** Its memory stores the deque, in the part of one ring that begins at
the head and ends at the tail, and its bit tells whether there is something to pop. -/
def Faithful (w : QueueWorld E) (d : Deque E) : Prop :=
  (∃ active idle, Stores w d active idle) ∧ Signals w d

namespace Stores

variable {w : QueueWorld E} {d : Deque E} {active idle : List Addr}

lemma length_elems (h : Stores w d active idle) : d.elems.length = active.length := by
  rw [← h.elems, length_map]

lemma full_iff (h : Stores w d active idle) :
    w.queue.activeNodes = w.queue.maxNodes ↔ d.elems.length = d.capacity := by
  rw [h.activeNodes, h.maxNodes, h.length_elems, Int.natCast_inj]

lemma congr {w' : QueueWorld E} (h : Stores w d active idle) (hnodes : w'.nodes = w.nodes)
    (hqueue : w'.queue = { w.queue with
      channelPtr := w'.queue.channelPtr, channelBit := w'.queue.channelBit }) :
    Stores w' d active idle := by
  obtain ⟨queue', nodes', channels'⟩ := w'
  simp only at hnodes hqueue
  subst hnodes
  rw [hqueue]
  obtain ⟨hshape, hactive, helems, hmax, hplaces, hle, hdis⟩ := h
  obtain ⟨hring, hold, hhead, htail, hnum⟩ := hshape
  exact ⟨⟨hring, hold, hhead, htail, hnum⟩, hactive, helems, hmax, hplaces, hle, hdis⟩

/-! ## Pushing -/

lemma map_update_of_notMem {l : List Addr} {n : Addr} (hn : n ∉ l) (f : Addr → E) (x : E) :
    l.map (Function.update f n x) = l.map f := by
  apply map_congr_left
  intro m hm
  exact Function.update_of_ne (ne_of_mem_of_not_mem hm hn) x f

/-- A node was found for the payload: it holds the payload now, and is counted. -/
lemma pushed {w' : QueueWorld E} {active' idle' : List Addr} {slot : Addr} {payload : E}
    {elems : List E} (h : Stores w d active idle) (hfits : d.capacity ≤ 32767)
    (hroom : active.length < d.capacity) (hplaced : Placed w w')
    (hshape : Shape w'.queue w'.nodes active' idle') (hactive : active'.length = active.length + 1)
    (hidle : idle'.length = idle.length - 1)
    (helems : active'.map (Function.update w.nodes.elem slot payload) = elems) (c : ℕ) :
    Stores ({ w' with nodes := w'.nodes.setElem slot payload }.finishPush c)
      { d with places := (active' ++ idle').length, elems := elems } active' idle' := by
  have hle := h.le
  have hcount : toInt16 (w'.queue.activeNodes + 1) = active'.length := by
    rw [hplaced.queue, h.activeNodes, hactive]
    exact toInt16_of_le (by omega) (by omega)
  obtain ⟨hring, hold, hhead, htail, hnum⟩ := hshape
  refine Stores.congr (w := { w' with
      nodes := w'.nodes.setElem slot payload
      queue := { w'.queue with activeNodes := toInt16 (w'.queue.activeNodes + 1) } }) ?_ ?_ ?_
  · refine ⟨⟨hring, hold, hhead, htail, hnum⟩, hcount, ?_, ?_, rfl, ?_, ?_⟩
    · simpa [QueueNodes.setElem, hplaced.elem] using helems
    · rw [hplaced.queue]
      exact h.maxNodes
    · simp only [length_append] at hle ⊢
      omega
    · rw [hplaced.queue]
      exact h.disableSignaling
  · exact QueueWorld.finishPush_nodes _ c
  · rw [QueueWorld.finishPush_queue]

variable {c : ℕ}

section

variable (h : Stores w d active idle) (hfits : d.capacity ≤ 32767)
  (hptr : w.queue.channelPtr = some c)
include h hfits hptr

/-- What a push does to the memory, for the place at either end. -/
lemma pushAt {place : Option (QueueWorld E)} {slot : PosalQueue → Addr} {payload : E}
    {elems : List E} {allocated : Bool} (hnone : place = none ↔ idle = [] ∧ allocated = false)
    (hplaced : ∀ w', place = some w' → Placed w w')
    (hsome : active.length < 32767 → ∀ w', place = some w' →
      ∃ active' idle', Shape w'.queue w'.nodes active' idle' ∧
      active'.length = active.length + 1 ∧ idle'.length = idle.length - 1 ∧
      active'.map (Function.update w.nodes.elem (slot w'.queue) payload) = elems)
    :
    some ((w.pushAt place slot payload).1, none) = (d.push elems allocated).1 ∧ ∃ active' idle',
        Stores (w.pushAt place slot payload).2 (d.push elems allocated).2 active' idle' := by
  have hlen := h.length_elems
  have hplaces := h.places
  have hle := h.le
  unfold QueueWorld.pushAt Deque.push
  rw [hptr]
  simp only [h.full_iff, length_append] at hplaces hle ⊢
  by_cases hfull : d.elems.length = d.capacity
  · rw [if_pos hfull, if_pos hfull]
    exact ⟨rfl, active, idle, h⟩
  · rw [if_neg hfull, if_neg hfull]
    cases hplace : place with
    | none =>
      obtain ⟨rfl, rfl⟩ := hnone.mp hplace
      rw [length_nil] at hplaces
      rw [if_neg (by omega)]
      exact ⟨rfl, active, [], h⟩
    | some w' =>
      have hroom : active.length < d.capacity := by omega
      obtain ⟨active', idle', hshape, hactive, hidle, helems⟩ := hsome (by omega) w' hplace
      have hpushed := h.pushed hfits hroom (hplaced w' hplace) hshape hactive hidle helems c
      by_cases hidleNil : idle = []
      · have halloc : allocated = true := by
          by_contra hfalse
          rw [hnone.mpr ⟨hidleNil, by simpa using hfalse⟩] at hplace
          cases hplace
        have hzero : idle.length = 0 := by rw [hidleNil, length_nil]
        rw [if_neg (by omega), if_pos halloc]
        have hnew : (active' ++ idle').length = d.places + 1 := by
          rw [length_append]
          omega
        rw [hnew] at hpushed
        exact ⟨rfl, active', idle', hpushed⟩
      · have hpos := length_pos_of_ne_nil hidleNil
        rw [if_pos (by omega)]
        have hnew : (active' ++ idle').length = d.places := by
          rw [length_append]
          omega
        rw [hnew] at hpushed
        exact ⟨rfl, active', idle', hpushed⟩

/-- `posal_queue_push_back` stores the payload after the others. -/
lemma pushBack (payload : E) (allocated : Bool) : some ((w.pushBack payload allocated).1, none) =
        (d.call (.pushBack payload allocated)).1 ∧
      ∃ active' idle', Stores (w.pushBack payload allocated).2
        (d.call (.pushBack payload allocated)).2 active' idle' := by
  apply h.pushAt hfits hptr (h.shape.placeBack_eq_none_iff h.activeNodes)
    (fun _ => QueueWorld.placeBack_placed)
  intro hroom w' hplace
  obtain ⟨node, idle', hshape, hidle⟩ := h.shape.placeBack h.activeNodes hroom hplace
  refine ⟨active ++ [node], idle', hshape, by simp, hidle, ?_⟩
  have hnode : node ∉ active := by
    have hnodup := (nodup_append.mp hshape.isRing.nodup).1
    exact fun hmem => (nodup_append.mp hnodup).2.2 node hmem node (by simp) rfl
  have hslot : w'.queue.activeTailPtr = node := by
    apply hshape.tail
    rw [getLast?_concat]
    rfl
  rw [hslot, map_append, map_update_of_notMem hnode, h.elems]
  simp

/-- `posal_queue_insert_front` stores the payload before the others. -/
lemma insertFront (payload : E) (allocated : Bool) :
    some ((w.insertFront payload allocated).1, none) = (d.call (.insertFront payload allocated)).1 ∧
      ∃ active' idle', Stores (w.insertFront payload allocated).2
        (d.call (.insertFront payload allocated)).2 active' idle' := by
  apply h.pushAt hfits hptr (h.shape.placeFront_eq_none_iff h.activeNodes)
    (fun _ => QueueWorld.placeFront_placed)
  intro hroom w' hplace
  obtain ⟨node, idle', hshape, hidle⟩ := h.shape.placeFront h.activeNodes hroom hplace
  refine ⟨node :: active, idle', hshape, by simp, hidle, ?_⟩
  have hnode : node ∉ active :=
    (nodup_cons.mp (nodup_append.mp hshape.isRing.nodup).1).1
  have hslot : w'.queue.activeHeadPtr = node := hshape.head node (by simp)
  rw [hslot, map_cons, map_update_of_notMem hnode, h.elems]
  simp

end

/-! ## Popping -/

/-- What a pop does to the memory, at either end: the nodes `active'` are left. -/
lemma popAt (slot : Addr) {head tail : Addr} {active' idle' : List Addr}
    (h : Stores w d active idle) (hfits : d.capacity ≤ 32767)
    (hptr : w.queue.channelPtr = some c) (hlen : active.length = active'.length + 1)
    (htotal : (active' ++ idle').length = (active ++ idle).length)
    (hstop : active' = [] → Shape w.queue w.nodes active' idle')
    (hretreat : active' ≠ [] → Shape { w.queue with activeHeadPtr := head, activeTailPtr := tail }
      w.nodes active' idle') :
    (w.popAt slot head tail).1 = (.eok, some (w.nodes.elem slot)) ∧
      Stores (w.popAt slot head tail).2 { d with elems := active'.map w.nodes.elem }
        active' idle' := by
  have hle := h.le
  have hplaces : d.places = (active' ++ idle').length := by rw [htotal, h.places]
  have hnew : w.countPop.queue.activeNodes = active'.length := by
    change toInt16 (w.queue.activeNodes - 1) = _
    rw [h.activeNodes, hlen]
    simp only [length_append] at hle
    push_cast
    rw [Int.add_sub_cancel]
    exact toInt16_of_le (by omega) (by omega)
  unfold QueueWorld.popAt
  rw [hptr]
  simp only
  rw [if_neg (by rw [h.activeNodes]; omega)]
  by_cases hnil : active' = []
  · rw [if_pos (by rw [hnew, hnil]; rfl)]
    obtain ⟨hring, hold, hhead, htail, hnum⟩ := hstop hnil
    exact ⟨rfl, ⟨hring, hold, hhead, htail, hnum⟩, hnew, rfl, h.maxNodes, hplaces, htotal ▸ hle,
      h.disableSignaling⟩
  · rw [if_neg (fun hzero => hnil (by simpa using hnew.symm.trans hzero))]
    obtain ⟨hring, hold, hhead, htail, hnum⟩ := hretreat hnil
    exact ⟨rfl, ⟨hring, hold, hhead, htail, hnum⟩, hnew, rfl, h.maxNodes, hplaces, htotal ▸ hle,
      h.disableSignaling⟩

lemma popAt_nil {slot head tail : Addr} (h : Stores w d [] idle)
    (hptr : w.queue.channelPtr = some c) :
    w.popAt slot head tail = ((.eneedmore, none), w) := by
  unfold QueueWorld.popAt
  rw [hptr]
  simp [h.activeNodes]

/-- `posal_queue_pop_front` takes the first node out of use. -/
lemma popFront_cons {a : Addr} {t : List Addr} (h : Stores w d (a :: t) idle)
    (hfits : d.capacity ≤ 32767) (hptr : w.queue.channelPtr = some c) :
    w.popFront.1 = (.eok, some (w.nodes.elem a)) ∧
      ∃ idle', Stores w.popFront.2 { d with elems := t.map w.nodes.elem } t idle' := by
  have hhead : w.queue.activeHeadPtr = a := h.shape.head a (by simp)
  unfold QueueWorld.popFront
  cases t with
  | nil =>
    obtain ⟨hresult, hstores⟩ := h.popAt w.queue.activeHeadPtr hfits hptr rfl rfl
      (fun _ => h.shape.stop) (fun hne => absurd rfl hne)
    exact ⟨by rw [hresult, hhead], a :: idle, hstores⟩
  | cons b t =>
    obtain ⟨hresult, hstores⟩ := h.popAt w.queue.activeHeadPtr hfits hptr rfl
      (by simp only [length_append, length_cons, length_nil]; omega)
      (fun hnil => absurd hnil (cons_ne_nil b t)) (fun _ => h.shape.retreat_head)
    exact ⟨by rw [hresult, hhead], idle ++ [a], hstores⟩

section

variable (h : Stores w d active idle) (hfits : d.capacity ≤ 32767)
  (hptr : w.queue.channelPtr = some c)
include h hfits hptr

/-- `posal_queue_pop_front` takes the first element. -/
lemma popFront : some w.popFront.1 = (d.call .popFront).1 ∧
      ∃ active' idle', Stores w.popFront.2 (d.call .popFront).2 active' idle' := by
  have helems := h.elems
  cases active with
  | nil =>
    have hnil : d.elems = [] := by simpa using helems.symm
    unfold QueueWorld.popFront
    rw [h.popAt_nil hptr, Deque.call, hnil]
    exact ⟨rfl, [], idle, h⟩
  | cons a t =>
    have hcons : d.elems = w.nodes.elem a :: t.map w.nodes.elem := by simpa using helems.symm
    obtain ⟨hresult, idle', hstores⟩ := h.popFront_cons hfits hptr
    rw [Deque.call, hcons, hresult]
    exact ⟨rfl, t, idle', hstores⟩

/-- `posal_queue_pop_back` takes the last element. -/
lemma popBack : some w.popBack.1 = (d.call .popBack).1 ∧
      ∃ active' idle', Stores w.popBack.2 (d.call .popBack).2 active' idle' := by
  have helems := h.elems
  unfold QueueWorld.popBack
  obtain rfl | ⟨s, z, rfl⟩ := eq_nil_or_concat' active
  · have hnil : d.elems = [] := by simpa using helems.symm
    rw [h.popAt_nil hptr, Deque.call, hnil]
    exact ⟨rfl, [], idle, h⟩
  · have hlast : d.elems = s.map w.nodes.elem ++ [w.nodes.elem z] := by simpa using helems.symm
    have htail : w.queue.activeTailPtr = z := by
      apply h.shape.tail
      rw [getLast?_concat]
      rfl
    rw [Deque.call, hlast, getLast?_concat, dropLast_concat]
    have htotal : (s ++ z :: idle).length = (s ++ [z] ++ idle).length := by simp
    obtain rfl | ⟨s, y, rfl⟩ := eq_nil_or_concat' s
    · obtain ⟨hresult, hstores⟩ := h.popAt w.queue.activeTailPtr hfits hptr rfl htotal
        (fun _ => h.shape.stop) (fun hne => absurd rfl hne)
      exact ⟨by rw [hresult, htail], [], z :: idle, hstores⟩
    · obtain ⟨hresult, hstores⟩ := h.popAt w.queue.activeTailPtr hfits hptr (by simp) htotal
        (fun hnil => absurd hnil (by simp)) (fun _ => h.shape.retreat_tail)
      exact ⟨by rw [hresult, htail], s ++ [y], z :: idle, hstores⟩

end

/-! ## The switch and the channel -/

/-- `posal_queue_enable_disable_signaling` sets the switch. -/
lemma enableDisableSignaling (h : Stores w d active idle) (isEnable : Bool) :
    Stores (w.enableDisableSignaling isEnable) { d with signalling := isEnable } active idle := by
  have hset : Stores (w.setSignaling isEnable) { d with signalling := isEnable } active idle := by
    obtain ⟨⟨hring, hold, hhead, htail, hnum⟩, hactive, helems, hmax, hplaces, hle, hdis⟩ := h
    exact ⟨⟨hring, hold, hhead, htail, hnum⟩, hactive, helems, hmax, hplaces, hle, rfl⟩
  unfold QueueWorld.enableDisableSignaling
  split
  · exact hset
  · split
    · exact hset.congr rfl rfl
    · split
      · exact hset.congr rfl rfl
      · exact hset

/-- `posal_channel_addq` changes nothing that is stored. -/
lemma addq (h : Stores w d active idle) (c : ℕ) (unBitMask : BitVec 32) :
    Stores (w.addq c unBitMask).2 d active idle := by
  obtain ⟨hnodes, hqueue⟩ := w.addq_queue c unBitMask
  exact h.congr hnodes hqueue

end Stores

end AudioReach
