import Mathlib.Data.Int.DivMod
import Mathlib.Logic.Function.Basic
import AudioReach.ArResult

/-!
# The queue and the channels of `posal`

The queue of `posal_queue.c` and `posal_queue_island.c` keeps its elements in a circular doubly
linked list of nodes.  The nodes in use run from `active_head_ptr` to `active_tail_ptr`, and the
others are kept between the tail and the head for later pushes.  A queue belongs to a channel of
`posal_channel.c` and raises one bit of it while there is something to pop.

A node is an address, and the fields of the nodes are three tables indexed by it.  Addresses are
handed out in order and the null pointer is `0`.  The counters of the queue are 16-bit signed
integers.  The node allocator is `posal_bufpool` or `malloc`; each call says whether it succeeds.
The mutex of the queue is held throughout each operation, so an operation is one step.
-/

namespace AudioReach

/-- The conversion to `int16_t`. -/
def toInt16 (z : ℤ) : ℤ := z.bmod 65536

/-- The conversion of a word to `bool_t`, which is `unsigned char`, as a condition sees it. -/
def toBoolT (x : BitVec 32) : Bool := x.setWidth 8 != 0#8

/-- The fields of all nodes `posal_queue_element_list_t`. -/
structure QueueNodes (E : Type) where
  /-- `elem`, two words that the queue copies and never reads. -/
  elem : Addr → E
  nextPtr : Addr → Addr
  prevPtr : Addr → Addr
  fresh : Addr

/-- The fields of `posal_queue_internal_t`. -/
structure PosalQueue where
  channelPtr : Option ℕ
  activeHeadPtr : Addr
  activeTailPtr : Addr
  /-- `channel_bit`, a mask. -/
  channelBit : BitVec 32
  /-- `active_nodes`, the number of nodes in use. -/
  activeNodes : ℤ
  numNodes : ℤ
  maxNodes : ℤ
  disableSignaling : Bool

/-- The fields of `posal_channel_internal_t`. -/
structure PosalChannel where
  unBitsUsedMask : BitVec 32
  /-- The bits raised in `anysig`. -/
  anysig : BitVec 32

/-- A queue, the memory of its nodes, and the channels it may be added to. -/
structure QueueWorld (E : Type) where
  queue : PosalQueue
  nodes : QueueNodes E
  channels : ℕ → PosalChannel

/-- The numbers of `posal_queue_init_attr_t`. -/
structure QueueInitAttr where
  /-- `max_nodes`, an `int32_t`. -/
  maxNodes : ℤ
  /-- `prealloc_nodes`, an `int32_t`. -/
  preallocNodes : ℤ

namespace QueueNodes

variable {E : Type}

/-- `node_ptr->next_ptr = p`. -/
def setNext (m : QueueNodes E) (n p : Addr) : QueueNodes E :=
  { m with nextPtr := Function.update m.nextPtr n p }

/-- `node_ptr->prev_ptr = p`. -/
def setPrev (m : QueueNodes E) (n p : Addr) : QueueNodes E :=
  { m with prevPtr := Function.update m.prevPtr n p }

/-- `node_ptr->elem = *payload_ptr`. -/
def setElem (m : QueueNodes E) (n : Addr) (payload : E) : QueueNodes E :=
  { m with elem := Function.update m.elem n payload }

/-- A node that is its own neighbour on both sides. -/
def linkSelf (m : QueueNodes E) (node : Addr) : QueueNodes E :=
  (m.setPrev node node).setNext node node

/-- Link a node in after the tail. -/
def linkAfter (m : QueueNodes E) (tail node : Addr) : QueueNodes E :=
  let m := m.setPrev node tail
  let m := m.setNext node (m.nextPtr tail)
  let m := m.setPrev (m.nextPtr tail) node
  m.setNext tail node

/-- Link a node in before the head. -/
def linkBefore (m : QueueNodes E) (head node : Addr) : QueueNodes E :=
  let m := m.setNext node head
  let m := m.setPrev node (m.prevPtr head)
  let m := m.setNext (m.prevPtr head) node
  m.setPrev head node

/-- `posal_queue_create_node`: the new node, unless the allocation fails. -/
def createNode (m : QueueNodes E) (allocated : Bool) : Option (Addr × QueueNodes E) :=
  if allocated then some (m.fresh, { m with fresh := m.fresh + 1 }) else none

end QueueNodes

namespace PosalChannel

/-- `posal_signal_set_target_inline`. -/
def signalSet (ch : PosalChannel) (mask : BitVec 32) : PosalChannel :=
  { ch with anysig := ch.anysig ||| mask }

/-- `posal_signal_clear_with_bitmask_target_inline`. -/
def signalClear (ch : PosalChannel) (mask : BitVec 32) : PosalChannel :=
  { ch with anysig := ch.anysig &&& ~~~mask }

/-- `posal_channel_poll_inline`. -/
def poll (ch : PosalChannel) (enableBitfield : BitVec 32) : BitVec 32 :=
  enableBitfield &&& ch.anysig

/-- `s32_cl1_s32`: the number of leading ones, counted from `cnt` on in at most `rounds`
rounds. -/
def cl1 (x : BitVec 32) : ℕ → ℕ → ℕ
  | 0, cnt => cnt
  | rounds + 1, cnt => if x.getLsbD (31 - cnt) then cl1 x rounds (cnt + 1) else cnt

/-- `posal_channel_check_bit_mask`: the bit that a queue may take. -/
def checkBitMask (ch : PosalChannel) (mask : BitVec 32) : Except ArResult (BitVec 32) :=
  if ch.unBitsUsedMask = BitVec.allOnes 32 then .error .eneedmore
  else if mask ≠ 0 ∧ (mask &&& (mask - 1) ≠ 0 ∨ mask &&& ch.unBitsUsedMask ≠ 0) then
    .error .ebadparam
  else if mask = 0 then .ok (BitVec.twoPow 32 (31 - cl1 ch.unBitsUsedMask 32 0))
  else .ok mask

end PosalChannel

namespace QueueWorld

variable {E : Type}

/-- Apply a change to one channel. -/
def updateChannel (w : QueueWorld E) (c : ℕ) (f : PosalChannel → PosalChannel) : QueueWorld E :=
  { w with channels := Function.update w.channels c (f (w.channels c)) }

/-! ## Creation -/

/-- Put a new node into the ring after the tail, without moving the tail, and count it. -/
def addIdleNode (w : QueueWorld E) (node : Addr) (m : QueueNodes E) : QueueWorld E :=
  if w.queue.numNodes = 0 then
    { w with
      nodes := m.linkSelf node
      queue := { w.queue with
        activeHeadPtr := node
        activeTailPtr := node
        numNodes := toInt16 (w.queue.numNodes + 1) } }
  else
    { w with
      nodes := m.linkAfter w.queue.activeTailPtr node
      queue := { w.queue with numNodes := toInt16 (w.queue.numNodes + 1) } }

/-- The loop of `posal_queue_free_all_nodes`, for `count` rounds. -/
def freeNodes : ℕ → QueueWorld E → QueueWorld E
  | 0, w => w
  | count + 1, w =>
    freeNodes count { w with queue := { w.queue with
      activeHeadPtr := w.nodes.nextPtr w.queue.activeHeadPtr
      numNodes := w.queue.numNodes - 1 } }

/-- `posal_queue_free_all_nodes`.  What is released is not handed out again. -/
def freeAllNodes (w : QueueWorld E) : QueueWorld E :=
  let w := freeNodes w.queue.numNodes.toNat w
  { w with queue := { w.queue with activeNodes := 0, activeHeadPtr := 0, activeTailPtr := 0 } }

/-- The loop of `posal_queue_create_prealloc_nodes` with `count` nodes left to allocate;
`allocated` tells for each count whether the allocation succeeds. -/
def createPreallocNodes (allocated : ℕ → Bool) : ℕ → QueueWorld E → ArResult × QueueWorld E
  | 0, w => (.eok, w)
  | count + 1, w =>
    match w.nodes.createNode (allocated (count + 1)) with
    | none => (.enomemory, w.freeAllNodes)
    | some (node, m) => createPreallocNodes allocated count (w.addIdleNode node m)

/-- `posal_queue_init`. -/
def init (w : QueueWorld E) (attr : QueueInitAttr) (allocated : ℕ → Bool) :
    ArResult × QueueWorld E :=
  if 0 ≥ attr.maxNodes then (.ebadparam, w)
  else if attr.preallocNodes > attr.maxNodes then (.ebadparam, w)
  else
    let w := { w with queue := {
      channelPtr := none
      activeHeadPtr := 0
      activeTailPtr := 0
      channelBit := 0
      activeNodes := 0
      numNodes := 0
      maxNodes := toInt16 attr.maxNodes
      disableSignaling := false } }
    if 0 = attr.preallocNodes then (.eok, w)
    else if 0 > attr.preallocNodes then (.ebadparam, w)
    else createPreallocNodes allocated attr.preallocNodes.toNat w

/-! ## The operations -/

/-- The part of `posal_channel_addq` that takes the queue off its old channel: whether its
signal was set there, as the source keeps it in a `bool_t`, and the state with the signal
cleared and the bit released. -/
def leaveChannel (w : QueueWorld E) : Bool × QueueWorld E :=
  match w.queue.channelPtr with
  | none => (false, w)
  | some old =>
    (toBoolT ((w.channels old).poll w.queue.channelBit), w.updateChannel old fun ch =>
        { ch.signalClear w.queue.channelBit with
          unBitsUsedMask := ch.unBitsUsedMask ^^^ w.queue.channelBit })

/-- The part of `posal_channel_addq` that takes a bit of the new channel. -/
def joinChannel (w : QueueWorld E) (c : ℕ) (mask : BitVec 32) : QueueWorld E :=
  { w with queue := { w.queue with channelPtr := some c, channelBit := mask } }.updateChannel c
    fun ch => { ch with unBitsUsedMask := ch.unBitsUsedMask ||| mask }

/-- `posal_channel_addq`: a residual signal of the new bit is cleared first, and the signal
that was set on the old channel is set on the new one last. -/
def addq (w : QueueWorld E) (c : ℕ) (unBitMask : BitVec 32) : ArResult × QueueWorld E :=
  match (w.channels c).checkBitMask unBitMask with
  | .error result => (result, w)
  | .ok mask =>
    let left := (w.updateChannel c (·.signalClear mask)).leaveChannel
    let w := left.2.joinChannel c mask
    (.eok, if left.1 then w.updateChannel c (·.signalSet mask) else w)

/-- `queue_ptr->active_nodes++`. -/
def countPush (w : QueueWorld E) : QueueWorld E :=
  { w with queue := { w.queue with activeNodes := toInt16 (w.queue.activeNodes + 1) } }

/-- The end of a push: the payload is in place, count it and send the signal. -/
def finishPush (w : QueueWorld E) (c : ℕ) : QueueWorld E :=
  if !w.queue.disableSignaling then
    w.countPush.updateChannel c (·.signalSet w.queue.channelBit)
  else w.countPush

/-- The place for a push at the back: a new node after the tail if all nodes are in use, else
the node after the tail, or the tail itself in an empty queue. -/
def placeBack (w : QueueWorld E) (allocated : Bool) : Option (QueueWorld E) :=
  if w.queue.activeNodes = w.queue.numNodes then
    match w.nodes.createNode allocated with
    | none => none
    | some (node, m) =>
      let w' := w.addIdleNode node m
      some { w' with queue := { w'.queue with activeTailPtr := node } }
  else if 0 < w.queue.activeNodes then
    some { w with queue := { w.queue with
      activeTailPtr := w.nodes.nextPtr w.queue.activeTailPtr } }
  else some w

/-- The place for a push at the front: a new node before the head if all nodes are in use, else
the node before the head, or the head itself in an empty queue. -/
def placeFront (w : QueueWorld E) (allocated : Bool) : Option (QueueWorld E) :=
  if w.queue.activeNodes = w.queue.numNodes then
    match w.nodes.createNode allocated with
    | none => none
    | some (node, m) =>
      if w.queue.numNodes = 0 then
        some { w with
          nodes := m.linkSelf node
          queue := { w.queue with
            activeHeadPtr := node
            activeTailPtr := node
            numNodes := toInt16 (w.queue.numNodes + 1) } }
      else
        some { w with
          nodes := m.linkBefore w.queue.activeHeadPtr node
          queue := { w.queue with
            activeHeadPtr := node
            numNodes := toInt16 (w.queue.numNodes + 1) } }
  else if 0 < w.queue.activeNodes then
    some { w with queue := { w.queue with
      activeHeadPtr := w.nodes.prevPtr w.queue.activeHeadPtr } }
  else some w

/-- The body that `posal_queue_push_back` and `posal_queue_insert_front` share: `place` is the
state in which `slot` points at the node for the payload, unless the allocation failed. -/
def pushAt (w : QueueWorld E) (place : Option (QueueWorld E)) (slot : PosalQueue → Addr)
    (payload : E) : ArResult × QueueWorld E :=
  match w.queue.channelPtr with
  | none => (.ebadparam, w)
  | some c =>
    if w.queue.activeNodes = w.queue.maxNodes then (.eneedmore, w)
    else
      match place with
      | none => (.enomemory, w)
      | some w => (.eok, { w with nodes := w.nodes.setElem (slot w.queue) payload }.finishPush c)

/-- `posal_queue_push_back`. -/
def pushBack (w : QueueWorld E) (payload : E) (allocated : Bool) : ArResult × QueueWorld E :=
  w.pushAt (w.placeBack allocated) (·.activeTailPtr) payload

/-- `posal_queue_insert_front`. -/
def insertFront (w : QueueWorld E) (payload : E) (allocated : Bool) : ArResult × QueueWorld E :=
  w.pushAt (w.placeFront allocated) (·.activeHeadPtr) payload

/-- `queue_ptr->active_nodes--`. -/
def countPop (w : QueueWorld E) : QueueWorld E :=
  { w with queue := { w.queue with activeNodes := toInt16 (w.queue.activeNodes - 1) } }

/-- Set both ends of the queue. -/
def setEnds (w : QueueWorld E) (head tail : Addr) : QueueWorld E :=
  { w with queue := { w.queue with activeHeadPtr := head, activeTailPtr := tail } }

/-- The body that `posal_queue_pop_front` and `posal_queue_pop_back` share: the payload is read
at `slot`, and the ends of the queue become `head` and `tail` if there is still a node for them
to point to. -/
def popAt (w : QueueWorld E) (slot head tail : Addr) : (ArResult × Option E) × QueueWorld E :=
  match w.queue.channelPtr with
  | none => ((.ebadparam, none), w)
  | some c =>
    if w.queue.activeNodes = 0 then ((.eneedmore, none), w)
    else if w.countPop.queue.activeNodes = 0 then
      ((.eok, some (w.nodes.elem slot)),
        w.countPop.updateChannel c (·.signalClear w.queue.channelBit))
    else ((.eok, some (w.nodes.elem slot)), w.countPop.setEnds head tail)

/-- `posal_queue_pop_front`: the result and `*payload_ptr`, when it is written. -/
def popFront (w : QueueWorld E) : (ArResult × Option E) × QueueWorld E :=
  w.popAt w.queue.activeHeadPtr (w.nodes.nextPtr w.queue.activeHeadPtr) w.queue.activeTailPtr

/-- `posal_queue_pop_back`: the result and `*payload_ptr`, when it is written. -/
def popBack (w : QueueWorld E) : (ArResult × Option E) × QueueWorld E :=
  w.popAt w.queue.activeTailPtr w.queue.activeHeadPtr (w.nodes.prevPtr w.queue.activeTailPtr)

/-- `queue_ptr->disable_signaling = is_enable ? FALSE : TRUE`. -/
def setSignaling (w : QueueWorld E) (isEnable : Bool) : QueueWorld E :=
  { w with queue := { w.queue with disableSignaling := !isEnable } }

/-- `posal_queue_enable_disable_signaling`.  The source reads the channel without a test. -/
def enableDisableSignaling (w : QueueWorld E) (isEnable : Bool) : QueueWorld E :=
  match w.queue.channelPtr with
  | none => w.setSignaling isEnable
  | some c =>
    if (w.setSignaling isEnable).queue.disableSignaling then
      (w.setSignaling isEnable).updateChannel c (·.signalClear w.queue.channelBit)
    else if w.queue.activeNodes > 0 then
      (w.setSignaling isEnable).updateChannel c (·.signalSet w.queue.channelBit)
    else w.setSignaling isEnable

/-- `posal_queue_poll`: the bit of the queue, if it is raised. -/
def poll (w : QueueWorld E) : BitVec 32 :=
  match w.queue.channelPtr with
  | none => 0
  | some c => (w.channels c).poll w.queue.channelBit

end QueueWorld

end AudioReach
