import Mathlib.Data.List.Basic
import AudioReach.ArResult

/-!
# The buffer manager of a topology

The manager hands out buffers for the ports of a container and keeps the buffers that come
back in a list sorted by size.  Each buffer is one block of the heap: a
`topo_buf_manager_element_t`, whose first member is the list node, and behind it the bytes of
the buffer.  The manager of `gen_topo_buf_util_island.c` and `topo_buf_mgr.c` is followed with
its counters, its pointers to both ends of the list and its links; a buffer that is out keeps
the links it had.

The list of blocks that the heap has given out is recorded with the number of bytes that were
asked for.  A loop over the list takes a bound on its rounds, which is the number of blocks;
`none` is a loop that goes on after as many rounds.
-/

namespace AudioReach

open Function (update)

/-- `topo_buf_manager_element_t`: the list node and what the manager knows of the buffer. -/
structure TopoBufElement where
  objPtr : Addr
  nextPtr : Option Addr
  prevPtr : Option Addr
  refCount : UInt16
  /-- How many rounds of ageing the buffer was not used. -/
  unusedCount : UInt16
  size : UInt32
  deriving DecidableEq

/-- `TBF_BUF_PTR_OFFSET` and `TBF_EXTRA_ALLOCATION`: the size of an element, a multiple of 8. -/
def tbfBufPtrOffset : ℕ := 32

/-- `MAX_BUF_UNUSED_COUNT`. -/
def maxBufUnusedCount : UInt16 := 10

/-- `TBF_UNUSED_BUFFER_CALL_INTERVAL_US`: 100 ms. -/
def tbfUnusedBufferCallIntervalUs : UInt64 := 100000

/-- `topo_buf_manager_t`, with the memory of the elements and the blocks of the heap. -/
structure TopoBufMgr where
  elems : Addr → TopoBufElement
  /-- The blocks that the heap has given out, with their bytes. -/
  heap : List (Addr × ℕ)
  maxMemoryAllocated : UInt32
  currentMemoryAllocated : UInt32
  totalNumBufsAllocated : UInt16
  numUsedBuffers : UInt16
  lastNodePtr : Option Addr
  headNodePtr : Option Addr
  prevDestroyUnusedCallTsUs : UInt64
  /-- Buffers in use that a static assignment may hand out again. -/
  optStaticBufAssignTempList : List Addr

namespace TopoBufMgr

/-- `topo_buf_manager_init` at time `ts`, in a manager that is zeroed. -/
def init (elems : Addr → TopoBufElement) (ts : UInt64) : TopoBufMgr where
  elems := elems
  heap := []
  maxMemoryAllocated := 0
  currentMemoryAllocated := 0
  totalNumBufsAllocated := 0
  numUsedBuffers := 0
  lastNodePtr := none
  headNodePtr := none
  prevDestroyUnusedCallTsUs := ts
  optStaticBufAssignTempList := []

/-- The bound on the rounds of a loop over the list. -/
def listRounds (m : TopoBufMgr) : ℕ := m.heap.length + 1

/-! ## The list of free buffers -/

/-- Changes an element. -/
def modifyElem (m : TopoBufMgr) (a : Addr) (f : TopoBufElement → TopoBufElement) : TopoBufMgr :=
  { m with elems := update m.elems a (f (m.elems a)) }

/-- `node->next_ptr = value`. -/
def setNext (m : TopoBufMgr) (node : Addr) (value : Option Addr) : TopoBufMgr :=
  m.modifyElem node fun e => { e with nextPtr := value }

/-- `node->prev_ptr = value`. -/
def setPrev (m : TopoBufMgr) (node : Addr) (value : Option Addr) : TopoBufMgr :=
  m.modifyElem node fun e => { e with prevPtr := value }

/-- `node->next_ptr = value`, if there is a node. -/
def setNext? (m : TopoBufMgr) (node : Option Addr) (value : Option Addr) : TopoBufMgr :=
  match node with
  | none => m
  | some node => m.setNext node value

/-- `node->prev_ptr = value`, if there is a node. -/
def setPrev? (m : TopoBufMgr) (node : Option Addr) (value : Option Addr) : TopoBufMgr :=
  match node with
  | none => m
  | some node => m.setPrev node value

/-- `spf_list_remove_node_from_list_only`: the links of the node itself stay. -/
def removeNodeFromListOnly (m : TopoBufMgr) (node : Addr) : TopoBufMgr :=
  let prevNode := (m.elems node).prevPtr
  let nextNode := (m.elems node).nextPtr
  (m.setNext? prevNode nextNode).setPrev? nextNode prevNode

/-- `spf_list_push_node`. -/
def pushNode (m : TopoBufMgr) (node : Addr) : TopoBufMgr :=
  let m := m.setNext node m.headNodePtr
  let m := m.setPrev node none
  let m := m.setPrev? m.headNodePtr (some node)
  { m with headNodePtr := some node }

/-- `spf_list_insert_before_node`. -/
def insertBeforeNode (m : TopoBufMgr) (newNode node : Addr) : TopoBufMgr :=
  let m := m.setNext newNode (some node)
  let m := m.setPrev newNode (m.elems node).prevPtr
  let m := m.setNext? (m.elems node).prevPtr (some newNode)
  let m := m.setPrev node (some newNode)
  if m.headNodePtr = some node then { m with headNodePtr := some newNode } else m

/-! ## Buffers that are not used -/

/-- One round of the loop of `topo_buf_manager_destroy_all_unused_buffers`: the last buffer of
the list is freed. -/
def destroyLast (m : TopoBufMgr) (last : Addr) : TopoBufMgr :=
  let prevNode := (m.elems last).prevPtr
  let m :=
    match prevNode with
    | some node => m.setNext node none
    | none => { m with headNodePtr := none }
  { m with
    currentMemoryAllocated := m.currentMemoryAllocated - (m.elems last).size
    totalNumBufsAllocated := m.totalNumBufsAllocated - 1
    heap := m.heap.eraseP fun block => block.1 = last
    lastNodePtr := prevNode }

/-- The loop of `topo_buf_manager_destroy_all_unused_buffers`. -/
def destroyLoop (forceFree : Bool) : ℕ → TopoBufMgr → Option TopoBufMgr
  | 0, _ => none
  | rounds + 1, m =>
    match m.lastNodePtr with
    | none => some m
    | some last =>
      if forceFree ∨ (maxBufUnusedCount ≤ (m.elems last).unusedCount ∧
          m.totalNumBufsAllocated < (m.elems last).unusedCount) then
        destroyLoop forceFree rounds (m.destroyLast last)
      else some m

/-- `topo_buf_manager_destroy_all_unused_buffers`. -/
def destroyAllUnusedBuffers (m : TopoBufMgr) (forceFree : Bool) : Option TopoBufMgr :=
  destroyLoop forceFree m.listRounds m

/-- The loop that ages the last buffer whose count is below the limit. -/
def ageLoop : ℕ → TopoBufMgr → Option Addr → Option TopoBufMgr
  | 0, _, _ => none
  | _ + 1, m, none => some m
  | rounds + 1, m, some node =>
    if (m.elems node).unusedCount < maxBufUnusedCount then
      some (m.modifyElem node fun e => { e with unusedCount := e.unusedCount + 1 })
    else ageLoop rounds m (m.elems node).prevPtr

/-- `topo_buf_manager_check_destroy_unused_buf` at time `curTs`; `islandEntry` says that the
container has voted for island entry. -/
def checkDestroyUnusedBuf (m : TopoBufMgr) (curTs : UInt64) (islandEntry : Bool) :
    Option TopoBufMgr :=
  if m.lastNodePtr = none then some m
  else if curTs - m.prevDestroyUnusedCallTsUs < tbfUnusedBufferCallIntervalUs then some m
  else
    let m := { m with prevDestroyUnusedCallTsUs := curTs }
    let swept := if islandEntry then some m else m.destroyAllUnusedBuffers false
    match swept with
    | none => none
    | some m => ageLoop m.listRounds m m.lastNodePtr

/-! ## Handing out a buffer -/

/-- `topo_buf_manager_allocate_buf`; `malloc` is the block that the heap gives.  The size that
is asked for is a 32-bit sum. -/
def allocateBuf (m : TopoBufMgr) (bufSize : UInt32) (malloc : Option Addr) :
    Option Addr × TopoBufMgr :=
  let allocSize := UInt32.ofNat tbfBufPtrOffset + bufSize
  match malloc with
  | none => (none, m)
  | some ptr =>
    let current := m.currentMemoryAllocated + bufSize
    (some (ptr + tbfBufPtrOffset),
      { m with
        elems := update m.elems ptr ⟨ptr, none, none, 1, 0, bufSize⟩
        heap := m.heap ++ [(ptr, allocSize.toNat)]
        currentMemoryAllocated := current
        maxMemoryAllocated :=
          if current > m.maxMemoryAllocated then current else m.maxMemoryAllocated
        totalNumBufsAllocated := m.totalNumBufsAllocated + 1 })

/-- `topo_buf_manager_check_static_buf_assign_temp_list`: the first buffer of the temporary
list that is large enough. -/
def checkStaticBufAssignTempList (m : TopoBufMgr) (bufSize : UInt32) : Option (Addr × TopoBufMgr) :=
  match m.optStaticBufAssignTempList.find? fun a => bufSize ≤ (m.elems a).size with
  | none => none
  | some a =>
    let m := m.modifyElem a fun e => { e with refCount := e.refCount + 1 }
    some (a + tbfBufPtrOffset,
      { m with optStaticBufAssignTempList := m.optStaticBufAssignTempList.erase a })

/-- The search of `topo_buf_manager_get_buf` through the list: the first buffer that is large
enough. -/
def searchLoop (m : TopoBufMgr) (bufSize : UInt32) : ℕ → Option Addr → Option (Option Addr)
  | 0, _ => none
  | _ + 1, none => some none
  | rounds + 1, some node =>
    if bufSize ≤ (m.elems (m.elems node).objPtr).size then some (some node)
    else searchLoop m bufSize rounds (m.elems node).nextPtr

/-- A free buffer is taken out of the list. -/
def takeNode (m : TopoBufMgr) (node : Addr) : TopoBufMgr :=
  let m := m.modifyElem node fun e => { e with unusedCount := 0, refCount := 1 }
  let m := m.removeNodeFromListOnly node
  let m :=
    if (m.elems node).prevPtr = none then { m with headNodePtr := (m.elems node).nextPtr } else m
  let m :=
    if (m.elems node).nextPtr = none then { m with lastNodePtr := (m.elems node).prevPtr } else m
  { m with numUsedBuffers := m.numUsedBuffers + 1 }

/-- `topo_buf_manager_get_buf`: the result and the buffer. -/
def getBuf (m : TopoBufMgr) (bufSize : UInt32) (malloc : Option Addr) (curTs : UInt64)
    (islandEntry : Bool) : Option (ArResult × Option Addr × TopoBufMgr) :=
  match m.checkStaticBufAssignTempList bufSize with
  | some (buf, m) => some (.eok, some buf, m)
  | none =>
    match m.searchLoop bufSize m.listRounds m.headNodePtr with
    | none => none
    | some (some node) =>
      ((m.takeNode node).checkDestroyUnusedBuf curTs islandEntry).map fun m =>
        (.eok, some (node + tbfBufPtrOffset), m)
    | some none =>
      match m.allocateBuf bufSize malloc with
      | (none, m) => some (.enomemory, none, m)
      | (some buf, m) =>
        ({ m with numUsedBuffers := m.numUsedBuffers + 1 }.checkDestroyUnusedBuf curTs
          islandEntry).map fun m => (.eok, some buf, m)

/-! ## Taking a buffer back -/

/-- The loop of `topo_buf_manager_return_buf`: the buffer goes before the first one that is not
smaller, or behind the last one.  The flag says that the function returns from the loop. -/
def insertLoop (node : Addr) (bufSize : UInt32) :
    ℕ → TopoBufMgr → Option Addr → Option (Bool × TopoBufMgr)
  | 0, _, _ => none
  | _ + 1, m, none => some (false, m)
  | rounds + 1, m, some cur =>
    if bufSize ≤ (m.elems (m.elems cur).objPtr).size then
      let m := m.insertBeforeNode node cur
      some (true, { m with numUsedBuffers := m.numUsedBuffers - 1 })
    else
      match (m.elems cur).nextPtr with
      | none =>
        let m := m.setNext cur (some node)
        let m := m.setNext node none
        some (false, m.setPrev node (some cur))
      | some next => insertLoop node bufSize rounds m (some next)

/-- `topo_buf_manager_return_buf`. -/
def returnBuf (m : TopoBufMgr) (bufPtr : Addr) : Option TopoBufMgr :=
  let node := bufPtr - tbfBufPtrOffset
  let bufSize := (m.elems (m.elems node).objPtr).size
  match insertLoop node bufSize m.listRounds m m.headNodePtr with
  | none => none
  | some (true, m) => some m
  | some (false, m) =>
    let m := if m.headNodePtr = none then m.pushNode node else m
    let m := if (m.elems node).nextPtr = none then { m with lastNodePtr := some node } else m
    some { m with numUsedBuffers := m.numUsedBuffers - 1 }

end TopoBufMgr

end AudioReach
