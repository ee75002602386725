import AudioReach.ArResult
import AudioReach.Library.Bitmask

/-!
# The buffer pool of `posal`

`posal_bufpool.c` and `posal_bufpool_island.c` hand out small nodes of one size.  A pool has a
fixed number of entries for arrays of nodes, each of which is allocated when the ones before it
are full and may be freed again when it is empty.  The nodes in use of an array are the ones of
its bitmask, and each node has a header in front of it that tells which one it is.

The memory is divided into the blocks that `posal_memory_malloc` hands out.  A block is never
handed out twice, and an address is a block and an offset in it.  Only the headers are read by
the code, so they are what is kept of the contents; what is in them before they are written is
arbitrary.  The mutex of the pool is held throughout each operation, so an operation is one step.
-/

namespace AudioReach

open Library

/-- The fields of `posal_bufpool_nodes_t`. -/
structure NodesArr where
  /-- `list_bitmask`, a `uint32_t`. -/
  listBitmask : ℕ
  memStartAddr : Option Addr
  deriving DecidableEq

/-- The bit fields of `posal_bufpool_node_header_t`. -/
structure NodeHeader where
  /-- `pool_index`, 5 bits. -/
  poolIndex : ℕ
  /-- `node_arr_index`, 14 bits. -/
  nodeArrIndex : ℕ
  /-- `node_index`, 5 bits. -/
  nodeIndex : ℕ
  /-- `magic`, 8 bits. -/
  magic : ℕ
  deriving DecidableEq

/-- The address of a node that a client has. -/
structure NodePtr where
  block : Addr
  offset : ℕ
  deriving DecidableEq

/-- The fields of `posal_bufpool_pool_t`, and the memory. -/
structure Bufpool where
  nodesPtr : ℕ → NodesArr
  numOfNodeArrays : ℕ
  nodesPerArr : ℕ
  nodeSize : ℕ
  /-- `allocated_nodes`, a `uint16_t`. -/
  allocatedNodes : ℕ
  /-- `used_nodes`, a `uint16_t`. -/
  usedNodes : ℕ
  alignPaddingSize : ℕ
  /-- The index of the pool in `all_pools`. -/
  poolIndex : ℕ
  /-- `sizeof(posal_bufpool_node_header_t)`, which is that of a pointer. -/
  headerSize : ℕ
  headers : Addr → ℕ → NodeHeader
  /-- The next block that `posal_memory_malloc` hands out. -/
  nextBlock : Addr

/-- `POSAL_BUFPOOL_MAX_NODES`. -/
def bufpoolMaxNodes : ℕ := 32

/-- `POSAL_BUFPOOL_NODE_MAGIC`. -/
def bufpoolNodeMagic : ℕ := 0x5a

/-- `POSAL_BUFPOOL_FREE_THRESHOLD`. -/
def bufpoolFreeThreshold : ℕ := 48

/-- The loop that counts how often a word can be shifted until it is zero. -/
def shiftCount : ℕ → ℕ → ℕ
  | 0, _ => 0
  | rounds + 1, temp => if temp > 0 then 1 + shiftCount rounds (temp >>> 1) else 0

/-- `get_first_zero_idx_in_list_bitmask`, in its portable form. -/
def firstZeroIdx (num : ℕ) : ℕ :=
  if num = lowMask 32 then bufpoolMaxNodes
  else shiftCount 32 ((lowMask 32 - num) &&& (num + 1)) - 1

namespace Bufpool

/-- Replace the entry of an array. -/
def setArr (p : Bufpool) (index : ℕ) (arr : NodesArr) : Bufpool :=
  { p with nodesPtr := Function.update p.nodesPtr index arr }

/-- The distance from one node to the next. -/
def stride (p : Bufpool) : ℕ := p.headerSize + p.alignPaddingSize + p.nodeSize

/-- The size of an array. -/
def arrSize (p : Bufpool) : ℕ := p.stride * p.nodesPerArr

/-- The offset of the header of a node in its array. -/
def headerOffset (p : Bufpool) (nodeIdx : ℕ) : ℕ := p.alignPaddingSize + nodeIdx * p.stride

/-- The offset of a node in its array. -/
def nodeOffset (p : Bufpool) (nodeIdx : ℕ) : ℕ := p.headerOffset nodeIdx + p.headerSize

/-- `posal_bufpool_allocate_new_nodes_arr_util_`, when the allocation succeeds. -/
def newArr (p : Bufpool) (index : ℕ) : Bufpool :=
  { p.setArr index ⟨0, some p.nextBlock⟩ with
    nextBlock := p.nextBlock + 1
    allocatedNodes := (p.allocatedNodes + p.nodesPerArr) % 65536 }

/-- `posal_bufpool_allocate_new_nodes_arr`; `allocated` tells whether `posal_memory_malloc`
succeeds. -/
def allocateNewNodesArr (p : Bufpool) (index : ℕ) (allocated : Bool) : ArResult × Bufpool :=
  if index ≥ p.numOfNodeArrays then (.efailed, p)
  else if (p.nodesPtr index).memStartAddr.isSome then (.eok, p)
  else if allocated then (.eok, p.newArr index)
  else (.enomemory, p)

/-- `toggle_bit_in_list_bitmask_at_idx`. -/
def toggleBit (p : Bufpool) (index pos : ℕ) : Bufpool :=
  p.setArr index { p.nodesPtr index with
    listBitmask := (p.nodesPtr index).listBitmask ^^^ 2 ^ pos }

/-- The header that `posal_bufpool_get_node` writes; each field takes what fits it. -/
def newHeader (p : Bufpool) (i nodeIdx : ℕ) : NodeHeader :=
  { poolIndex := p.poolIndex % 32
    nodeArrIndex := i % 16384
    nodeIndex := nodeIdx % 32
    magic := bufpoolNodeMagic % 256 }

/-- The end of `posal_bufpool_get_node`: hand out node `nodeIdx` of array `i`. -/
def takeNode (p : Bufpool) (i nodeIdx : ℕ) : Option NodePtr × Bufpool :=
  match (p.nodesPtr i).memStartAddr with
  | none => (none, p)
  | some block =>
    (some ⟨block, p.nodeOffset nodeIdx⟩,
      { p.toggleBit i nodeIdx with
        headers := Function.update p.headers block
          (Function.update (p.headers block) (p.headerOffset nodeIdx) (p.newHeader i nodeIdx))
        usedNodes := (p.usedNodes + 1) % 65536 })

/-- The loop of `posal_bufpool_get_node` from array `i` on, with `count` arrays left. -/
def getNodeFrom (allocated : Bool) : ℕ → ℕ → Bufpool → Option NodePtr × Bufpool
  | 0, _, p => (none, p)
  | count + 1, i, p =>
    if (p.nodesPtr i).memStartAddr = none then
      match p.allocateNewNodesArr i allocated with
      | (.eok, p) => p.takeNode i (firstZeroIdx (p.nodesPtr i).listBitmask)
      | (_, p) => (none, p)
    else if p.nodesPerArr = firstZeroIdx (p.nodesPtr i).listBitmask then
      -- the next array is allocated before the loop goes on to it
      match p.allocateNewNodesArr (i + 1) allocated with
      | (.eok, p) => getNodeFrom allocated count (i + 1) p
      | (_, p) => (none, p)
    else p.takeNode i (firstZeroIdx (p.nodesPtr i).listBitmask)

/-- `posal_bufpool_get_node`.  It makes at most one allocation; `allocated` tells whether it
succeeds. -/
def getNode (p : Bufpool) (allocated : Bool) : Option NodePtr × Bufpool :=
  getNodeFrom allocated p.numOfNodeArrays 0 p

/-- The subtraction `p.allocated_nodes -= p.nodes_per_arr`. -/
def dropAllocated (p : Bufpool) : Bufpool :=
  { p with allocatedNodes := (p.allocatedNodes + 65536 - p.nodesPerArr) % 65536 }

/-- `posal_bufpool_free_nodes_arr`. -/
def freeNodesArr (p : Bufpool) (index : ℕ) : Bufpool :=
  if index ≥ p.numOfNodeArrays ∨ (p.nodesPtr index).memStartAddr = none ∨
      (p.nodesPtr index).listBitmask ≠ 0 then p
  else (p.setArr index { p.nodesPtr index with memStartAddr := none }).dropAllocated

/-- The test of `posal_bufpool_return_node` for too many free nodes.  The difference is an `int`
that is compared with a `uint32_t`. -/
def manyFree (p : Bufpool) : Bool :=
  decide ((p.allocatedNodes + 4294967296 - p.usedNodes) % 4294967296 > bufpoolFreeThreshold)

/-- The part of `posal_bufpool_return_node` that clears the bit of a node in use. -/
def releaseNode (p : Bufpool) (index nodeIdx : ℕ) : Bufpool :=
  { p.toggleBit index nodeIdx with usedNodes := (p.usedNodes + 65536 - 1) % 65536 }

/-- The part of `posal_bufpool_return_node` that may free the array of the node. -/
def freeIfUnused (p : Bufpool) (index : ℕ) : Bufpool :=
  if (p.nodesPtr index).listBitmask = 0 ∧ p.manyFree = true then p.freeNodesArr index else p

/-- `posal_bufpool_return_node`. -/
def returnNode (p : Bufpool) (node : NodePtr) : Bufpool :=
  let header := p.headers node.block (node.offset - p.headerSize)
  -- a node of another pool is not looked for here
  if header.poolIndex ≠ p.poolIndex then p
  else if header.magic ≠ bufpoolNodeMagic then p
  else if !(p.nodesPtr header.nodeArrIndex).listBitmask.testBit header.nodeIndex then p
  else (p.releaseNode header.nodeArrIndex header.nodeIndex).freeIfUnused header.nodeArrIndex

/-- The loop of `posal_bufpool_pool_free_unused_lists` from array `i` on, with `count` arrays
left.  The nodes of the array are subtracted here again. -/
def freeUnusedFrom : ℕ → ℕ → Bufpool → Bufpool
  | 0, _, p => p
  | count + 1, i, p =>
    if (p.nodesPtr i).memStartAddr.isSome ∧ (p.nodesPtr i).listBitmask = 0 then
      freeUnusedFrom count (i + 1) (p.freeNodesArr i).dropAllocated
    else freeUnusedFrom count (i + 1) p

/-- `posal_bufpool_pool_free_unused_lists`. -/
def freeUnusedLists (p : Bufpool) : Bufpool :=
  freeUnusedFrom p.numOfNodeArrays 0 p

/-- The pool that `posal_bufpool_pool_create` sets up, before its first array is allocated. -/
def setUp (nodeSize numArrays : ℕ) (eightByteAlign : Bool) (nodesPerArr headerSize : ℕ)
    (poolIndex : Fin 8) (headers : Addr → ℕ → NodeHeader) (nextBlock : Addr) : Bufpool :=
  { nodesPtr := fun _ => ⟨0, none⟩
    numOfNodeArrays := numArrays % 65536
    nodesPerArr := nodesPerArr
    nodeSize := nodeSize
    allocatedNodes := 0
    usedNodes := 0
    alignPaddingSize := if eightByteAlign then 4 else 0
    poolIndex := poolIndex
    headerSize := headerSize
    headers := headers
    nextBlock := nextBlock }

/-- `posal_bufpool_pool_create` for the first free entry `poolIndex` of `all_pools`; the memory
is `headers` and the blocks from `nextBlock` on are free.  The two allocations are that of the
pool and that of its first array. -/
def create (nodeSize numArrays : ℕ) (eightByteAlign : Bool) (nodesPerArr headerSize : ℕ)
    (poolIndex : Fin 8) (headers : Addr → ℕ → NodeHeader) (nextBlock : Addr)
    (poolAllocated arrAllocated : Bool) : Option Bufpool :=
  if nodesPerArr > bufpoolMaxNodes then none
  else if !poolAllocated then none
  else
    match (setUp nodeSize numArrays eightByteAlign nodesPerArr headerSize poolIndex headers
        nextBlock).allocateNewNodesArr 0 arrAllocated with
    | (.eok, p) => some p
    | _ => none

end Bufpool

end AudioReach
