import AudioReach.ArResult
import AudioReach.Library.Chains
import AudioReach.Library.Runs

/-!
# The chained hash table of the framework

This is the model of `spf_hashtable.c`.  A bucket of the table is a singly linked
list; it is represented by the list of its nodes, and a position inside it (the
pointer to pointer that `hashtable_findpos` returns) by the split of that list at
the position.  All counters, sizes and hashes are 32-bit words.

A node is its address together with the bytes of its key.  The key of a node that
is linked in a table is not written to, so both stay together.

The only allocation after initialisation is the one made by `hashtable_grow`; whether
there is memory is an argument of the call that may trigger it.  `posal_memory_malloc`
takes the number of bytes as a `uint32_t` and refuses requests of zero bytes.
-/

namespace AudioReach

open Library

/-- `spf_hash_node_t`: the node's address and the bytes of its key. -/
structure SpfHashNode where
  /-- The address of the node, by which the code compares nodes. -/
  addr : Addr
  /-- The `key_size` bytes at `key_ptr`. -/
  key : List UInt8
  deriving DecidableEq, Repr

/-- `spf_hashtable_t`, with the chain hanging from each entry of `table_ptr`. -/
structure SpfHashtable where
  table : ℕ → List SpfHashNode
  tableSize : UInt32
  maskSize : UInt32
  resizeFactor : UInt32
  numNodes : UInt32
  /-- Number of distinct keys, as the code counts it. -/
  numItems : UInt32
  /-- The pointers that `table_ptr` is made of. -/
  abi : Abi
  /-- A table was larger than the block that it got: `memset` clears what lies behind the
  block, or, where `size_t` has 32 bits, the buckets behind it are used as they are. -/
  overrun : Bool

/-! ## Hashing and lookup -/

/-- `fnv_hash`: the 32-bit FNV hash of the bytes, continued from `h`. -/
def fnvHash (bytes : List UInt8) (h : UInt32) : UInt32 :=
  bytes.foldl (fun h b => (h * 0x01000193) ^^^ b.toUInt32) h

/-- `hashtable_equalkey`: same length and same bytes. -/
def hashtableEqualkey (key1 key2 : List UInt8) : Bool :=
  if key1.length ≠ key2.length then false else key1 == key2

@[simp] lemma hashtableEqualkey_eq (key1 key2 : List UInt8) :
    hashtableEqualkey key1 key2 = decide (key1 = key2) := by
  unfold hashtableEqualkey
  split
  · next h =>
    have hne : key1 ≠ key2 := fun heq => h (by rw [heq])
    simp [hne]
  · simp [Bool.beq_eq_decide_eq]

namespace SpfHashtable

/-- The bucket of a key: its hash under the mask. -/
def pos (ht : SpfHashtable) (key : List UInt8) : ℕ :=
  (fnvHash key 0x811C9DC5 &&& ht.maskSize).toNat

/-- All nodes linked in the buckets. -/
def nodes (ht : SpfHashtable) : List SpfHashNode :=
  chains ht.table ht.tableSize.toNat

/-- Replace one chain. -/
def setChain (ht : SpfHashtable) (i : ℕ) (chain : List SpfHashNode) : SpfHashtable :=
  { ht with table := Function.update ht.table i chain }

end SpfHashtable

/-- `hashtable_findpos`: the chain of the key's bucket, split before the first node
with that key.  The second part is empty when there is none. -/
def hashtableFindpos (ht : SpfHashtable) (key : List UInt8) : List SpfHashNode × List SpfHashNode :=
  (ht.table (ht.pos key)).span (fun n => !hashtableEqualkey n.key key)

/-- `spf_hashtable_find`. -/
def spfHashtableFind (ht : SpfHashtable) (key : List UInt8) : Option SpfHashNode :=
  (hashtableFindpos ht key).2.head?

/-! ## Insertion and growth -/

/-- `hashtable_internalinsert`: link the node before the first node with its key,
or at the end of the chain if its key is new. -/
def hashtableInternalinsert (ht : SpfHashtable) (node : SpfHashNode) : ArResult × SpfHashtable :=
  match hashtableFindpos ht node.key with
  | (before, []) =>
      (.eok, { ht.setChain (ht.pos node.key) (before ++ [node]) with
        numItems := ht.numItems + 1
        numNodes := ht.numNodes + 1 })
  | (before, dup :: rest) =>
      -- identical nodes are refused; the scan runs to the end of the chain
      if (dup :: rest).any (fun n => n.addr == node.addr) then
        (.ealready, ht)
      else
        (.eok, { ht.setChain (ht.pos node.key) (before ++ node :: dup :: rest) with
          numNodes := ht.numNodes + 1 })

/-- Re-insert a list of nodes, ignoring the results. -/
def hashtableReinsert (ht : SpfHashtable) (ns : List SpfHashNode) : SpfHashtable :=
  ns.foldl (fun ht n => (hashtableInternalinsert ht n).2) ht

/-- The bytes that `hashtable_grow` asks for, as `posal_memory_malloc` reads them. -/
def SpfHashtable.growBytes (ht : SpfHashtable) : UInt32 :=
  ht.tableSize * ht.resizeFactor * UInt32.ofNat ht.abi.ptrSize

/-- `hashtable_grow`: move to a table `resize_factor` times as large.  Each old
chain is reversed and its nodes are inserted one by one into the new table, whose
counters go on from the old ones. -/
def hashtableGrow (ht : SpfHashtable) (mallocOk : Bool) : ArResult × SpfHashtable :=
  let newTableSize := ht.tableSize * ht.resizeFactor
  if ht.growBytes = 0 ∨ mallocOk = false then
    (.enomemory, ht)
  else
    let empty : SpfHashtable :=
      { ht with
        table := fun _ => []
        tableSize := newTableSize
        maskSize := newTableSize - 1
        overrun := ht.overrun || decide (ht.growBytes.toNat < newTableSize.toNat * ht.abi.ptrSize) }
    (.eok, (List.range ht.tableSize.toNat).foldl
      (fun new i => hashtableReinsert new (ht.table i).reverse) empty)

/-- What `node_ptr->next_ptr = 0` does to a chain: it ends at the node with that
address, if it has one. -/
def cutAfter (addr : Addr) (chain : List SpfHashNode) : List SpfHashNode :=
  (chain.span (fun n => n.addr != addr)).1 ++ (chain.span (fun n => n.addr != addr)).2.take 1

/-- `spf_hashtable_insert`.  Clearing the node's `next_ptr` comes first. -/
def spfHashtableInsert (ht : SpfHashtable) (node : SpfHashNode) (mallocOk : Bool) :
    ArResult × SpfHashtable :=
  let cleared := { ht with table := fun i => cutAfter node.addr (ht.table i) }
  match hashtableInternalinsert cleared node with
  | (.eok, ht') =>
      if ht'.numItems > ht'.tableSize * ht'.resizeFactor then
        (.eok, (hashtableGrow ht' mallocOk).2)
      else
        (.eok, ht')
  | (err, ht') => (err, ht')

/-! ## Removal -/

/-- `spf_hashtable_remove`: result, the table after the call and the node handed to
`free_fptr`.  With a node given that is not the first one of its key, the rest of
the chain is searched; when the node is not there, the last node of the chain is
handed to `free_fptr` although it stays linked. -/
def spfHashtableRemove (ht : SpfHashtable) (key : List UInt8) (node : Option Addr) :
    ArResult × SpfHashtable × Option SpfHashNode :=
  match hashtableFindpos ht key with
  | (_, []) => (.efailed, ht, none)
  | (before, first :: rest) =>
      let ht1 := { ht with numNodes := ht.numNodes - 1 }
      if node = none ∨ node = some first.addr then
        (.eok, { ht1.setChain (ht.pos key) (before ++ rest) with
          numItems := ht.numItems - 1 }, some first)
      else
        match rest.span (fun n => some n.addr != node) with
        | (_, []) => (.eok, ht1, (first :: rest).getLast?)
        | (between, found :: after) =>
            (.eok, ht1.setChain (ht.pos key) (before ++ first :: (between ++ after)), some found)

/-- `spf_hashtable_remove_all`. -/
def spfHashtableRemoveAll (ht : SpfHashtable) : ArResult × SpfHashtable :=
  (.eok, { ht with
    table := fun i => if i < ht.tableSize.toNat then [] else ht.table i
    numItems := 0
    numNodes := 0 })

/-! ## Initialisation -/

/-- `spf_hashtable_init`: an empty table whose size is the largest power of two not
above the requested one.  The loop of the source that counts how often the size can be
halved computes its binary logarithm. -/
def spfHashtableInit (abi : Abi) (tableSize resizeFactor : UInt32) (mallocOk : Bool) :
    Except ArResult SpfHashtable :=
  let size : UInt32 := 1 <<< tableSize.log2
  let bytes := size * UInt32.ofNat abi.ptrSize
  if size = 0 then .error .eunsupported
  else if resizeFactor = 0 then .error .eunsupported
  else if bytes = 0 ∨ mallocOk = false then .error .enomemory
  else .ok
    { table := fun _ => []
      tableSize := size
      maskSize := size - 1
      resizeFactor := resizeFactor
      numNodes := 0
      numItems := 0
      abi := abi
      overrun := decide (bytes.toNat < size.toNat * abi.ptrSize) }

/-! ## Calls -/

/-- One call on a hash table.  `mallocOk` says whether there is memory if the
call grows the table. -/
inductive SpfHashtableCall
  | insert (node : SpfHashNode) (mallocOk : Bool)
  | remove (key : List UInt8) (node : Option Addr)
  | removeAll
  deriving DecidableEq, Repr

/-- The table after a call. -/
def SpfHashtable.step (ht : SpfHashtable) : SpfHashtableCall → SpfHashtable
  | .insert node mallocOk => (spfHashtableInsert ht node mallocOk).2
  | .remove key node => (spfHashtableRemove ht key node).2.1
  | .removeAll => (spfHashtableRemoveAll ht).2

end AudioReach
