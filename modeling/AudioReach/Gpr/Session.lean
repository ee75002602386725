import AudioReach.ArResult
import AudioReach.Library.Chains
import AudioReach.Library.Runs

/-!
# The packet router's session registry

A module registers a callback under its port.  The list of registrations of one heap
has two implementations, of which the build picks one: `hash_based/gpr_session.c`, an
array of chains indexed by the port, and `array_based/gpr_session.c`, one slot per
registration.  `__gpr_cmd_register_v2` and `__gpr_cmd_deregister_v2` of `gpr_drv.c` are
written over either.

Registration allocates a node and fills it only in part: `gpr_init_session` writes its
port and its `next`, and the caller writes the callback, and the callback data unless
they are null, through the returned entry.  What the allocator left in the entry is
therefore an argument of the call (`recycled`).  The number of nodes allocated and not
freed is kept beside each list, so that a node that is neither linked nor freed shows.
-/

namespace AudioReach

open Library

/-- `gpr_module_entry_t`: the callback and its data, `none` for a null pointer. -/
structure GprModuleEntry where
  callbackFn : Option Addr
  callbackData : Option Addr
  deriving DecidableEq, Repr

/-- `gpr_module_node_t`, without the `next` pointer that makes it part of a chain. -/
structure GprModuleNode where
  myModulePort : UInt32
  session : GprModuleEntry
  deriving DecidableEq, Repr

/-- The calls on one heap's list.  `recycled` is what the allocated memory held where
the entry of the new node lies. -/
inductive GprSessionCall
  | register (srcPort : UInt32) (callbackFn callbackData : Option Addr) (recycled : GprModuleEntry)
  | deregister (srcPort : UInt32)
  | getSession (port : UInt32)
  deriving DecidableEq, Repr

/-- What a call returns: the result and, for a lookup, the entry. -/
abbrev GprAnswer := ArResult × Option GprModuleEntry

/-- The answer of `gpr_get_session` from the node its search ends with. -/
def GprAnswer.ofNode : Option GprModuleNode → GprAnswer
  | some node => (.eok, some node.session)
  | none => (.enotexist, none)

/-- What `__gpr_cmd_register_v2` writes through the entry it gets: the callback, and the
data if they are not null. -/
def GprModuleEntry.save (entry : GprModuleEntry) (callbackFn callbackData : Option Addr) :
    GprModuleEntry :=
  let entry := { entry with callbackFn := callbackFn }
  if callbackData.isSome then { entry with callbackData := callbackData } else entry

/-! ## Chained hash table -/

/-- The hash-based `gpr_module_node_list_t`. -/
structure GprHashList where
  /-- `max_cb_list_size`, the number of entries of `cb_list`. -/
  maxCbListSize : ℕ
  cbList : ℕ → List GprModuleNode
  held : ℕ

namespace GprHashList

/-- A list as `gpr_drv.c` sets it up. -/
def init (maxCbListSize : ℕ) : GprHashList where
  maxCbListSize := maxCbListSize
  cbList := fun _ => []
  held := 0

/-- `SESSION_HASH`. -/
def sessionHash (list : GprHashList) (port : UInt32) : ℕ :=
  port.toNat % (list.maxCbListSize - 1)

/-- Replace one chain. -/
def setChain (list : GprHashList) (i : ℕ) (chain : List GprModuleNode) : GprHashList :=
  { list with cbList := Function.update list.cbList i chain }

/-- `gpr_init_session`: allocate a node and append it to its chain, or free it again if
the port is there already.  `write` is what the caller then does with the entry. -/
def gprInitSession (list : GprHashList) (srcPort : UInt32) (recycled : GprModuleEntry)
    (write : GprModuleEntry → GprModuleEntry) : ArResult × GprHashList :=
  let list := { list with held := list.held + 1 }
  let node : GprModuleNode := { myModulePort := srcPort, session := write recycled }
  let hashKey := list.sessionHash srcPort
  match list.cbList hashKey with
  | [] => (.eok, list.setChain hashKey [node])
  | temp :: rest =>
      if temp.myModulePort = srcPort then
        (.efailed, { list with held := list.held - 1 })
      else if rest.any (fun n => n.myModulePort = srcPort) then
        (.efailed, { list with held := list.held - 1 })
      else
        (.eok, list.setChain hashKey (temp :: (rest ++ [node])))

/-- `gpr_deinit_session`: unlink and free the node of the port, by the four cases of the
source. -/
def gprDeinitSession (list : GprHashList) (srcPort : UInt32) : ArResult × GprHashList :=
  let hashKey := list.sessionHash srcPort
  let freed := { list with held := list.held - 1 }
  match list.cbList hashKey with
  | [] => (.enotexist, list)
  | [temp] =>
      if temp.myModulePort = srcPort then (.eok, freed.setChain hashKey [])
      else (.enotexist, list)
  | temp :: rest =>
      if temp.myModulePort = srcPort then (.eok, freed.setChain hashKey rest)
      else if rest.any (fun n => n.myModulePort = srcPort) then
        (.eok, freed.setChain hashKey (temp :: rest.eraseP (fun n => n.myModulePort = srcPort)))
      else (.enotexist, list)

/-- `gpr_get_session`: walk the chain of the port. -/
def gprGetSession (list : GprHashList) (port : UInt32) : GprAnswer :=
  .ofNode ((list.cbList (list.sessionHash port)).find? (fun n => n.myModulePort = port))

end GprHashList

/-! ## Array of slots -/

/-- The array-based `gpr_module_node_list_t`: `cb_list` has one node or null per slot. -/
structure GprArrayList where
  cbList : List (Option GprModuleNode)
  held : ℕ

namespace GprArrayList

/-- A list as `gpr_drv.c` sets it up. -/
def init (maxCbListSize : ℕ) : GprArrayList where
  cbList := List.replicate maxCbListSize none
  held := 0

/-- The loop of `gpr_init_session` from slot `i` on: `none` if it meets the port, else
the last free slot, or the `free_index` it started with. -/
def freeIndex (srcPort : UInt32) : List (Option GprModuleNode) → ℕ → ℕ → Option ℕ
  | [], _, free => some free
  | none :: slots, i, _ => freeIndex srcPort slots (i + 1) i
  | some temp :: slots, i, free =>
      if temp.myModulePort = srcPort then none else freeIndex srcPort slots (i + 1) free

/-- `gpr_init_session`: allocate a node and put it into the last free slot.  The node is
freed again if the port is there already, but not if there is no free slot. -/
def gprInitSession (list : GprArrayList) (srcPort : UInt32) (recycled : GprModuleEntry)
    (write : GprModuleEntry → GprModuleEntry) : ArResult × GprArrayList :=
  let list := { list with held := list.held + 1 }
  let node : GprModuleNode := { myModulePort := srcPort, session := write recycled }
  match freeIndex srcPort list.cbList 0 0xFFFF with
  | none => (.efailed, { list with held := list.held - 1 })
  | some free =>
      if free = 0xFFFF then (.efailed, list)
      else (.eok, { list with cbList := list.cbList.set free (some node) })

/-- Does the slot hold the port? -/
def holdsPort (port : UInt32) (slot : Option GprModuleNode) : Bool :=
  match slot with
  | some node => node.myModulePort = port
  | none => false

/-- `gpr_deinit_session`: free and clear the first slot with the port. -/
def gprDeinitSession (list : GprArrayList) (srcPort : UInt32) : ArResult × GprArrayList :=
  match list.cbList.findIdx? (holdsPort srcPort) with
  | some i => (.eok, { cbList := list.cbList.set i none, held := list.held - 1 })
  | none => (.enotexist, list)

/-- `gpr_get_session`: the first slot with the port. -/
def gprGetSession (list : GprArrayList) (port : UInt32) : GprAnswer :=
  .ofNode (list.cbList.find? (holdsPort port)).join

end GprArrayList

/-! ## The driver's calls, over either list -/

/-- `__gpr_cmd_register_v2` and `__gpr_cmd_deregister_v2`, and a lookup, over the
functions of one implementation.  A null callback is refused before the list is
touched; the result of `gpr_deinit_session` is dropped. -/
def gprCmd {L : Type}
    (gprInitSession : L → UInt32 → GprModuleEntry → (GprModuleEntry → GprModuleEntry) →
      ArResult × L)
    (gprDeinitSession : L → UInt32 → ArResult × L) (gprGetSession : L → UInt32 → GprAnswer)
    (list : L) : GprSessionCall → GprAnswer × L
  | .register srcPort callbackFn callbackData recycled =>
      if callbackFn = none then ((.ebadparam, none), list)
      else
        let result := gprInitSession list srcPort recycled
          (fun entry => entry.save callbackFn callbackData)
        ((result.1, none), result.2)
  | .deregister srcPort => ((.eok, none), (gprDeinitSession list srcPort).2)
  | .getSession port => (gprGetSession list port, list)

/-- The driver built with the hash-based list. -/
def GprHashList.call : GprHashList → GprSessionCall → GprAnswer × GprHashList :=
  gprCmd gprInitSession gprDeinitSession gprGetSession

/-- The driver built with the array-based list. -/
def GprArrayList.call : GprArrayList → GprSessionCall → GprAnswer × GprArrayList :=
  gprCmd gprInitSession gprDeinitSession gprGetSession

end AudioReach
