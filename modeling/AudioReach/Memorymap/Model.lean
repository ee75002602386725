import Mathlib.Logic.Function.Basic
import AudioReach.ArResult

/-!
# The shared-memory map of the Linux posal

A client registers with `posal_memorymap.c` and gets a token; under the token it maps regions of
shared memory and gets a handle for each mapping.  A mapping is a node in a singly linked list of
the client, and a hash table leads from handles to nodes.  A second hash table leads from tokens
to clients, next to a table of the clients with a slot for each.

Both hash tables are `spf_hashtable.c`, whose nodes come from the heap and are never removed
here: a table is the list of what was inserted, the last one first, and a lookup gives the entry
of a key that was inserted last.  The heap and `mmap` are parameters of the calls; `munmap` has
no effect on the registry.  A result `none` stands for a null pointer that is followed, or for
memory that is read after it was freed.

A call holds the mutexes that it takes until it returns.  They are recursive, and calls come one
after another here, so the mutexes are left out (`posal_memorymap_get_mem_map_handle` returns
without giving the mutex of the client back).
-/

namespace AudioReach

open Function (update)

/-- `posal_memorymap_mapping_mode_t`. -/
inductive MappingMode
  | physicalAddr
  | physicalOffset
  | virtualAddr
  | virtualOffset
  deriving DecidableEq

/-- `posal_memorymap_shm_region_t`. -/
structure ShmRegion where
  shmAddrLsw : UInt32
  shmAddrMsw : UInt32
  memSize : UInt32
  deriving DecidableEq

/-- `posal_memorymap_region_record_t`. -/
structure RegionRecord where
  /-- `shm_addr` and `mem_size`. -/
  region : ShmRegion
  virtAddrPtr : UInt64
  deriving DecidableEq

/-- `posal_memorymap_node_t`, with the records that follow it. -/
structure MemorymapNode where
  shmemId : UInt32
  memPool : UInt32
  /-- The `unNumContPhysReg` records of the regions. -/
  regions : List RegionRecord
  refCount : Int16
  mappingMode : MappingMode
  pNext : Option Addr
  deriving DecidableEq

/-- `posal_memorymap_client_t`. -/
structure MemorymapClient where
  clientId : ℕ
  pMemMapListNode : Option Addr
  deriving DecidableEq

/-- `POSAL_MEMORY_MAP_MAX_CLIENTS`. -/
def memoryMapMaxClients : ℕ := 8

/-- The part of `posal_globalstate` for memory maps, the two hash tables and the heap. -/
structure Memorymap where
  nodes : Addr → Option MemorymapNode
  clients : Addr → Option MemorymapClient
  memMapClientList : ℕ → Option Addr
  numRegisteredMemmapClients : UInt32
  nMemRegions : UInt32
  /-- `memmap_ht`, from tokens to clients. -/
  memmapHt : List (UInt32 × Addr)
  /-- `shmmap_ht`, from handles to nodes. -/
  shmmapHt : List (UInt32 × Addr)
  /-- How many nodes were allocated so far: no list of nodes is longer, unless it is circular. -/
  allocated : ℕ

/-- What a call gives: the result code, what it writes to the pointer it is given, and the state
after it. -/
abbrev Returned := ArResult × UInt32 × Memorymap

/-- The token of a client. -/
def tokenOf (clientIdx : ℕ) : UInt32 := UInt32.ofNat (clientIdx + 1)

namespace Memorymap

/-- A write to the node at `p`. -/
def setNode (s : Memorymap) (p : Addr) (n : MemorymapNode) : Memorymap :=
  { s with nodes := update s.nodes p (some n) }

/-! ## Clients -/

/-- The client of a token, as the hash table has it. -/
def findClientPtr (s : Memorymap) (clientToken : UInt32) : Option (Addr × MemorymapClient) :=
  (s.memmapHt.lookup clientToken).bind fun p => (s.clients p).map fun c => (p, c)

/-- `memorymap_util_find_client`. -/
def utilFindClient (s : Memorymap) (clientToken : UInt32) : Option ArResult :=
  (s.findClientPtr clientToken).map fun r =>
    if s.memMapClientList r.2.clientId = some r.1 then .eok else .ehandle

/-- What the heap gives to `posal_memorymap_register`. -/
structure RegisterEnv where
  client : Option Addr
  hashNode : Bool

/-- `posal_memorymap_register`. -/
def register (s : Memorymap) (env : RegisterEnv) : Returned :=
  if memoryMapMaxClients ≤ s.numRegisteredMemmapClients.toNat then (.efailed, 0, s)
  else
    match (List.range memoryMapMaxClients).find? fun i => s.memMapClientList i = none with
    | none => (.efailed, 0, s)
    | some clientIdx =>
      let s := { s with numRegisteredMemmapClients := s.numRegisteredMemmapClients + 1 }
      match env.client with
      | none => (.enomemory, 0, s)
      | some p =>
        if env.hashNode then
          (.eok, tokenOf clientIdx, { s with
            clients := update s.clients p (some ⟨clientIdx, none⟩)
            memMapClientList := update s.memMapClientList clientIdx (some p)
            memmapHt := (tokenOf clientIdx, p) :: s.memmapHt })
        else (.enomemory, 0, { s with clients := update s.clients p (some ⟨0, none⟩) })

/-! ## Handles -/

/-- The loop over the nodes of a client, from `cur` on with `prev` before it, for one with the
id of the node of the handle.  Gives the node before it, or `none` if there is none. -/
def searchNode (s : Memorymap) (handleNode : Addr) :
    ℕ → Option Addr → Option Addr → Option (Option (Option Addr))
  | _, _, none => some none
  | 0, _, some _ => none
  | fuel + 1, prev, some p =>
    (s.nodes handleNode).bind fun h => (s.nodes p).bind fun n =>
      if h.shmemId = n.shmemId then some (some prev)
      else searchNode s handleNode fuel (some p) n.pNext

/-- `posal_memorymap_get_mem_map_handle`. -/
def getMemMapHandle (s : Memorymap) (clientToken uniqueShmemId24bit : UInt32) :
    Option (ArResult × UInt32) :=
  (s.utilFindClient clientToken).bind fun result =>
    if result ≠ .eok ∨ uniqueShmemId24bit = 0 then some (result, 0)
    else
      (s.findClientPtr clientToken).bind fun client =>
      (s.shmmapHt.lookup uniqueShmemId24bit).bind fun handleNode =>
      (s.searchNode handleNode s.allocated none client.2.pMemMapListNode).bind fun found =>
        match found with
        | none => some (.ebadparam, 0)
        | some _ => (s.nodes handleNode).map fun h => (.eok, h.shmemId)

/-- The commands of `memorymap_util_cmd_handler`. -/
inductive MemorymapCmd
  /-- `CMD_UPDATE_REF_COUNT`. -/
  | updateRefCount (count : Int16)
  /-- `CMD_SHM_MEM_UNMAP`. -/
  | shmMemUnmap
  deriving DecidableEq

/-- The link to a node of the client is set to the node after it. -/
def unlinkNode (s : Memorymap) (client : Addr × MemorymapClient) (prev next : Option Addr) :
    Option Memorymap :=
  match prev with
  | none =>
    let c := { client.2 with pMemMapListNode := next }
    some { s with clients := update s.clients client.1 (some c) }
  | some q => (s.nodes q).map fun before => s.setNode q { before with pNext := next }

/-- The node is freed. -/
def freeNode (s : Memorymap) (p : Addr) (n : MemorymapNode) : Memorymap :=
  { s with
    nodes := update s.nodes p none
    nMemRegions := s.nMemRegions - UInt32.ofNat n.regions.length }

/-- A command on the node of a handle, which the search in the list of the client has met. -/
def execCmd (s : Memorymap) (client : Addr × MemorymapClient) (prev : Option Addr)
    (handleNode : Addr) (n : MemorymapNode) : MemorymapCmd → Option (ArResult × Memorymap)
  | .updateRefCount count =>
    some (.eok, s.setNode handleNode { n with refCount := n.refCount + count })
  | .shmMemUnmap =>
    if n.refCount ≠ 0 then some (.enotready, s)
    else (s.unlinkNode client prev n.pNext).map fun s => (.eok, s.freeNode handleNode n)

/-- `memorymap_util_cmd_handler`. -/
def utilCmdHandler (s : Memorymap) (clientToken shmMemMapHandle : UInt32) (cmd : MemorymapCmd) :
    Option (ArResult × Memorymap) :=
  (s.utilFindClient clientToken).bind fun result =>
    if result ≠ .eok ∨ shmMemMapHandle = 0 then some (result, s)
    else
      (s.findClientPtr clientToken).bind fun client =>
      (s.shmmapHt.lookup shmMemMapHandle).bind fun handleNode =>
      (s.searchNode handleNode s.allocated none client.2.pMemMapListNode).bind fun found =>
        match found with
        | none => some (.ebadparam, s)
        | some prev =>
          (s.nodes handleNode).bind fun n => s.execCmd client prev handleNode n cmd

/-- `posal_memorymap_shm_incr_refcount`. -/
def shmIncrRefcount (s : Memorymap) (clientToken shmMemMapHandle : UInt32) :
    Option (ArResult × Memorymap) :=
  s.utilCmdHandler clientToken shmMemMapHandle (.updateRefCount 1)

/-- `posal_memorymap_shm_decr_refcount`. -/
def shmDecrRefcount (s : Memorymap) (clientToken shmMemMapHandle : UInt32) :
    Option (ArResult × Memorymap) :=
  s.utilCmdHandler clientToken shmMemMapHandle (.updateRefCount (-1))

/-- `posal_memorymap_shm_mem_unmap`. -/
def shmMemUnmap (s : Memorymap) (clientToken shmMemMapHandle : UInt32) :
    Option (ArResult × Memorymap) :=
  s.utilCmdHandler clientToken shmMemMapHandle .shmMemUnmap

/-! ## Mapping -/

/-- `posal_mem_map_v2_input_args_t`. -/
structure MapArgs where
  clientToken : UInt32
  /-- `shm_mem_reg_ptr`, with `num_shm_reg` regions. -/
  shmMemReg : List ShmRegion
  isOffsetMap : Bool
  poolId : UInt32
  /-- `unique_shmem_id_24bit`, `0` without one. -/
  uniqueShmemId24bit : UInt32

/-- What the heap and `mmap` give. -/
structure MapEnv where
  node : Option Addr
  hashNode : Bool
  /-- The address of region `i`, or `MAP_FAILED`. -/
  mmap : ℕ → Option UInt64

/-- The records of the regions from the one with the index `idx` on, if each was mapped. -/
def mapRegions (mmap : ℕ → ShmRegion → Option UInt64) :
    ℕ → List ShmRegion → Option (List RegionRecord)
  | _, [] => some []
  | idx, r :: regs => (mmap idx r).bind fun v =>
      (mapRegions mmap (idx + 1) regs).map fun records => ⟨r, v⟩ :: records

/-- The two checks of the id: it has 24 bits, and the client has no mapping under it. -/
def checkShmemId (s : Memorymap) (args : MapArgs) : Option Bool :=
  if args.uniqueShmemId24bit &&& 0xFF000000 ≠ 0 then some false
  else if args.uniqueShmemId24bit = 0 then some true
  else (s.getMemMapHandle args.clientToken args.uniqueShmemId24bit).map fun r => r.1 ≠ .eok

/-- `memorymap_util_add_mem_map_node_to_client`, with the node at `p` initialised. -/
def utilAddMemMapNodeToClient (s : Memorymap) (clientToken : UInt32) (p : Addr)
    (n : MemorymapNode) : Option Memorymap :=
  (s.findClientPtr clientToken).map fun client =>
    { s with
      nodes := update s.nodes p (some { n with pNext := client.2.pMemMapListNode })
      clients := update s.clients client.1 (some { client.2 with pMemMapListNode := some p })
      nMemRegions := s.nMemRegions + UInt32.ofNat n.regions.length }

/-- The part of the two mapping functions after the checks: the node is allocated, the regions
are mapped, and the node is added to the hash table and to the client.  `key` is the handle of a
mapping without a client-chosen id, at the address of its node. -/
def mapNode (s : Memorymap) (args : MapArgs) (env : MapEnv) (key : Addr → UInt32)
    (mmap : ℕ → ShmRegion → Option UInt64) (mode : MappingMode) : Option Returned :=
  (s.utilFindClient args.clientToken).bind fun result =>
    if result ≠ .eok then some (result, 0, s)
    else
      match env.node with
      | none => some (.enomemory, 0, s)
      | some p =>
        let id := if args.uniqueShmemId24bit ≠ 0 then args.uniqueShmemId24bit else key p
        let n : MemorymapNode := ⟨id, args.poolId, [], 0, mode, none⟩
        -- the node stays allocated when there is no memory for the hash node
        if ¬ env.hashNode then
          some (.enomemory, 0, { s.setNode p n with allocated := s.allocated + 1 })
        else
          match mapRegions mmap 0 args.shmMemReg with
          | none => some (.enomemory, 0, s)
          | some regions =>
            ({ s with
              shmmapHt := (id, p) :: s.shmmapHt
              allocated := s.allocated + 1 }.utilAddMemMapNodeToClient args.clientToken p
                { n with regions := regions }).map fun s => (.eok, id, s)

/-- `posal_memorymap_shm_mem_map_v2`: the handle of a mapping without an id is the file
descriptor, which comes in the address of the first region. -/
def shmMemMapV2 (s : Memorymap) (args : MapArgs) (env : MapEnv) : Option Returned :=
  (s.checkShmemId args).bind fun idOk =>
    if ¬ idOk then some (.efailed, 0, s)
    else if 1 < args.shmMemReg.length ∧ args.isOffsetMap then some (.ebadparam, 0, s)
    else
      match args.shmMemReg with
      | [] => some (.ebadparam, 0, s)
      | first :: _ =>
        s.mapNode args env (fun _ => first.shmAddrLsw) (fun i _ => env.mmap i)
          (if args.isOffsetMap then .physicalOffset else .physicalAddr)

/-- The virtual address that the client gives for a region. -/
def virtAddr (r : ShmRegion) : UInt64 :=
  (r.shmAddrMsw.toUInt64 <<< 32) ||| r.shmAddrLsw.toUInt64

/-- `posal_memorymap_virtaddr_mem_map_v2`: the handle of a mapping without an id is the address
of its node, cut to 32 bits. -/
def virtaddrMemMapV2 (s : Memorymap) (args : MapArgs) (env : MapEnv) : Option Returned :=
  (s.checkShmemId args).bind fun idOk =>
    if ¬ idOk then some (.efailed, 0, s)
    else if args.shmMemReg = [] then some (.ebadparam, 0, s)
    else
      s.mapNode args env UInt32.ofNat (fun _ r => some (virtAddr r))
        (if args.isOffsetMap then .virtualOffset else .virtualAddr)

/-! ## Unmapping everything -/

/-- The loop of `posal_memorymap_unmap_all`: nodes are freed up to one that is in use.  Gives
whether the end of the list was reached. -/
def unmapNodes : ℕ → Memorymap → Option Addr → Option (Bool × Memorymap)
  | _, s, none => some (true, s)
  | 0, _, some _ => none
  | fuel + 1, s, some p =>
    (s.nodes p).bind fun n =>
      if n.refCount ≠ 0 then some (false, s)
      else unmapNodes fuel (s.freeNode p n) n.pNext

/-- `posal_memorymap_unmap_all`: the result of the loop is dropped. -/
def unmapAll (s : Memorymap) (clientToken : UInt32) : Option (ArResult × Memorymap) :=
  (s.utilFindClient clientToken).bind fun result =>
    if result ≠ .eok then some (result, s)
    else
      (s.findClientPtr clientToken).bind fun client =>
      (unmapNodes s.allocated s client.2.pMemMapListNode).map fun r =>
        (.eok, if r.1 then { r.2 with
          clients := update r.2.clients client.1 (some { client.2 with pMemMapListNode := none }) }
        else r.2)

/-- `posal_memorymap_unregister`. -/
def unregister (s : Memorymap) (clientToken : UInt32) : Option (ArResult × Memorymap) :=
  (s.unmapAll clientToken).bind fun r =>
    (r.2.findClientPtr clientToken).map fun client =>
      if r.2.memMapClientList client.2.clientId = some client.1 then
        (r.1, { r.2 with
          memMapClientList := update r.2.memMapClientList client.2.clientId none
          numRegisteredMemmapClients := r.2.numRegisteredMemmapClients - 1
          clients := update r.2.clients client.1 none })
      else (.ehandle, r.2)

end Memorymap

/-! ## Calls -/

/-- The calls of the memory map, with what the heap and `mmap` give during the call. -/
inductive MemorymapCall
  /-- `posal_memorymap_register`. -/
  | register (env : Memorymap.RegisterEnv)
  /-- `posal_memorymap_unregister`. -/
  | unregister (clientToken : UInt32)
  /-- `posal_memorymap_shm_mem_map_v2`. -/
  | shmMemMap (args : Memorymap.MapArgs) (env : Memorymap.MapEnv)
  /-- `posal_memorymap_virtaddr_mem_map_v2`. -/
  | virtaddrMemMap (args : Memorymap.MapArgs) (env : Memorymap.MapEnv)
  /-- `posal_memorymap_shm_mem_unmap`. -/
  | shmMemUnmap (clientToken handle : UInt32)
  /-- `posal_memorymap_unmap_all`. -/
  | unmapAll (clientToken : UInt32)
  /-- `posal_memorymap_shm_incr_refcount`. -/
  | incrRefcount (clientToken handle : UInt32)
  /-- `posal_memorymap_shm_decr_refcount`. -/
  | decrRefcount (clientToken handle : UInt32)
  /-- `posal_memorymap_get_mem_map_handle`. -/
  | getMemMapHandle (clientToken shmemId : UInt32)

/-- A call. -/
def Memorymap.call (s : Memorymap) : MemorymapCall → Option Returned
  | .register env => some (s.register env)
  | .unregister t => (s.unregister t).map fun r => (r.1, 0, r.2)
  | .shmMemMap args env => s.shmMemMapV2 args env
  | .virtaddrMemMap args env => s.virtaddrMemMapV2 args env
  | .shmMemUnmap t handle => (s.shmMemUnmap t handle).map fun r => (r.1, 0, r.2)
  | .unmapAll t => (s.unmapAll t).map fun r => (r.1, 0, r.2)
  | .incrRefcount t handle => (s.shmIncrRefcount t handle).map fun r => (r.1, 0, r.2)
  | .decrRefcount t handle => (s.shmDecrRefcount t handle).map fun r => (r.1, 0, r.2)
  | .getMemMapHandle t shmemId => (s.getMemMapHandle t shmemId).map fun r => (r.1, r.2, s)

/-- `posal_memorymap_global_init`. -/
def Memorymap.init : Memorymap :=
  ⟨fun _ => none, fun _ => none, fun _ => none, 0, 0, [], [], 0⟩

end AudioReach
