import AudioReach.ArResult
import AudioReach.Library.Runs

/-!
# Packet pools of the packet router

`__gpr_cmd_alloc_v2`, `__gpr_cmd_free` and `__gpr_cmd_end_command` of
`gpr_drv_island.c`, with the pools set up by `gpr_drv_internal_init_v2` and the dynamic
packets of `gpr_dynamic_allocation.c`.

A packet of a static pool is named by its pool and its unit there; the address ranges by
which the code recognises the pool of a packet are those of the pools' memory, and they
are disjoint.  A dynamic packet is named by a number that stands for the address the
heap returned.  The outcome of each heap allocation is an argument of the call that
makes it.

Two fields record what no code reads: the packets that were handed out and not yet given
back, each with the pools that were charged for it, and the packets given back so far.
They are what the accounting is about.
-/

namespace AudioReach

/-! ## Data -/

/-- A packet: a unit of a static pool, or a heap packet. -/
inductive GprPacket
  | unit (pool index : ℕ)
  | dyn (address : ℕ)
  deriving DecidableEq, Repr

/-- A pool, by its index among the static or among the dynamic ones. -/
inductive GprPool
  | static (index : ℕ)
  | dyn (index : ℕ)
  deriving DecidableEq, Repr

/-- `gpr_packet_pool_info_v2_t`: one pool of the configuration. -/
structure GprPacketPoolInfo where
  isDynamic : Bool
  heapIndex : UInt32
  numPackets : UInt32
  packetSize : UInt32
  deriving DecidableEq, Repr

/-- `gpr_drv_pkt_static_pool_info_t` with its memory queue. -/
structure GprStaticPool where
  bufSize : UInt32
  numPackets : UInt32
  heapIndex : UInt32
  unitBytes : ℕ
  /-- Number of units the pool's memory was cut into. -/
  totalUnits : ℕ
  freeQ : List ℕ
  deriving Inhabited

/-- `gpr_drv_pkt_dynamic_pool_info_t`. -/
structure GprDynPool where
  bufSize : UInt32
  maxNumPackets : UInt32
  currNumPackets : UInt32
  heapIndex : UInt32
  deriving Inhabited

/-- `gpr_dynamic_packet_t`: a heap packet and the bytes allocated for it. -/
structure GprDynamicPacket where
  address : ℕ
  bytes : ℕ

/-- A packet that was handed out: what was asked for and which pools were charged. -/
structure GprLivePacket where
  packet : GprPacket
  charged : List GprPool
  /-- The `alloc_size` of the request. -/
  allocSize : UInt32
  heapIndex : UInt32
  deriving DecidableEq, Repr

/-- The packet part of `gpr_ctxt_struct_t`, the list of dynamic packets and the packets'
headers in memory. -/
structure GprCtxt where
  numStaticPacketPools : ℕ
  staticPoolArr : ℕ → GprStaticPool
  numDynPacketPools : ℕ
  dynPoolArr : ℕ → GprDynPool
  dynamicPacketList : List GprDynamicPacket
  header : GprPacket → UInt32
  nextAddress : ℕ
  /-- What the datalink layer answers to a packet that is given to it. -/
  receiveDone : ArResult
  live : List GprLivePacket
  returned : List GprPacket

namespace GprCtxt

/-- Change one static pool. -/
def setStatic (ctx : GprCtxt) (idx : ℕ) (pool : GprStaticPool) : GprCtxt :=
  { ctx with staticPoolArr := Function.update ctx.staticPoolArr idx pool }

/-- Change the counter of one dynamic pool. -/
def setCurr (ctx : GprCtxt) (idx : ℕ) (curr : UInt32) : GprCtxt :=
  { ctx with dynPoolArr :=
      Function.update ctx.dynPoolArr idx { ctx.dynPoolArr idx with currNumPackets := curr } }

end GprCtxt

/-! ## Packet headers -/

/-- `GPR_PKT_HEADER_BYTE_SIZE_V`: six words. -/
def gprPktHeaderByteSize : UInt32 := 24

/-- `GPR_SET_BITMASK`. -/
def gprSetBitmask (mask shift value : UInt32) : UInt32 :=
  (value <<< shift) &&& mask

/-- `GPR_GET_BITMASK`. -/
def gprGetBitmask (mask shift value : UInt32) : UInt32 :=
  (value &&& mask) >>> shift

/-- The header word written at allocation: version, header size in words, packet size. -/
def gprPktHeader (packetSize : UInt32) : UInt32 :=
  gprSetBitmask 0x0000000F 0 0 ||| gprSetBitmask 0x000000F0 4 6 |||
    gprSetBitmask 0xFFFFFF00 8 packetSize

/-- `GPR_PKT_GET_PACKET_BYTE_SIZE`. -/
def gprPktGetPacketByteSize (header : UInt32) : UInt32 :=
  gprGetBitmask 0xFFFFFF00 8 header

/-! ## Allocation -/

/-- The two heap allocations of `gpr_allocate_dynamic_packet`: both succeed, the first
one fails, or the second one does. -/
inductive GprMallocOutcome
  | ok
  | nodeFails
  | packetFails
  deriving DecidableEq, Repr

namespace GprCtxt

/-- `gpr_memq_alloc`: the first free unit. -/
def gprMemqAlloc (ctx : GprCtxt) (idx : ℕ) : Option GprPacket × GprCtxt :=
  match (ctx.staticPoolArr idx).freeQ with
  | [] => (none, ctx)
  | u :: rest => (some (.unit idx u), ctx.setStatic idx { ctx.staticPoolArr idx with freeQ := rest })

/-- The test by which a static pool is picked. -/
def staticFits (ctx : GprCtxt) (packetSize heapIndex : UInt32) (idx : ℕ) : Bool :=
  packetSize ≤ (ctx.staticPoolArr idx).bufSize && heapIndex == (ctx.staticPoolArr idx).heapIndex

/-- The test by which a dynamic pool is picked. -/
def dynFits (ctx : GprCtxt) (packetSize heapIndex : UInt32) (idx : ℕ) : Bool :=
  packetSize ≤ (ctx.dynPoolArr idx).bufSize &&
    (ctx.dynPoolArr idx).currNumPackets < (ctx.dynPoolArr idx).maxNumPackets &&
    heapIndex == (ctx.dynPoolArr idx).heapIndex

/-- The first loop of `__gpr_cmd_alloc_v2`: only the first static pool that fits is tried. -/
def allocStatic (ctx : GprCtxt) (packetSize heapIndex : UInt32) :
    Option GprPacket × List GprPool × GprCtxt :=
  match (List.range ctx.numStaticPacketPools).find? (ctx.staticFits packetSize heapIndex) with
  | none => (none, [], ctx)
  | some idx =>
      let (packet, ctx) := ctx.gprMemqAlloc idx
      (packet, [.static idx], ctx)

/-- `gpr_allocate_dynamic_packet`: what `*packet` holds afterwards, and the packet on the
list of dynamic packets.  If the list node cannot be allocated, `*packet` is not
written. -/
def gprAllocateDynamicPacket (ctx : GprCtxt) (packet : Option GprPacket) (size : UInt32) :
    GprMallocOutcome → Option GprPacket × GprCtxt
  | .nodeFails => (packet, ctx)
  | .packetFails => (none, ctx)
  | .ok =>
      (some (.dyn ctx.nextAddress),
        { ctx with
          dynamicPacketList := ctx.dynamicPacketList ++ [⟨ctx.nextAddress, size.toNat⟩]
          nextAddress := ctx.nextAddress + 1 })

/-- The second loop of `__gpr_cmd_alloc_v2`, over the dynamic pools from some index on.
Every pool that fits is charged, also after a packet was found.  A loop that ends without
a packet ends the call with `AR_ENORESOURCE`. -/
def allocDynamic (packetSize heapIndex : UInt32) (mallocs : ℕ → GprMallocOutcome) :
    List ℕ → Option GprPacket × List GprPool × GprCtxt → Option GprPacket × List GprPool × GprCtxt
  | [], found => found
  | idx :: rest, (packet, charged, ctx) =>
      if ctx.dynFits packetSize heapIndex idx then
        match ctx.gprAllocateDynamicPacket packet packetSize (mallocs idx) with
        | (none, ctx) => (none, charged, ctx)
        | (some packet, ctx) =>
            allocDynamic packetSize heapIndex mallocs rest (some packet, charged ++ [.dyn idx],
                ctx.setCurr idx ((ctx.dynPoolArr idx).currNumPackets + 1))
      else
        allocDynamic packetSize heapIndex mallocs rest (packet, charged, ctx)

/-- `__gpr_cmd_alloc_v2`. -/
def gprCmdAllocV2 (ctx : GprCtxt) (allocSize heapIndex : UInt32)
    (mallocs : ℕ → GprMallocOutcome) : ArResult × Option GprPacket × GprCtxt :=
  let packetSize := gprPktHeaderByteSize + allocSize
  let fromStatic := ctx.allocStatic packetSize heapIndex
  let found :=
    if fromStatic.1 = none then
      allocDynamic packetSize heapIndex mallocs (List.range ctx.numDynPacketPools)
        (none, [], fromStatic.2.2)
    else fromStatic
  match found with
  | (none, _, ctx) => (.enoresource, none, ctx)
  | (some packet, charged, ctx) =>
      (.eok, some packet,
        { ctx with
          header := Function.update ctx.header packet (gprPktHeader packetSize)
          live := ctx.live ++ [⟨packet, charged, allocSize, heapIndex⟩] })

/-! ## Giving packets back -/

/-- The test by which a dynamic pool is picked when a packet comes back. -/
def dynTakesBack (ctx : GprCtxt) (packetSize : UInt32) (idx : ℕ) : Bool :=
  packetSize ≤ (ctx.dynPoolArr idx).bufSize && 0 < (ctx.dynPoolArr idx).currNumPackets

/-- `gpr_memq_free`: the unit goes to the end of the queue; a unit that is in the queue
already is refused there. -/
def gprMemqFree (ctx : GprCtxt) (idx u : ℕ) : GprCtxt :=
  let pool := ctx.staticPoolArr idx
  if u ∈ pool.freeQ then ctx else ctx.setStatic idx { pool with freeQ := pool.freeQ ++ [u] }

/-- `__gpr_cmd_free`.  A unit goes back to its pool.  A dynamic packet is released by the
first dynamic pool that is large enough and has packets out, whichever pool that is.
Any other packet belongs to the datalink layer. -/
def gprCmdFree (ctx : GprCtxt) (packet : GprPacket) : ArResult × GprCtxt :=
  let packetSize := gprPktGetPacketByteSize (ctx.header packet)
  let ctx := { ctx with
    live := ctx.live.filter (fun l => l.packet ≠ packet)
    returned := ctx.returned ++ [packet] }
  match packet with
  | .unit idx u =>
      if packetSize ≤ (ctx.staticPoolArr idx).bufSize then (.eok, ctx.gprMemqFree idx u)
      else (.ebadparam, ctx)
  | .dyn address =>
      match (List.range ctx.numDynPacketPools).find? (fun idx =>
        ctx.dynTakesBack packetSize idx && ctx.dynamicPacketList.any (·.address == address)) with
      | some idx =>
          (.eok, { ctx with
            dynamicPacketList := ctx.dynamicPacketList.filter (·.address ≠ address) }.setCurr idx
              ((ctx.dynPoolArr idx).currNumPackets - 1))
      | none => (ctx.receiveDone, ctx)

/-- Is a packet with this opcode answered by a basic response? -/
def needsResponse (opcode : UInt32) : Bool :=
  let opcodeType := (opcode &&& 0x0F000000) >>> 24
  !(opcodeType &&& 0x2 == 0x2 || opcodeType &&& 0x5 == 0x5 || opcodeType &&& 0x3 == 0x3 ||
    opcodeType &&& 0x6 == 0x6)

/-- The heap index `__gpr_cmd_end_command` asks for: that of the static pool the command
packet is from, else the default one. -/
def responseHeapIndex (ctx : GprCtxt) : GprPacket → UInt32
  | .unit idx _ => (ctx.staticPoolArr idx).heapIndex
  | .dyn _ => 0

/-- `__gpr_cmd_end_command` on a command packet with the given opcode.  `sendRc` is the
result of `__gpr_cmd_async_send`; a response that was sent belongs to its receiver. -/
def gprCmdEndCommand (ctx : GprCtxt) (packet : GprPacket) (opcode : UInt32)
    (mallocs : ℕ → GprMallocOutcome) (sendRc : ArResult) : ArResult × GprCtxt :=
  if needsResponse opcode then
    -- the payload is a `gpr_ibasic_rsp_result_t`, two words
    match ctx.gprCmdAllocV2 8 (ctx.responseHeapIndex packet) mallocs with
    | (.eok, some response, ctx) =>
        if sendRc = .eok then (.eok, (ctx.gprCmdFree packet).2)
        else (sendRc, ((ctx.gprCmdFree response).2.gprCmdFree packet).2)
    | (rc, _, ctx) => (rc, (ctx.gprCmdFree packet).2)
  else (.eok, (ctx.gprCmdFree packet).2)

end GprCtxt

/-! ## Initialisation -/

/-- The static pool made from its configuration: the memory is cut into units of the
packet size plus the queue entry and one metadata word, with 32-bit sizes throughout. -/
def GprPacketPoolInfo.staticPool (entrySize : ℕ) (info : GprPacketPoolInfo) : GprStaticPool :=
  let unitSize := UInt32.ofNat (entrySize + info.packetSize.toNat + 4)
  let totalUnits := (info.numPackets * unitSize).toNat / unitSize.toNat
  { bufSize := info.packetSize
    numPackets := info.numPackets
    heapIndex := info.heapIndex
    unitBytes := unitSize.toNat - (entrySize + 4)
    totalUnits := totalUnits
    freeQ := List.range totalUnits }

/-- The dynamic pool made from its configuration. -/
def GprPacketPoolInfo.dynPool (info : GprPacketPoolInfo) : GprDynPool where
  bufSize := info.packetSize
  maxNumPackets := info.numPackets
  currNumPackets := 0
  heapIndex := info.heapIndex

/-- `gpr_drv_internal_init_v2`, as far as packets go: at most 128 pools, with valid heap
indices and units that hold their metadata.  `entrySize` is the size of a queue entry
and `mallocOk` says that the memory for the pools is there. -/
def gprDrvInternalInitV2 (entrySize : ℕ) (mallocOk : Bool) (receiveDone : ArResult)
    (pools : List GprPacketPoolInfo) : Except ArResult GprCtxt :=
  let statics := pools.filter (fun p => !p.isDynamic)
  let dynamics := pools.filter (fun p => p.isDynamic)
  if pools.length > 128 then .error .efailed
  else if pools.any (fun p => p.heapIndex > 1) then .error .efailed
  else if mallocOk = false then .error .efailed
  else if statics.any (fun p => UInt32.ofNat (entrySize + p.packetSize.toNat + 4) < 4) then
    .error .efailed
  else .ok
    { numStaticPacketPools := statics.length
      staticPoolArr := fun i => (statics.map (GprPacketPoolInfo.staticPool entrySize)).getD i default
      numDynPacketPools := dynamics.length
      dynPoolArr := fun i => (dynamics.map GprPacketPoolInfo.dynPool).getD i default
      dynamicPacketList := []
      header := fun _ => 0
      nextAddress := 0
      receiveDone := receiveDone
      live := []
      returned := [] }

/-! ## Calls -/

/-- The calls on the packet pools. -/
inductive GprPacketCall
  | alloc (allocSize heapIndex : UInt32) (mallocs : ℕ → GprMallocOutcome)
  | free (packet : GprPacket)
  | endCommand (packet : GprPacket) (opcode : UInt32) (mallocs : ℕ → GprMallocOutcome)
      (sendRc : ArResult)

/-- The state after a call. -/
def GprCtxt.step (ctx : GprCtxt) : GprPacketCall → GprCtxt
  | .alloc allocSize heapIndex mallocs => (ctx.gprCmdAllocV2 allocSize heapIndex mallocs).2.2
  | .free packet => (ctx.gprCmdFree packet).2
  | .endCommand packet opcode mallocs sendRc =>
      (ctx.gprCmdEndCommand packet opcode mallocs sendRc).2

end AudioReach
