import AudioReach.TopoBuf.Model

/-!
# Buffers at the ports of a topology

The ports of a container get their buffers from the buffer manager, or they share the buffer of
a neighbour: an in-place module has one buffer at its input and output, and the two ends of a
connection may use one buffer.  A port may also borrow memory inside the buffer of the end of
its chain.  `buf_origin` tells which; only buffers of origin `GEN_TOPO_BUF_ORIGIN_BUF_MGR` are
counted.

The model follows `gen_topo_buf_mgr.h` and `gen_topo_buf_util_island.c`.  The state is the
manager and what each port knows of its first buffer.  Everything else that the functions read
(the connections, the modules, lengths and formats, the mode) changes between the calls for
reasons of its own and is an argument of each call, `TopoGraph`.  The other buffers of a port
follow its first one and are left out.
-/

namespace AudioReach

open Function (update)

/-- `GEN_TOPO_BUF_ORIGIN_*`. -/
inductive BufOrigin
  | invalid
  | bufMgr
  | extBuf
  | extBufBorrowed
  | bufMgrBorrowed
  | capiModule
  | capiModuleBorrowed
  deriving DecidableEq

/-- What a port knows of its buffer: `bufs_ptr[0]` and two of its flags. -/
structure PortBuf where
  dataPtr : Option Addr
  maxDataLen : UInt32
  bufOrigin : BufOrigin
  forceReturnBuf : Bool
  deriving DecidableEq

/-- What the functions read of a port besides its buffer. -/
structure PortAttrs where
  actualDataLen : UInt32
  /-- `sdata.bufs_num`, the number of entries of `bufs_ptr`. -/
  bufsNum : UInt32
  bufsNum_pos : 0 < bufsNum
  maxBufLen : UInt32
  maxBufLenPerBuf : UInt32
  /-- `data_flow_state` is `TOPO_DATA_FLOW_STATE_AT_GAP`. -/
  atGap : Bool
  downstreamReqDataBuffering : Bool
  /-- `gen_topo_is_port_in_realtime_path`. -/
  inRealtimePath : Bool
  pcmNotInterleaved : Bool

/-- What the functions read of a module. -/
structure TopoModule where
  inputPorts : List Addr
  outputPorts : List Addr
  inplace : Bool
  dynamicInplace : Bool
  /-- `bypass_ptr` is set. -/
  bypass : Bool
  numProcLoops : UInt32
  /-- The type is `AMDB_MODULE_TYPE_DEPACKETIZER`. -/
  isDepacketizer : Bool
  /-- The type is `AMDB_MODULE_TYPE_PACKETIZER`. -/
  isPacketizer : Bool

/-- The topology at the time of a call. -/
structure TopoGraph where
  /-- The mode of the manager is `TOPO_BUF_LOW_LATENCY`. -/
  lowLatency : Bool
  attrs : Addr → PortAttrs
  moduleOf : Addr → TopoModule
  /-- `conn_in_port_ptr` of an output port. -/
  connInPort : Addr → Option Addr
  hasExtOutPort : Addr → Bool
  hasExtInPort : Addr → Bool
  /-- `nblc_end_ptr` of an output port. -/
  outNblcEnd : Addr → Option Addr
  /-- `nblc_start_ptr` of an input port. -/
  inNblcStart : Addr → Option Addr
  /-- `nblc_end_ptr` of an input port. -/
  inNblcEnd : Addr → Option Addr
  /-- `started_sorted_module_list_ptr`. -/
  startedSortedModules : List TopoModule
  /-- The number of ports, a bound on the rounds of the walks along a chain. -/
  numPorts : ℕ

/-- What the heap and the clock would answer to a call of the manager. -/
structure MgrEnv where
  malloc : Option Addr
  curTs : UInt64
  islandEntry : Bool

/-- `gen_topo_is_inplace_or_disabled_siso`. -/
def TopoModule.isInplaceOrDisabledSiso (md : TopoModule) : Bool :=
  (md.inplace || md.dynamicInplace || (md.bypass && md.numProcLoops == 1)) &&
    md.inputPorts.length == 1 && md.outputPorts.length == 1

namespace TopoGraph

/-- The walk of `gen_topo_is_inplace_until_nblc_end` from the output port `curr`. -/
def inplaceUntilLoop (g : TopoGraph) (nblcEnd : Addr) : ℕ → Addr → Option Bool
  | 0, _ => none
  | rounds + 1, curr =>
    if curr = nblcEnd then some true
    else
      match g.connInPort curr with
      | none => some false
      | some nextIn =>
        if (g.moduleOf nextIn).inplace then
          match (g.moduleOf nextIn).outputPorts with
          | [] => some false
          | out :: _ => inplaceUntilLoop g nblcEnd rounds out
        else some false

/-- `gen_topo_is_inplace_until_nblc_end`; `none` if the walk does not end. -/
def isInplaceUntilNblcEnd (g : TopoGraph) (out : Addr) : Option Bool :=
  match g.outNblcEnd out with
  | none => some false
  | some nblcEnd => g.inplaceUntilLoop nblcEnd (g.numPorts + 1) out

/-- The walk of `gen_topo_is_inplace_nblc_from_ext_input_util_` from the input port `next`. -/
def inplaceFromLoop (g : TopoGraph) (nblcEnd : Addr) : ℕ → Addr → Option Bool
  | 0, _ => none
  | rounds + 1, next =>
    if next = nblcEnd then some true
    else if (g.moduleOf next).inplace then
      match (g.moduleOf next).outputPorts with
      | [] => some false
      | out :: _ =>
        match g.connInPort out with
        | none => none
        | some next => inplaceFromLoop g nblcEnd rounds next
    else some false

/-- `gen_topo_is_inplace_nblc_from_ext_input_util_`; `none` if the walk does not end, or leaves
the chain. -/
def isInplaceNblcFromExtInput (g : TopoGraph) (inp : Addr) : Option Bool :=
  match g.inNblcStart inp, g.inNblcEnd inp with
  | some nblcStart, some nblcEnd =>
    if g.hasExtInPort nblcStart then g.inplaceFromLoop nblcEnd (g.numPorts + 1) inp
    else some false
  | _, _ => some false

end TopoGraph

/-- The manager and the buffers at the ports. -/
structure TopoPorts where
  mgr : TopoBufMgr
  bufs : Addr → PortBuf

namespace TopoPorts

/-- Changes the buffer at a port. -/
def setBuf (s : TopoPorts) (p : Addr) (buf : PortBuf) : TopoPorts :=
  { s with bufs := update s.bufs p buf }

/-! ## Counting users -/

/-- `gen_topo_buf_mgr_wrapper_inc_ref_count`, for the buffer at `p`. -/
def incRefCount (s : TopoPorts) (p : Addr) : TopoPorts :=
  if (s.bufs p).bufOrigin = .bufMgr then
    match (s.bufs p).dataPtr with
    | none => s
    | some dataPtr =>
      { s with mgr := s.mgr.modifyElem (dataPtr - tbfBufPtrOffset) fun e =>
          { e with refCount := e.refCount + 1 } }
  else s

/-- `gen_topo_buf_mgr_wrapper_dec_ref_count_return`, for the buffer at `dataPtr`. -/
def decRefCountReturn (m : TopoBufMgr) (dataPtr : Addr) : Option TopoBufMgr :=
  let wrapper := dataPtr - tbfBufPtrOffset
  let m :=
    if (m.elems wrapper).refCount ≥ 1 then
      m.modifyElem wrapper fun e => { e with refCount := e.refCount - 1 }
    else m
  if (m.elems wrapper).refCount = 0 then m.returnBuf dataPtr else some m

/-! ## Getting a buffer -/

/-- `gen_topo_buf_mgr_wrapper_get_buf`, for the port `p`. -/
def wrapperGetBuf (s : TopoPorts) (attrs : PortAttrs) (env : MgrEnv) (p : Addr) :
    Option (ArResult × TopoPorts) :=
  if attrs.maxBufLen = 0 then some (.eok, s)
  else
    match s.mgr.getBuf attrs.maxBufLen env.malloc env.curTs env.islandEntry with
    | none => none
    | some (result, none, m) => some (result, { s with mgr := m })
    | some (result, some buf, m) =>
      some (result, { s with mgr := m }.setBuf p { s.bufs p with
        dataPtr := some buf
        maxDataLen := attrs.maxBufLenPerBuf
        bufOrigin := .bufMgr })

/-- `gen_topo_assign_bufs_ptr` for the first buffer: `dst` uses the memory of `src`. -/
def assignBufsPtr (dst src : PortBuf) : PortBuf :=
  { dst with dataPtr := src.dataPtr, maxDataLen := src.maxDataLen }

/-- The buffer of `src` is shared with `p`. -/
def share (s : TopoPorts) (p src : Addr) : TopoPorts :=
  (s.setBuf p { assignBufsPtr (s.bufs p) (s.bufs src) with
    bufOrigin := (s.bufs src).bufOrigin }).incRefCount p

/-- The free part of the buffer of `src`, behind its data, is lent to `p`. -/
def borrow (s : TopoPorts) (srcAttrs : PortAttrs) (p src : Addr) (origin : BufOrigin) : TopoPorts :=
  s.setBuf p { s.bufs p with
    dataPtr := (s.bufs src).dataPtr.map (· + srcAttrs.actualDataLen.toNat)
    maxDataLen := (s.bufs src).maxDataLen - srcAttrs.actualDataLen
    bufOrigin := origin }

/-- An output port of a module that is not in-place looks for a buffer at the end of its
chain. -/
def borrowFromNblcEnd (s : TopoPorts) (g : TopoGraph) (out nblcEnd : Addr) : TopoPorts :=
  if g.hasExtOutPort nblcEnd ∧ (s.bufs nblcEnd).dataPtr ≠ none then
    s.setBuf out { assignBufsPtr (s.bufs out) (s.bufs nblcEnd) with
      bufOrigin := .extBufBorrowed }
  else
    match g.connInPort nblcEnd with
    | none => s
    | some endIn =>
      if (s.bufs endIn).dataPtr ≠ none ∧
          (g.lowLatency ∨ (s.bufs endIn).bufOrigin = .extBufBorrowed) ∧
          ¬ ((g.attrs out).pcmNotInterleaved ∨ (g.attrs endIn).pcmNotInterleaved ∨
            (g.moduleOf endIn).isDepacketizer ∨ (g.moduleOf out).isPacketizer) then
        s.borrow (g.attrs endIn) out endIn
          (if (s.bufs endIn).bufOrigin = .extBufBorrowed then .extBufBorrowed else .bufMgrBorrowed)
      else s

/-- `gen_topo_check_get_out_buf_from_buf_mgr`. -/
def checkGetOutBuf (s : TopoPorts) (g : TopoGraph) (env : MgrEnv) (out : Addr) :
    Option (ArResult × TopoPorts) :=
  if (s.bufs out).dataPtr ≠ none then some (.eok, s)
  else
    let looked :=
      if (g.moduleOf out).isInplaceOrDisabledSiso then
        match (g.moduleOf out).inputPorts with
        | [] => none
        | inp :: _ => some (if (s.bufs inp).dataPtr ≠ none then s.share out inp else s)
      else
        match g.isInplaceUntilNblcEnd out, g.outNblcEnd out with
        | some true, some nblcEnd => some (s.borrowFromNblcEnd g out nblcEnd)
        | some _, _ => some s
        | none, _ => none
    match looked with
    | none => none
    | some s =>
      if (s.bufs out).dataPtr = none then s.wrapperGetBuf (g.attrs out) env out
      else some (.eok, s)

/-- `gen_topo_check_get_in_buf_from_buf_mgr`; `prevOut` is the output port before the input
port `inp`. -/
def checkGetInBuf (s : TopoPorts) (g : TopoGraph) (env : MgrEnv) (inp : Addr)
    (prevOut : Option Addr) : Option (ArResult × TopoPorts) :=
  if (s.bufs inp).dataPtr ≠ none then some (.eok, s)
  else
    match prevOut.filter fun out => (s.bufs out).dataPtr ≠ none ∧
        (g.attrs inp).maxBufLenPerBuf ≤ (s.bufs out).maxDataLen ∧
        (g.attrs out).bufsNum = (g.attrs inp).bufsNum with
    | some out => some (.eok, s.share inp out)
    | none =>
      let looked :=
        match g.inNblcEnd inp, g.isInplaceNblcFromExtInput inp with
        | some nblcEnd, some true =>
          some (if (s.bufs nblcEnd).dataPtr ≠ none ∧
              ¬ ((g.attrs inp).pcmNotInterleaved ∨ (g.attrs nblcEnd).pcmNotInterleaved) then
            s.borrow (g.attrs nblcEnd) inp nblcEnd .bufMgrBorrowed
          else s)
        | some _, none => none
        | _, _ => some s
      match looked with
      | none => none
      | some s =>
        if (s.bufs inp).dataPtr = none then s.wrapperGetBuf (g.attrs inp) env inp
        else some (.eok, s)

/-! ## Giving a buffer back -/

/-- A buffer is kept in low latency mode while data flows in a real-time path. -/
def held (g : TopoGraph) (p : Addr) (buf : PortBuf) : Bool :=
  g.lowLatency && !buf.forceReturnBuf && !(g.attrs p).atGap &&
    !(g.attrs p).downstreamReqDataBuffering && (g.attrs p).inRealtimePath

/-- The data pointer is cleared, but for external buffers. -/
def clearPtr (s : TopoPorts) (p : Addr) : TopoPorts :=
  if (s.bufs p).bufOrigin ≠ .extBuf then s.setBuf p { s.bufs p with dataPtr := none } else s

/-- `gen_topo_return_one_buf_mgr_buf`. -/
def returnOneBufMgrBuf (s : TopoPorts) (g : TopoGraph) (p : Addr) : Option TopoPorts :=
  match (s.bufs p).dataPtr with
  | none => some (s.clearPtr p)
  | some dataPtr =>
    if (s.bufs p).bufOrigin = .bufMgr then
      if held g p (s.bufs p) then some s
      else
        let s := if g.lowLatency then s.setBuf p { s.bufs p with forceReturnBuf := false } else s
        match decRefCountReturn s.mgr dataPtr with
        | none => none
        | some m => some ({ s with mgr := m }.clearPtr p)
    else some (s.clearPtr p)

/-- `gen_topo_check_return_one_buf_mgr_buf`. -/
def checkReturnOneBufMgrBuf (s : TopoPorts) (g : TopoGraph) (p : Addr) : Option TopoPorts :=
  if (s.bufs p).dataPtr = none ∨ (g.attrs p).actualDataLen ≠ 0 then some s
  else s.returnOneBufMgrBuf g p

/-- One round of `gen_topo_mark_buf_mgr_buffers_to_force_return`. -/
def markPort (s : TopoPorts) (g : TopoGraph) (p : Addr) : Option TopoPorts :=
  if (s.bufs p).bufOrigin = .bufMgr then
    (s.setBuf p { s.bufs p with forceReturnBuf := true }).checkReturnOneBufMgrBuf g p
  else some s

/-- The rounds of `gen_topo_mark_buf_mgr_buffers_to_force_return`. -/
def markPorts (g : TopoGraph) : List Addr → TopoPorts → Option TopoPorts
  | [], s => some s
  | p :: ports, s =>
    match s.markPort g p with
    | none => none
    | some s => markPorts g ports s

/-- `gen_topo_mark_buf_mgr_buffers_to_force_return`. -/
def markBufMgrBuffersToForceReturn (s : TopoPorts) (g : TopoGraph) : Option TopoPorts :=
  markPorts g (g.startedSortedModules.flatMap fun md => md.inputPorts ++ md.outputPorts) s

end TopoPorts

end AudioReach
