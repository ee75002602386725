import AudioReach.GraphUtils.Sort

/-!
# Opening a graph

`gu_create_graph` works through an open command: subgraphs, modules, module properties,
data links, control links, module loading, attachment of elementary modules and the sort.
It stops at the first failure and leaves what it has built; cleaning up is left to the
container.

The command is given parsed.  The module database is a parameter: `AmdbAnswer` is what it
says about a module id.
-/

namespace AudioReach

open Function (update)
open Library

/-! ## The command -/

/-- The subgraph properties, with the values `gu_parse_subgraph_props` verifies. -/
inductive ApmSubGraphProp
  | perfMode (size : ℕ) (mode : UInt32)
  | direction (size : ℕ) (dir : UInt32)
  | scenarioId (size : ℕ) (sid : UInt32)
  | vsid
  | clockScaleFactor (size : ℕ) (enableDutyCycling : ℕ)
  | bwScaleFactor (size : ℕ)
  | unsupported
  deriving DecidableEq, Repr

/-- `apm_sub_graph_cfg_t`. -/
structure ApmSubGraphCfg where
  subGraphId : UInt32
  props : List ApmSubGraphProp
  deriving DecidableEq, Repr

/-- `apm_module_cfg_t`. -/
structure ApmModuleCfg where
  moduleId : UInt32
  instanceId : UInt32
  deriving DecidableEq, Repr

/-- `apm_modules_list_t`. -/
structure ApmModulesList where
  subGraphId : UInt32
  modules : List ApmModuleCfg
  deriving DecidableEq, Repr

/-- The module properties. -/
inductive ApmModuleProp
  | portInfo (size : ℕ) (maxIpPort maxOpPort : UInt32)
  | heapId (id : UInt32)
  | unsupported
  deriving DecidableEq, Repr

/-- `apm_module_prop_cfg_t`. -/
structure ApmModulePropCfg where
  instanceId : UInt32
  props : List ApmModuleProp
  deriving DecidableEq, Repr

/-- `apm_module_conn_cfg_t`: a data link. -/
structure ApmModuleConnCfg where
  srcModInstId : UInt32
  srcModOpPortId : UInt32
  dstModInstId : UInt32
  dstModIpPortId : UInt32
  deriving DecidableEq, Repr

/-- `apm_module_ctrl_link_cfg_t`: a control link. -/
structure ApmModuleCtrlLinkCfg where
  peer1ModIid : UInt32
  peer1ModCtrlPortId : UInt32
  peer2ModIid : UInt32
  peer2ModCtrlPortId : UInt32
  deriving DecidableEq, Repr

/-- `spf_msg_cmd_graph_open_t`.  Null entries of the module list are left out, as the
source skips them. -/
structure GraphOpenCmd where
  sgCfgList : List ApmSubGraphCfg
  modList : List ApmModulesList
  modPropCfgList : List ApmModulePropCfg
  modConnList : List ApmModuleConnCfg
  modCtrlLinkCfgList : List ApmModuleCtrlLinkCfg
  /-- Peers of control links in other domains, with their domain. -/
  imclPeerDomainInfo : List (UInt32 × UInt32)
  deriving DecidableEq, Repr

/-- What the module database says about a module id, and the static properties of the module. -/
structure AmdbAnswer where
  found : Bool
  interfaceType : ℕ
  moduleType : ℕ
  handle : Bool
  /-- The static property `CAPI_IS_ELEMENTARY`. -/
  isElementary : Bool
  /-- The static property `CAPI_MIN_PORT_NUM_INFO`, unless it is left invalid. -/
  minPorts : Option (ℕ × ℕ)
  deriving DecidableEq, Repr

/-- What an open command depends on besides the graph. -/
structure OpenEnv where
  amdb : UInt32 → AmdbAnswer
  island : Bool
  hostDomainId : UInt32

/-! ## Constants -/

/-- `MAX_PORTS`. -/
def MAX_PORTS : UInt32 := 100

/-- `MODULE_ID_WR_SHARED_MEM_EP`. -/
def MODULE_ID_WR_SHARED_MEM_EP : UInt32 := 0x07001000

/-- `MODULE_ID_RD_SHARED_MEM_EP`. -/
def MODULE_ID_RD_SHARED_MEM_EP : UInt32 := 0x07001001

/-- `MODULE_ID_WR_SHARED_MEM_CLIENT`. -/
def MODULE_ID_WR_SHARED_MEM_CLIENT : UInt32 := 0x0700105C

/-- `MODULE_ID_RD_SHARED_MEM_CLIENT`. -/
def MODULE_ID_RD_SHARED_MEM_CLIENT : UInt32 := 0x0700105D

/-- `AMDB_INTERFACE_TYPE_STUB`. -/
def AMDB_INTERFACE_TYPE_STUB : ℕ := 1

/-- `AMDB_INTERFACE_TYPE_CAPI`. -/
def AMDB_INTERFACE_TYPE_CAPI : ℕ := 2

/-- `AMDB_MODULE_TYPE_FRAMEWORK`. -/
def AMDB_MODULE_TYPE_FRAMEWORK : ℕ := 1

/-- `(uint8_t)CAPI_INVALID_VAL`. -/
def CAPI_INVALID_VAL_U8 : ℕ := 255

/-- The data-type bit of a port id says control. -/
def isControlPortId (id : UInt32) : Bool := id >>> 31 = 1

/-- The direction bit of a port id says output: `gu_is_output_port_id`. -/
def guIsOutputPortId (id : UInt32) : Bool := id &&& 1 = 1

/-! ## Subgraphs and modules -/

/-- The checks of `gu_parse_subgraph_props` on one property. -/
def guParseSubgraphProp : ApmSubGraphProp → Bool
  | .perfMode size mode => 4 ≤ size ∧ (mode = 2 ∨ mode = 1)
  | .direction size dir => 4 ≤ size ∧ (dir = 1 ∨ dir = 2 ∨ dir = 0xFFFFFFFF)
  | .scenarioId size sid => 4 ≤ size ∧ ((1 ≤ sid ∧ sid ≤ 4) ∨ sid = 0xFFFFFFFF)
  | .vsid => true
  | .clockScaleFactor size enable => size ≤ 8 ∧ (enable = 0 ∨ enable = 1)
  | .bwScaleFactor size => size ≤ 4
  | .unsupported => true

/-- `gu_create_graph`, one subgraph. -/
def guCreateSubgraph (cfg : ApmSubGraphCfg) : GuM Unit := do
  let w ← get
  verify (w.openGu.numSubgraphs < 255)
  let sg ← mallocObj
  modify fun w => { w with
    sgId := update w.sgId sg cfg.subGraphId
    sgGuStatus := update w.sgGuStatus sg .new
    sgNumModules := update w.sgNumModules sg 0
    sgModuleList := update w.sgModuleList sg [] }
  modify fun w => w.setOpenGu fun gu => { gu with numSubgraphs := incU8 gu.numSubgraphs }
  malloc
  modify fun w => w.setOpenGu fun gu => { gu with sgList := gu.sgList ++ [sg] }
  verify (cfg.props.all guParseSubgraphProp)

/-- A zeroed module. -/
def GuWorld.memsetModule (w : GuWorld) (m : Addr) : GuWorld :=
  { w with
    moduleId := update w.moduleId m 0
    moduleInstanceId := update w.moduleInstanceId m 0
    amdbHandle := update w.amdbHandle m false
    moduleType := update w.moduleType m 0
    itype := update w.itype m 0
    maxInputPorts := update w.maxInputPorts m 0
    maxOutputPorts := update w.maxOutputPorts m 0
    minInputPorts := update w.minInputPorts m 0
    minOutputPorts := update w.minOutputPorts m 0
    numInputPorts := update w.numInputPorts m 0
    numOutputPorts := update w.numOutputPorts m 0
    numCtrlPorts := update w.numCtrlPorts m 0
    moduleGuStatus := update w.moduleGuStatus m .new
    isSource := update w.isSource m false
    isSink := update w.isSink m false
    isSiso := update w.isSiso m false
    isElementary := update w.isElementary m false
    isDsAtSgOrCntrBoundary := update w.isDsAtSgOrCntrBoundary m false
    isUsAtSgOrCntrBoundary := update w.isUsAtSgOrCntrBoundary m false
    inputPortList := update w.inputPortList m []
    outputPortList := update w.outputPortList m []
    ctrlPortList := update w.ctrlPortList m []
    hostOutputPort := update w.hostOutputPort m none }

/-! ## Data links -/

/-- `gu_create_data_port` for an output port. -/
def guCreateOutputPort (m : Addr) (id : UInt32) : GuM Addr := do
  let p ← mallocObj
  modify fun w => { w with
    outId := update w.outId p id
    outModule := update w.outModule p m
    outIndex := update w.outIndex p 0
    outMark := update w.outMark p false
    elementaryPendingAttachment := update w.elementaryPendingAttachment p false
    connInPort := update w.connInPort p none
    extOutPort := update w.extOutPort p none
    attachedModule := update w.attachedModule p none }
  return p

/-- `gu_create_data_port` for an input port. -/
def guCreateInputPort (m : Addr) (id : UInt32) : GuM Addr := do
  let p ← mallocObj
  modify fun w => { w with
    inId := update w.inId p id
    inModule := update w.inModule p m
    inIndex := update w.inIndex p 0
    inMark := update w.inMark p false
    connOutPort := update w.connOutPort p none
    extInPort := update w.extInPort p none }
  return p

/-- A port that waits for `gu_finish_async_create`. -/
def guPushPendingPort (port : GuCmnPort) : GuM Unit := do
  malloc
  modify fun w => { w with
    asyncGu := w.asyncGu.map fun async => { async with portList := async.portList ++ [port] } }

/-- A port of a new module is inserted at once; a module that already runs gets its port
when the asynchronous open is finished. -/
def guPlaceOutputPort (m p : Addr) (internal : Bool) : GuM Unit := do
  let w ← get
  if w.moduleGuStatus m = .new ∨ w.asyncGu.isNone then do
    guInsertOutputPort m p
    modify fun w => { w with
      isDsAtSgOrCntrBoundary := update w.isDsAtSgOrCntrBoundary m
        (w.isDsAtSgOrCntrBoundary m || !internal) }
  else guPushPendingPort (.output p)

/-- The same for an input port. -/
def guPlaceInputPort (m p : Addr) (internal : Bool) : GuM Unit := do
  let w ← get
  if w.moduleGuStatus m = .new ∨ w.asyncGu.isNone then do
    guInsertInputPort m p
    modify fun w => { w with
      isUsAtSgOrCntrBoundary := update w.isUsAtSgOrCntrBoundary m
        (w.isUsAtSgOrCntrBoundary m || !internal) }
  else guPushPendingPort (.input p)

/-- The source end of a data link. -/
def guHandleSrcPort (m : Addr) (id : UInt32) (internal : Bool) : GuM Addr := do
  let w ← get
  verify (w.numOutputPorts m < w.maxOutputPorts m)
  let p ← guCreateOutputPort m id
  guPlaceOutputPort m p internal
  return p

/-- The destination end of a data link. -/
def guHandleDstPort (m : Addr) (id : UInt32) (internal : Bool) : GuM Addr := do
  let w ← get
  verify (w.numInputPorts m < w.maxInputPorts m)
  let p ← guCreateInputPort m id
  guPlaceInputPort m p internal
  return p

/-- `gu_handle_connection`, both ends in this container. -/
def guConnectPorts (o i : Addr) : GuM Unit :=
  modify fun w => { w with
    connInPort := update w.connInPort o (some i)
    connOutPort := update w.connOutPort i (some o)
    extOutPort := update w.extOutPort o none
    extInPort := update w.extInPort i none }

/-- `gu_handle_connection`, destination in another container. -/
def guCreateExtOutPort (o : Addr) (conn : ApmModuleConnCfg) : GuM Unit := do
  modify fun w => { w with connInPort := update w.connInPort o none }
  let ext ← mallocObj
  modify fun w => { w with
    extOutGuStatus := update w.extOutGuStatus ext .new
    extOutSg := update w.extOutSg ext (w.moduleSg (w.outModule o))
    downstreamHandle := update w.downstreamHandle ext
      ⟨false, conn.dstModInstId, conn.dstModIpPortId⟩
    intOutPort := update w.intOutPort ext none }
  let w ← get
  verify (w.openGu.numExtOutPorts < 255)
  malloc
  modify fun w => w.setOpenGu fun gu => { gu with
    extOutPortList := gu.extOutPortList ++ [ext]
    numExtOutPorts := incU8 gu.numExtOutPorts }
  modify fun w => { w with
    intOutPort := update w.intOutPort ext (some o)
    extOutPort := update w.extOutPort o (some ext) }

/-- `gu_handle_connection`, source in another container. -/
def guCreateExtInPort (i : Addr) (conn : ApmModuleConnCfg) : GuM Unit := do
  modify fun w => { w with connOutPort := update w.connOutPort i none }
  let ext ← mallocObj
  modify fun w => { w with
    extInGuStatus := update w.extInGuStatus ext .new
    extInSg := update w.extInSg ext (w.moduleSg (w.inModule i))
    upstreamHandle := update w.upstreamHandle ext ⟨false, conn.srcModInstId, conn.srcModOpPortId⟩
    intInPort := update w.intInPort ext none }
  let w ← get
  verify (w.openGu.numExtInPorts < 255)
  malloc
  modify fun w => w.setOpenGu fun gu => { gu with
    extInPortList := gu.extInPortList ++ [ext]
    numExtInPorts := incU8 gu.numExtInPorts }
  modify fun w => { w with
    intInPort := update w.intInPort ext (some i)
    extInPort := update w.extInPort i (some ext) }

namespace GuWorld

/-- The module of one end of a link.  `fromMain` says that `gu_handle_connection` was
called for the main graph, whose modules are then looked at as well. -/
def connModule (w : GuWorld) (fromMain : Bool) (iid : UInt32) : Option Addr :=
  match if iid = 0 then none else w.guFindModule w.openGu iid with
  | some m => some m
  | none => if fromMain && w.asyncGu.isSome then w.guFindModule w.gu iid else none

/-- Both modules are in this container and in one subgraph. -/
def isSgInternalConnection (w : GuWorld) : Option Addr → Option Addr → Bool
  | some s, some d => w.moduleSg s = w.moduleSg d
  | _, _ => false

/-- The output port of the link exists already, inserted or pending. -/
def hasOutputPort (w : GuWorld) (m : Addr) (id : UInt32) : Bool :=
  w.guFindPendingPort m id || (w.guFindOutputPort m id).isSome

/-- The input port of the link exists already, inserted or pending. -/
def hasInputPort (w : GuWorld) (m : Addr) (id : UInt32) : Bool :=
  w.guFindPendingPort m id || (w.guFindInputPort m id).isSome

end GuWorld

/-- The checks on the port ids of a data link: not zero, data, and of the right direction. -/
def dataPortIdsOk (srcId dstId : UInt32) : Bool :=
  srcId ≠ 0 ∧ dstId ≠ 0 ∧ !isControlPortId srcId ∧ !isControlPortId dstId ∧
    guIsOutputPortId srcId ∧ !guIsOutputPortId dstId

/-- The end of `gu_handle_connection`: connect the ports, or create the external port. -/
def guLinkPorts (conn : ApmModuleConnCfg) : Option Addr → Option Addr → GuM Unit
  | some o, some i => guConnectPorts o i
  | some o, none => guCreateExtOutPort o conn
  | none, some i => guCreateExtInPort i conn
  | none, none => pure ()

/-- Run the program on the module of a link end, if that end is in this container. -/
def onModule (m : Option Addr) (f : Addr → GuM Addr) : GuM (Option Addr) :=
  match m with
  | none => pure none
  | some m => do
    let p ← f m
    return some p

/-- `gu_handle_connection`. -/
def guHandleConnection (fromMain : Bool) (conn : ApmModuleConnCfg) : GuM Unit := do
  let w ← get
  let src := w.connModule fromMain conn.srcModInstId
  let dst := w.connModule fromMain conn.dstModInstId
  let internal := w.isSgInternalConnection src dst
  verify (dataPortIdsOk conn.srcModOpPortId conn.dstModIpPortId)
  if src.any (w.hasOutputPort · conn.srcModOpPortId) ∨
      dst.any (w.hasInputPort · conn.dstModIpPortId) then throw .eduplicate
  else do
    let o ← onModule src fun m => guHandleSrcPort m conn.srcModOpPortId internal
    let i ← onModule dst fun m => guHandleDstPort m conn.dstModIpPortId internal
    guLinkPorts conn o i

/-- `gu_handle_graph_boundary_modules`: the end point modules get the port towards the
client, which no link of the command mentions. -/
def guHandleGraphBoundaryModules (m : Addr) : GuM Unit := do
  let w ← get
  if w.moduleId m = MODULE_ID_WR_SHARED_MEM_EP then do
    modify fun w => { w with
      maxInputPorts := update w.maxInputPorts m 1
      maxOutputPorts := update w.maxOutputPorts m 1 }
    guHandleConnection false ⟨0, 1, w.moduleInstanceId m, 2⟩
  else if w.moduleId m = MODULE_ID_RD_SHARED_MEM_EP then do
    modify fun w => { w with
      maxInputPorts := update w.maxInputPorts m 1
      maxOutputPorts := update w.maxOutputPorts m 1 }
    guHandleConnection false ⟨w.moduleInstanceId m, 1, 0, 2⟩
  else pure ()

/-- `gu_create_graph`, one module of a subgraph. -/
def guCreateModule (sg : Addr) (cfg : ApmModuleCfg) : GuM Addr := do
  let w ← get
  let m := w.next
  modify fun w => { w with next := w.next + 1 }
  modify fun w => w.memsetModule m
  malloc
  modify fun w => { w with
    sgModuleList := update w.sgModuleList sg (w.sgModuleList sg ++ [m])
    moduleSg := update w.moduleSg m sg
    sgNumModules := update w.sgNumModules sg (w.sgNumModules sg + 1)
    moduleInstanceId := update w.moduleInstanceId m cfg.instanceId
    moduleId := update w.moduleId m cfg.moduleId
    minInputPorts := update w.minInputPorts m CAPI_INVALID_VAL_U8
    minOutputPorts := update w.minOutputPorts m CAPI_INVALID_VAL_U8 }
  guHandleGraphBoundaryModules m
  -- the AMDB handle and its list node
  malloc
  malloc
  return m

/-- `gu_sg_allocate_resource`: nothing for size zero, else the memory and a list node. -/
def guSgAllocateResource (size : ℕ) : GuM Unit :=
  if size = 0 then pure () else do
    malloc
    malloc

/-- `gu_create_graph`, the modules of one subgraph. -/
def guCreateModules (l : ApmModulesList) : GuM (List Addr) := do
  let w ← get
  match w.guFindSubgraph w.openGu l.subGraphId with
  | none => throw .efailed
  | some sg => do
    modify fun w => { w with
      sgGuStatus := update w.sgGuStatus sg (guSetStatus (w.sgGuStatus sg) .updated) }
    guSgAllocateResource l.modules.length
    l.modules.mapM (guCreateModule sg)

/-! ## Module properties -/

/-- `gu_parse_module_props`, one property. -/
def guParseModuleProp (env : OpenEnv) (m : Addr) : ApmModuleProp → GuM Unit
  | .portInfo size ip op => do
    verify (8 ≤ size)
    let w ← get
    if w.moduleId m = MODULE_ID_WR_SHARED_MEM_EP then
      verify (ip ≤ 1 ∧ op = 1)
    else if w.moduleId m = MODULE_ID_RD_SHARED_MEM_EP then
      verify (ip = 1 ∧ op ≤ 1)
    else if w.moduleId m = MODULE_ID_WR_SHARED_MEM_CLIENT then do
      verify (ip = 1 ∧ op = 1)
      modify fun w => { w with
        maxInputPorts := update w.maxInputPorts m ip.toNat
        maxOutputPorts := update w.maxOutputPorts m 0 }
    else if w.moduleId m = MODULE_ID_RD_SHARED_MEM_CLIENT then do
      verify (ip = 1 ∧ op = 1)
      modify fun w => { w with
        maxInputPorts := update w.maxInputPorts m 0
        maxOutputPorts := update w.maxOutputPorts m op.toNat }
    else do
      verify (ip ≤ MAX_PORTS ∧ op ≤ MAX_PORTS)
      modify fun w => { w with
        maxInputPorts := update w.maxInputPorts m ip.toNat
        maxOutputPorts := update w.maxOutputPorts m op.toNat }
  | .heapId id =>
    -- an island container takes low-power modules only, any other container default ones only
    if (id = 1 ∧ env.island) ∨ ((id = 2 ∨ id = 3) ∧ !env.island) then throw .eunsupported
    else pure ()
  | .unsupported => throw .eunsupported

/-- `gu_parse_module_props`, one module. -/
def guParseModuleProps (env : OpenEnv) (cfg : ApmModulePropCfg) : GuM Unit := do
  let w ← get
  match w.guFindModule w.openGu cfg.instanceId with
  | none => throw .efailed
  | some m => cfg.props.forM (guParseModuleProp env m)

/-! ## Control links -/

/-- `gu_create_ctrl_port`. -/
def guCreateCtrlPort (m : Addr) (id : UInt32) : GuM Addr := do
  let p ← mallocObj
  modify fun w => { w with
    ctrlId := update w.ctrlId p id
    ctrlModule := update w.ctrlModule p m
    extCtrlPort := update w.extCtrlPort p none
    peerCtrlPort := update w.peerCtrlPort p none }
  let w ← get
  verify (w.numCtrlPorts m ≤ MAX_PORTS.toNat)
  return p

/-- `gu_create_control_link`, one peer's port. -/
def guCreatePeerPort (id : UInt32) (m : Addr) : GuM Addr := do
  let w ← get
  if (w.guFindCtrlPortById m id).isSome then throw .eduplicate
  else guCreateCtrlPort m id

/-- `gu_create_control_link`, the external control port. -/
def guCreateExtCtrlPort (env : OpenEnv) (cmd : GraphOpenCmd) (p : Addr)
    (remoteIid remotePort : UInt32) : GuM Unit := do
  let ext ← mallocObj
  modify fun w => { w with
    extCtrlGuStatus := update w.extCtrlGuStatus ext .new
    peerHandle := update w.peerHandle ext ⟨false, remoteIid, remotePort⟩
    peerDomainId := update w.peerDomainId ext
      (((cmd.imclPeerDomainInfo.find? fun d => d.1 = remoteIid).map Prod.snd).getD
        env.hostDomainId)
    extCtrlSg := update w.extCtrlSg ext (w.moduleSg (w.ctrlModule p))
    intCtrlPort := update w.intCtrlPort ext (some p)
    extCtrlPort := update w.extCtrlPort p (some ext) }
  let w ← get
  verify (w.openGu.numExtCtrlPorts < 255)
  malloc
  modify fun w => w.setOpenGu fun gu => { gu with
    extCtrlPortList := gu.extCtrlPortList ++ [ext]
    numExtCtrlPorts := incU8 gu.numExtCtrlPorts }

/-- `gu_create_control_link`, the link itself. -/
def guLinkCtrlPorts (env : OpenEnv) (cmd : GraphOpenCmd) (link : ApmModuleCtrlLinkCfg) :
    Option Addr → Option Addr → GuM Unit
  | some p, some q => modify fun w => { w with
      peerCtrlPort := update (update w.peerCtrlPort p (some q)) q (some p)
      extCtrlPort := update (update w.extCtrlPort p none) q none }
  | some p, none =>
      guCreateExtCtrlPort env cmd p link.peer2ModIid link.peer2ModCtrlPortId
  | none, some q =>
      guCreateExtCtrlPort env cmd q link.peer1ModIid link.peer1ModCtrlPortId
  | none, none => pure ()

/-- `gu_create_control_link`, the insertion of one port into its module. -/
def guInsertCtrlPort : Option Addr → GuM Unit
  | none => pure ()
  | some p => do
    malloc
    modify fun w => { w with
      ctrlPortList := update w.ctrlPortList (w.ctrlModule p) (w.ctrlPortList (w.ctrlModule p) ++ [p])
      numCtrlPorts := update w.numCtrlPorts (w.ctrlModule p)
        (incU8 (w.numCtrlPorts (w.ctrlModule p))) }
    modify fun w => w.markUpdated (w.ctrlModule p)

/-- `gu_create_control_link`. -/
def guCreateControlLink (env : OpenEnv) (cmd : GraphOpenCmd) (link : ApmModuleCtrlLinkCfg) :
    GuM Unit := do
  let w ← get
  let peer1 := w.findInBoth link.peer1ModIid
  let peer2 := w.findInBoth link.peer2ModIid
  verify (link.peer1ModCtrlPortId ≠ 0 ∧ link.peer2ModCtrlPortId ≠ 0 ∧
    isControlPortId link.peer1ModCtrlPortId ∧ isControlPortId link.peer2ModCtrlPortId)
  let p ← onModule peer1 (guCreatePeerPort link.peer1ModCtrlPortId)
  let q ← onModule peer2 (guCreatePeerPort link.peer2ModCtrlPortId)
  guLinkCtrlPorts env cmd link p q
  guInsertCtrlPort p
  guInsertCtrlPort q

/-! ### What control links leave alone -/

/-- Invariants that do not see control links: allocations, marks on modules and external control
ports in the list keep them, and so does any change of the control ports themselves. -/
structure CtrlBlind (I : GuWorld → Prop) : Prop where
  malloc : Keeps I malloc
  alloc : ∀ w : GuWorld, I w → I { w with next := w.next + 1 }
  mark : ∀ w m, I w → I (w.markUpdated m)
  list : ∀ w ext, I w → I (w.setOpenGu fun gu => { gu with
    extCtrlPortList := gu.extCtrlPortList ++ [ext]
    numExtCtrlPorts := incU8 gu.numExtCtrlPorts })
  ports : ∀ (w : GuWorld) id m e p s h d sg i l n, I w → I { w with
    ctrlId := id, ctrlModule := m, extCtrlPort := e, peerCtrlPort := p, extCtrlGuStatus := s
    peerHandle := h, peerDomainId := d, extCtrlSg := sg, intCtrlPort := i, ctrlPortList := l
    numCtrlPorts := n }

section CtrlBlind

variable {I : GuWorld → Prop}

/-- A check keeps everything. -/
lemma verify_keeps (c : Bool) : Keeps I (verify c) :=
  Keeps.ite (Keeps.pure _) (Keeps.throw _)

/-- A step on a module that may be missing keeps what the step keeps. -/
lemma onModule_keeps {f : Addr → GuM Addr} (hf : ∀ a, Keeps I (f a)) (m : Option Addr) :
    Keeps I (onModule m f) := by
  cases m with
  | none => exact Keeps.pure _
  | some a => exact Keeps.bind (hf a) fun _ => Keeps.pure _

section

variable (hI : CtrlBlind I)
include hI

/-- An allocation keeps what does not see the heap. -/
lemma mallocObj_blind : Keeps I mallocObj :=
  Keeps.bind hI.malloc fun _ => Keeps.bind Keeps.get fun _ =>
    Keeps.bind (Keeps.modify hI.alloc) fun _ => Keeps.pure _

/-- A new peer port keeps what does not see it. -/
lemma guCreatePeerPort_keeps (id : UInt32) (m : Addr) : Keeps I (guCreatePeerPort id m) :=
  Keeps.bind Keeps.get fun _ => Keeps.ite (Keeps.throw _) (Keeps.bind (mallocObj_blind hI) fun _ =>
      Keeps.bind (Keeps.modify fun w h => hI.ports w _ _ _ _ _ _ _ _ _ _ _ h) fun _ =>
        Keeps.bind Keeps.get fun _ => Keeps.bind (verify_keeps _) fun _ => Keeps.pure _)

/-- A new external control port keeps what does not see it. -/
lemma guCreateExtCtrlPort_keeps (env : OpenEnv) (cmd : GraphOpenCmd) (p : Addr) (iid port : UInt32)
    : Keeps I (guCreateExtCtrlPort env cmd p iid port) :=
  Keeps.bind (mallocObj_blind hI) fun ext =>
    Keeps.bind (Keeps.modify fun w h => hI.ports w _ _ _ _ _ _ _ _ _ _ _ h) fun _ =>
      Keeps.bind Keeps.get fun _ => Keeps.bind (verify_keeps _) fun _ =>
        Keeps.bind hI.malloc fun _ => Keeps.modify fun w h => hI.list w ext h

/-- The insertion of a control port keeps what does not see it. -/
lemma guInsertCtrlPort_keeps (p : Option Addr) : Keeps I (guInsertCtrlPort p) := by
  cases p with
  | none => exact Keeps.pure _
  | some p =>
    exact Keeps.bind hI.malloc fun _ =>
      Keeps.bind (Keeps.modify fun w h => hI.ports w _ _ _ _ _ _ _ _ _ _ _ h) fun _ =>
        Keeps.modify fun w h => hI.mark w _ h

/-- **Control links keep what does not see them.** -/
theorem guCreateControlLink_keeps (env : OpenEnv) (cmd : GraphOpenCmd) (link : ApmModuleCtrlLinkCfg)
    : Keeps I (guCreateControlLink env cmd link) := by
  refine Keeps.bind Keeps.get fun w => Keeps.bind (verify_keeps _) fun _ =>
    Keeps.bind (onModule_keeps (fun a => guCreatePeerPort_keeps hI _ a) _) fun p =>
      Keeps.bind (onModule_keeps (fun a => guCreatePeerPort_keeps hI _ a) _) fun q =>
        Keeps.bind ?_ fun _ => Keeps.bind (guInsertCtrlPort_keeps hI p) fun _ =>
          guInsertCtrlPort_keeps hI q
  cases p with
  | none =>
    cases q with
    | none => exact Keeps.pure _
    | some q => exact guCreateExtCtrlPort_keeps hI env cmd q _ _
  | some p =>
    cases q with
    | none => exact guCreateExtCtrlPort_keeps hI env cmd p _ _
    | some q => exact Keeps.modify fun w h => hI.ports w _ _ _ _ _ _ _ _ _ _ _ h

end

end CtrlBlind

/-! ## Loading and static properties -/

/-- The database knows the module and offers an interface the container can use. -/
def AmdbAnswer.loaded (a : AmdbAnswer) : Bool :=
  a.found ∧ (a.interfaceType = AMDB_INTERFACE_TYPE_CAPI ∨
    a.interfaceType = AMDB_INTERFACE_TYPE_STUB)

/-- `gu_handle_module_loading`, one module.  A module that is not loaded is passed over. -/
def guLoadModule (env : OpenEnv) (m : Addr) : GuM Unit := do
  let w ← get
  let a := env.amdb (w.moduleId m)
  if a.loaded then do
    verify (a.moduleType < 255 ∧ a.interfaceType < 255)
    modify fun w => { w with
      moduleType := update w.moduleType m a.moduleType
      itype := update w.itype m a.interfaceType
      amdbHandle := update w.amdbHandle m a.handle }
  else pure ()

/-- `gu_handle_module_loading`: it fails in the end if some module was not loaded. -/
def guHandleModuleLoading (env : OpenEnv) (handles : List Addr) : GuM Unit := do
  handles.forM (guLoadModule env)
  let w ← get
  verify (handles.all fun m => (env.amdb (w.moduleId m)).loaded)

namespace GuWorld

/-- The static properties of a new module: `gu_query_for_elementary_static_prop` and
`gu_query_for_min_port_static_prop`. -/
def queryStaticProp (w : GuWorld) (a : AmdbAnswer) (m : Addr) : GuWorld :=
  { w with
    isElementary := update w.isElementary m (w.isElementary m || a.isElementary)
    minInputPorts := update w.minInputPorts m
      ((a.minPorts.map Prod.fst).getD CAPI_INVALID_VAL_U8 % 256)
    minOutputPorts := update w.minOutputPorts m
      ((a.minPorts.map Prod.snd).getD CAPI_INVALID_VAL_U8 % 256) }

/-- Can the module be asked for static properties? -/
def canQueryCapi (w : GuWorld) (m : Addr) : Bool :=
  w.itype m ≠ AMDB_INTERFACE_TYPE_STUB ∧ w.moduleType m ≠ AMDB_MODULE_TYPE_FRAMEWORK ∧
    w.amdbHandle m

/-- `gu_query_for_module_static_prop`, one module. -/
def queryModule (w : GuWorld) (env : OpenEnv) (m : Addr) : GuWorld :=
  let w' := if w.moduleGuStatus m = .new ∧ w.canQueryCapi m then
      w.queryStaticProp (env.amdb (w.moduleId m)) m else w
  if w.moduleGuStatus m ≠ .default then w'.guUpdateModuleSinkSrcInfo m else w'

/-- The modules of the graph of the current command. -/
def openModules (w : GuWorld) : List Addr :=
  w.openGu.sgList.flatMap w.sgModuleList

end GuWorld

/-- `gu_query_for_module_static_prop`. -/
def guQueryForModuleStaticProp (env : OpenEnv) : GuM Unit := do
  let w ← get
  w.openModules.forM fun m => modify fun w => w.queryModule env m

/-- `gu_parse_elementary_modules`, one link. -/
def guParseElementaryLink (conn : ApmModuleConnCfg) : GuM Unit := do
  let w ← get
  let find := fun iid => if iid = 0 then none else w.guFindModule w.openGu iid
  guParseAndAttachElementaryModule (find conn.srcModInstId) (find conn.dstModInstId)

/-! ## The whole command -/

namespace GuWorld

/-- The links of the command that stay inside a subgraph. -/
def internalLinks (w : GuWorld) (conns : List ApmModuleConnCfg) (sg : Addr) : ℕ :=
  conns.countP fun conn =>
    (w.connModule false conn.srcModInstId).any (fun m => w.moduleSg m = sg) &&
      (w.connModule false conn.dstModInstId).any fun m => w.moduleSg m = sg

end GuWorld

/-- `gu_create_graph`, the port memory of the subgraphs. -/
def guAllocatePortMemory (conns : List ApmModuleConnCfg) : GuM Unit := do
  let w ← get
  w.openGu.sgList.forM fun sg => guSgAllocateResource (w.internalLinks conns sg)

/-- `gu_create_graph`, up to the data links. -/
def guCreateObjects (env : OpenEnv) (cmd : GraphOpenCmd) : GuM (List Addr) := do
  cmd.sgCfgList.forM guCreateSubgraph
  let handles ← cmd.modList.mapM guCreateModules
  cmd.modPropCfgList.forM (guParseModuleProps env)
  guAllocatePortMemory cmd.modConnList
  return handles.flatten

/-- `gu_create_graph`. -/
def guCreateGraph (env : OpenEnv) (cmd : GraphOpenCmd) : GuM Unit := do
  let handles ← guCreateObjects env cmd
  cmd.modConnList.forM (guHandleConnection true)
  cmd.modCtrlLinkCfgList.forM (guCreateControlLink env cmd)
  guHandleModuleLoading env handles
  guQueryForModuleStaticProp env
  cmd.modConnList.forM guParseElementaryLink
  let w ← get
  if w.asyncGu.isNone ∧ (cmd.modConnList ≠ [] ∨ cmd.sgCfgList ≠ []) then guUpdateSortedList
  else pure ()

end AudioReach
