import AudioReach.ArResult
import AudioReach.Library.Programs

/-!
# The container graph

The data of `graph_utils.h`: subgraphs, modules, data and control ports, external ports
and the graph `gu_t` with its asynchronous companion.  The heap is kept field by field:
`w.connInPort o` is the source's `o->conn_in_port_ptr`, and an assignment updates one
field at one address.  So a step that writes one field leaves the others as they are by
definition.

Pointers that the source compares with `NULL` are `Option Addr`.  A list of nodes is a
`List` of the objects it holds; an object is destroyed when no list holds it any more.
Memory comes from a counter and is never handed out twice; whether an allocation succeeds
is decided by the answers `mallocs`, and an exhausted list of answers means success.
Counters of type `uint8_t` wrap around at 256.

Left out are the fields no modelled function reads: heap ids, logging ids, the scale
factors of a subgraph, the queues of the handles, intents, path indices and the status of
data and control ports.
-/

namespace AudioReach

open Function (update)
open Library

/-- `gu_status_t`. -/
inductive GuStatus
  | default
  | new
  | updated
  | closing
  deriving DecidableEq, Repr

/-- `gu_set_status`: a new object stays new when it is updated. -/
def guSetStatus (status value : GuStatus) : GuStatus :=
  if status = .new ∧ value = .updated then status else value

/-- `gu_peer_handle_t`: whether the peer's handle is known, and which port it is. -/
structure GuPeerHandle where
  /-- `spf_handle_ptr` is not null. -/
  spfHandle : Bool
  moduleInstanceId : UInt32
  portId : UInt32
  deriving DecidableEq, Repr

/-- The null handle, as `memset` leaves it. -/
def GuPeerHandle.null : GuPeerHandle := ⟨false, 0, 0⟩

/-- A data port of either direction, as the pending list of an asynchronous open holds it.
The source tells the two apart by the direction bit of the id, which
`gu_handle_connection` has verified. -/
inductive GuCmnPort
  | input (port : Addr)
  | output (port : Addr)
  deriving DecidableEq, Repr

/-- The lists and counters of `gu_t`. -/
structure Gu where
  /-- `sort_status` is `GU_SORT_UPDATED`. -/
  sortUpdated : Bool
  numSubgraphs : ℕ
  numExtInPorts : ℕ
  numExtOutPorts : ℕ
  numExtCtrlPorts : ℕ
  sgList : List Addr
  /-- The modules in the order in which they are processed. -/
  sortedModuleList : List Addr
  extInPortList : List Addr
  extOutPortList : List Addr
  extCtrlPortList : List Addr
  deriving DecidableEq, Repr

/-- A zeroed `gu_t`. -/
def Gu.empty : Gu := ⟨false, 0, 0, 0, 0, [], [], [], [], []⟩

/-- `gu_async_graph_t`: what an asynchronous open has built so far. -/
structure GuAsyncGraph where
  gu : Gu
  /-- Ports that wait to be inserted into modules that already run. -/
  portList : List GuCmnPort
  deriving DecidableEq, Repr

/-- The objects of a container graph, field by field, and the graph itself. -/
structure GuWorld where
  sgId : Addr → UInt32
  sgGuStatus : Addr → GuStatus
  /-- `num_modules` of a subgraph. -/
  sgNumModules : Addr → ℕ
  sgModuleList : Addr → List Addr
  moduleId : Addr → UInt32
  moduleInstanceId : Addr → UInt32
  amdbHandle : Addr → Bool
  moduleType : Addr → ℕ
  itype : Addr → ℕ
  maxInputPorts : Addr → ℕ
  maxOutputPorts : Addr → ℕ
  minInputPorts : Addr → ℕ
  minOutputPorts : Addr → ℕ
  numInputPorts : Addr → ℕ
  numOutputPorts : Addr → ℕ
  numCtrlPorts : Addr → ℕ
  moduleGuStatus : Addr → GuStatus
  isSource : Addr → Bool
  isSink : Addr → Bool
  isSiso : Addr → Bool
  isElementary : Addr → Bool
  /-- Some output is at a subgraph or container boundary. -/
  isDsAtSgOrCntrBoundary : Addr → Bool
  /-- Some input is at a subgraph or container boundary. -/
  isUsAtSgOrCntrBoundary : Addr → Bool
  inputPortList : Addr → List Addr
  outputPortList : Addr → List Addr
  ctrlPortList : Addr → List Addr
  moduleSg : Addr → Addr
  /-- The output port that hosts an attached module. -/
  hostOutputPort : Addr → Option Addr
  inId : Addr → UInt32
  inModule : Addr → Addr
  inIndex : Addr → ℕ
  inMark : Addr → Bool
  connOutPort : Addr → Option Addr
  extInPort : Addr → Option Addr
  outId : Addr → UInt32
  outModule : Addr → Addr
  outIndex : Addr → ℕ
  outMark : Addr → Bool
  /-- The elementary module downstream waits to be attached. -/
  elementaryPendingAttachment : Addr → Bool
  connInPort : Addr → Option Addr
  extOutPort : Addr → Option Addr
  /-- The elementary module attached to an output port. -/
  attachedModule : Addr → Option Addr
  upstreamHandle : Addr → GuPeerHandle
  intInPort : Addr → Option Addr
  extInSg : Addr → Addr
  extInGuStatus : Addr → GuStatus
  downstreamHandle : Addr → GuPeerHandle
  /-- The output port behind an external output port. -/
  intOutPort : Addr → Option Addr
  extOutSg : Addr → Addr
  extOutGuStatus : Addr → GuStatus
  ctrlId : Addr → UInt32
  ctrlModule : Addr → Addr
  extCtrlPort : Addr → Option Addr
  peerCtrlPort : Addr → Option Addr
  peerHandle : Addr → GuPeerHandle
  /-- Domain of the peer of an external control port. -/
  peerDomainId : Addr → UInt32
  /-- The control port behind an external control port. -/
  intCtrlPort : Addr → Option Addr
  extCtrlSg : Addr → Addr
  extCtrlGuStatus : Addr → GuStatus
  gu : Gu
  /-- The graph of an asynchronous open, while one is going on. -/
  asyncGu : Option GuAsyncGraph
  next : Addr
  mallocs : List Bool

/-- Programs over the container graph. -/
abbrev GuM := EStateM ArResult GuWorld

/-! ## Counters, verification and memory -/

/-- `x++` on a `uint8_t`. -/
def incU8 (n : ℕ) : ℕ := (n + 1) % 256

/-- `x--` on a `uint8_t`. -/
def decU8 (n : ℕ) : ℕ := (n + 255) % 256

/-- `VERIFY`. -/
def verify (c : Bool) : GuM Unit :=
  if c then pure () else throw .efailed

/-- One allocation: an object or a list node. -/
def malloc : GuM Unit := do
  let w ← get
  modify fun w => { w with mallocs := w.mallocs.tail }
  if w.mallocs.head?.getD true then pure () else throw .enomemory

/-- `MALLOC_MEMSET`: the address of a new object.  The caller says what it holds. -/
def mallocObj : GuM Addr := do
  malloc
  let w ← get
  modify fun w => { w with next := w.next + 1 }
  return w.next

/-! ## Look-ups -/

namespace GuWorld

/-- `gu_find_module`: the first module with the instance id. -/
def guFindModule (w : GuWorld) (gu : Gu) (iid : UInt32) : Option Addr :=
  (gu.sgList.flatMap w.sgModuleList).find? fun m => w.moduleInstanceId m = iid

/-- `gu_find_subgraph`. -/
def guFindSubgraph (w : GuWorld) (gu : Gu) (id : UInt32) : Option Addr :=
  gu.sgList.find? fun sg => w.sgId sg = id

/-- `gu_find_output_port`. -/
def guFindOutputPort (w : GuWorld) (m : Addr) (id : UInt32) : Option Addr :=
  (w.outputPortList m).find? fun p => w.outId p = id

/-- `gu_find_input_port`. -/
def guFindInputPort (w : GuWorld) (m : Addr) (id : UInt32) : Option Addr :=
  (w.inputPortList m).find? fun p => w.inId p = id

/-- `gu_find_ctrl_port_by_id`. -/
def guFindCtrlPortById (w : GuWorld) (m : Addr) (id : UInt32) : Option Addr :=
  (w.ctrlPortList m).find? fun p => w.ctrlId p = id

/-- Is this the port with the id on the module? -/
def isCmnPort (w : GuWorld) (m : Addr) (id : UInt32) : GuCmnPort → Bool
  | .input p => w.inId p = id ∧ w.inModule p = m
  | .output p => w.outId p = id ∧ w.outModule p = m

/-- `gu_find_pending_port`, as a test. -/
def guFindPendingPort (w : GuWorld) (m : Addr) (id : UInt32) : Bool :=
  match w.asyncGu with
  | none => false
  | some async => async.portList.any (w.isCmnPort m id)

/-- `get_gu_ptr_for_current_command_context`. -/
def openGu (w : GuWorld) : Gu :=
  match w.asyncGu with
  | none => w.gu
  | some async => async.gu

/-- Assignment to the graph of the current command. -/
def setOpenGu (w : GuWorld) (f : Gu → Gu) : GuWorld :=
  match w.asyncGu with
  | none => { w with gu := f w.gu }
  | some async => { w with asyncGu := some { async with gu := f async.gu } }

/-- `gu_find_module` in the graph of the current command, then in the main graph. -/
def findInBoth (w : GuWorld) (iid : UInt32) : Option Addr :=
  match w.guFindModule w.openGu iid with
  | some m => some m
  | none => w.guFindModule w.gu iid

/-! ## Port indices -/

/-- The search of `gu_move_port_to_smallest_available_index`: the index for the new port,
the ports before it and the ports after it.  `prev` is the index of the port just passed
and `i` the number of ports passed. -/
def smallestAvailableIndex (index : Addr → ℕ) : Option ℕ → ℕ → List Addr → ℕ × List Addr × List Addr
  | _, i, [] => (i, [], [])
  | none, i, p :: ps =>
      if 0 < index p then (0, [], p :: ps)
      else
        let r := smallestAvailableIndex index (some (index p)) (i + 1) ps
        (r.1, p :: r.2.1, r.2.2)
  | some q, i, p :: ps =>
      if q + 1 < index p then (q + 1, [], p :: ps)
      else
        let r := smallestAvailableIndex index (some (index p)) (i + 1) ps
        (r.1, p :: r.2.1, r.2.2)

/-- The port list after `gu_insert_data_port` has put the port at its place. -/
def insertByIndex (index : Addr → ℕ) (ports : List Addr) (port : Addr) : List Addr :=
  let r := smallestAvailableIndex index none 0 ports
  r.2.1 ++ port :: r.2.2

/-- The index `gu_insert_data_port` gives to the new port. -/
def availableIndex (index : Addr → ℕ) (ports : List Addr) : ℕ :=
  (smallestAvailableIndex index none 0 ports).1 % 256

/-- A port was added: the module and its subgraph are updated. -/
def markUpdated (w : GuWorld) (m : Addr) : GuWorld :=
  { w with
    moduleGuStatus := update w.moduleGuStatus m (guSetStatus (w.moduleGuStatus m) .updated)
    sgGuStatus := update w.sgGuStatus (w.moduleSg m)
      (guSetStatus (w.sgGuStatus (w.moduleSg m)) .updated) }

/-- `gu_update_module_sink_src_info`. -/
def guUpdateModuleSinkSrcInfo (w : GuWorld) (m : Addr) : GuWorld :=
  { w with
    isSink := update w.isSink m (w.maxInputPorts m ≠ 0 ∧ (w.maxOutputPorts m = 0 ∨
        (w.minOutputPorts m = 0 ∧ w.numOutputPorts m = 0)))
    isSource := update w.isSource m (w.maxOutputPorts m ≠ 0 ∧ (w.maxInputPorts m = 0 ∨
        (w.minInputPorts m = 0 ∧ w.numInputPorts m = 0)))
    isSiso := update w.isSiso m (w.numOutputPorts m = 1 ∧ w.maxOutputPorts m = 1 ∧
        w.numInputPorts m = 1 ∧ w.maxInputPorts m = 1) }

end GuWorld

/-- `gu_insert_output_port`. -/
def guInsertOutputPort (m port : Addr) : GuM Unit := do
  malloc
  modify fun w => { w with
    outputPortList := update w.outputPortList m
      (GuWorld.insertByIndex w.outIndex (w.outputPortList m) port)
    outIndex := update w.outIndex port (GuWorld.availableIndex w.outIndex (w.outputPortList m))
    numOutputPorts := update w.numOutputPorts m (incU8 (w.numOutputPorts m)) }
  modify fun w => w.markUpdated m

/-- `gu_insert_input_port`. -/
def guInsertInputPort (m port : Addr) : GuM Unit := do
  malloc
  modify fun w => { w with
    inputPortList := update w.inputPortList m
      (GuWorld.insertByIndex w.inIndex (w.inputPortList m) port)
    inIndex := update w.inIndex port (GuWorld.availableIndex w.inIndex (w.inputPortList m))
    numInputPorts := update w.numInputPorts m (incU8 (w.numInputPorts m)) }
  modify fun w => w.markUpdated m

end AudioReach
