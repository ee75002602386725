import AudioReach.GraphUtils.Async

/-!
# Commands of a container

A container opens graphs, synchronously or in parallel to its data path, and closes them.
Every open command is validated first; after a failed open the container finishes the
asynchronous part, marks what the command has created and destroys it.
-/

namespace AudioReach

open Library

/-- `gu_create_graph` followed by the creation of the modules in the topology layer. -/
def graphOpen (env : OpenEnv) (cmd : GraphOpenCmd) : GuM Unit := do
  guCreateGraph env cmd
  modify GuWorld.genTopoCreateModules

/-- `gen_cntr_graph_open`: the graph is built beside the running one and merged with it.
The merge is also done when the open fails. -/
def graphOpenAsync (env : OpenEnv) (cmd : GraphOpenCmd) : GuM Unit := do
  guPrepareAsyncCreate
  onError (graphOpen env cmd) fun w => endState guFinishAsyncCreate w
  guFinishAsyncCreate
  modify GuWorld.genTopoCreateModules

/-- Commands of a container. -/
inductive GuOp
  /-- A synchronous open; the list says which allocations succeed. -/
  | openSync (env : OpenEnv) (cmd : GraphOpenCmd) (mallocs : List Bool)
  /-- An open in parallel to the data path. -/
  | openAsync (env : OpenEnv) (cmd : GraphOpenCmd) (mallocs : List Bool)
  /-- The cleanup after a failed open is prepared. -/
  | prepareCleanup (cmd : GraphOpenCmd)
  /-- A close command marks subgraphs and external ports. -/
  | markClosing (sgs extIns extOuts extCtrls : List Addr)
  /-- The graph is destroyed, in whole or as far as it is marked. -/
  | destroy (all : Bool)

namespace GuWorld

/-- A graph without subgraphs, in memory that is all zero. -/
def init : GuWorld where
  sgId := fun _ => 0
  sgGuStatus := fun _ => .default
  sgNumModules := fun _ => 0
  sgModuleList := fun _ => []
  moduleId := fun _ => 0
  moduleInstanceId := fun _ => 0
  amdbHandle := fun _ => false
  moduleType := fun _ => 0
  itype := fun _ => 0
  maxInputPorts := fun _ => 0
  maxOutputPorts := fun _ => 0
  minInputPorts := fun _ => 0
  minOutputPorts := fun _ => 0
  numInputPorts := fun _ => 0
  numOutputPorts := fun _ => 0
  numCtrlPorts := fun _ => 0
  moduleGuStatus := fun _ => .default
  isSource := fun _ => false
  isSink := fun _ => false
  isSiso := fun _ => false
  isElementary := fun _ => false
  isDsAtSgOrCntrBoundary := fun _ => false
  isUsAtSgOrCntrBoundary := fun _ => false
  inputPortList := fun _ => []
  outputPortList := fun _ => []
  ctrlPortList := fun _ => []
  moduleSg := fun _ => 0
  hostOutputPort := fun _ => none
  inId := fun _ => 0
  inModule := fun _ => 0
  inIndex := fun _ => 0
  inMark := fun _ => false
  connOutPort := fun _ => none
  extInPort := fun _ => none
  outId := fun _ => 0
  outModule := fun _ => 0
  outIndex := fun _ => 0
  outMark := fun _ => false
  elementaryPendingAttachment := fun _ => false
  connInPort := fun _ => none
  extOutPort := fun _ => none
  attachedModule := fun _ => none
  upstreamHandle := fun _ => .null
  intInPort := fun _ => none
  extInSg := fun _ => 0
  extInGuStatus := fun _ => .default
  downstreamHandle := fun _ => .null
  intOutPort := fun _ => none
  extOutSg := fun _ => 0
  extOutGuStatus := fun _ => .default
  ctrlId := fun _ => 0
  ctrlModule := fun _ => 0
  extCtrlPort := fun _ => none
  peerCtrlPort := fun _ => none
  peerHandle := fun _ => .null
  peerDomainId := fun _ => 0
  intCtrlPort := fun _ => none
  extCtrlSg := fun _ => 0
  extCtrlGuStatus := fun _ => .default
  gu := .empty
  asyncGu := none
  next := 0
  mallocs := []

/-- The status of objects that a close command names. -/
def setClosing (status : Addr → GuStatus) (objs : List Addr) (a : Addr) : GuStatus :=
  if a ∈ objs then .closing else status a

/-- Subgraphs and external ports are marked as closing. -/
def markClosing (w : GuWorld) (sgs extIns extOuts extCtrls : List Addr) : GuWorld :=
  { w with
    sgGuStatus := setClosing w.sgGuStatus sgs
    extInGuStatus := setClosing w.extInGuStatus extIns
    extOutGuStatus := setClosing w.extOutGuStatus extOuts
    extCtrlGuStatus := setClosing w.extCtrlGuStatus extCtrls }

/-- An open command, if it is valid. -/
def validated (w : GuWorld) (cmd : GraphOpenCmd) (x : GuM Unit) (mallocs : List Bool) : GuWorld :=
  if w.guValidateGraphOpenCmd cmd = .eok then endState x { w with mallocs := mallocs } else w

/-- One command. -/
def step (w : GuWorld) : GuOp → GuWorld
  | .openSync env cmd mallocs => w.validated cmd (graphOpen env cmd) mallocs
  | .openAsync env cmd mallocs => w.validated cmd (graphOpenAsync env cmd) mallocs
  | .prepareCleanup cmd => w.guPrepareCleanupForGraphOpenFailure cmd
  | .markClosing sgs extIns extOuts extCtrls => w.markClosing sgs extIns extOuts extCtrls
  | .destroy all => w.guDestroyGraph all

end GuWorld

end AudioReach
