import Mathlib.Logic.Function.Iterate
import AudioReach.GraphUtils.Create

/-!
# Closing a graph

`gu_destroy_graph` removes the external ports and subgraphs that are marked as closing and
then sweeps the remaining modules: a port that has lost its connection goes, unless it
hosts an attached module, which is hung back behind it.

`gu_prepare_cleanup_for_graph_open_failure` marks what a failed open command has created,
and `gu_validate_graph_open_cmd` refuses commands that name what exists already.
-/

namespace AudioReach

open Function (update)
open Library

namespace GuWorld

/-! ## External ports -/

/-- `gu_destroy_graph`, one external input port. -/
def destroyExtInPort (all : Bool) (w : GuWorld) (e : Addr) : GuWorld :=
  if all ∨ w.extInGuStatus e = .closing ∨ w.sgGuStatus (w.extInSg e) = .closing then
    { w with
      extInPort := match w.intInPort e with
        | none => w.extInPort
        | some i => update w.extInPort i none
      intInPort := update w.intInPort e none
      gu := { w.gu with
        numExtInPorts := decU8 w.gu.numExtInPorts
        extInPortList := w.gu.extInPortList.erase e } }
  else w

/-- `gu_destroy_graph`, one external output port. -/
def destroyExtOutPort (all : Bool) (w : GuWorld) (e : Addr) : GuWorld :=
  if all ∨ w.extOutGuStatus e = .closing ∨ w.sgGuStatus (w.extOutSg e) = .closing then
    { w with
      extOutPort := match w.intOutPort e with
        | none => w.extOutPort
        | some o => update w.extOutPort o none
      intOutPort := update w.intOutPort e none
      gu := { w.gu with
        numExtOutPorts := decU8 w.gu.numExtOutPorts
        extOutPortList := w.gu.extOutPortList.erase e } }
  else w

/-- `gu_destroy_graph`, one external control port. -/
def destroyExtCtrlPort (all : Bool) (w : GuWorld) (e : Addr) : GuWorld :=
  if all ∨ w.extCtrlGuStatus e = .closing ∨ w.sgGuStatus (w.extCtrlSg e) = .closing then
    { w with
      extCtrlPort := match w.intCtrlPort e with
        | none => w.extCtrlPort
        | some p => update w.extCtrlPort p none
      intCtrlPort := update w.intCtrlPort e none
      gu := { w.gu with
        numExtCtrlPorts := decU8 w.gu.numExtCtrlPorts
        extCtrlPortList := w.gu.extCtrlPortList.erase e } }
  else w

/-! ## Subgraphs -/

/-- The upstream port of a destroyed input port loses its connection. -/
def disconnectInput (w : GuWorld) (i : Addr) : GuWorld :=
  match w.connOutPort i with
  | none => w
  | some o => { w with connInPort := update w.connInPort o none }

/-- The downstream port of a destroyed output port loses its connection. -/
def disconnectOutput (w : GuWorld) (o : Addr) : GuWorld :=
  { w with
    connOutPort := match w.connInPort o with
      | none => w.connOutPort
      | some i => update w.connOutPort i none
    attachedModule := update w.attachedModule o none }

/-- The peer of a destroyed control port loses its connection. -/
def disconnectCtrl (w : GuWorld) (p : Addr) : GuWorld :=
  match w.peerCtrlPort p with
  | none => w
  | some q => { w with peerCtrlPort := update w.peerCtrlPort q none }

/-- The destroyed module leaves the list of its subgraph and the sorted list. -/
def unlistModule (w : GuWorld) (sg m : Addr) : GuWorld :=
  { w with
    sgNumModules := update w.sgNumModules sg (w.sgNumModules sg - 1)
    gu := if w.gu.sortedModuleList = [] then w.gu else { w.gu with
      sortedModuleList := w.gu.sortedModuleList.erase m
      sortUpdated := true } }

/-- `gu_destroy_graph`, one module of a closing subgraph. -/
def destroyModule (sg : Addr) (w : GuWorld) (m : Addr) : GuWorld :=
  let w := w.unlistModule sg m
  let w := (w.inputPortList m).foldl disconnectInput w
  let w := { w with
    inputPortList := update w.inputPortList m []
    numInputPorts := update w.numInputPorts m 0 }
  let w := (w.outputPortList m).foldl disconnectOutput w
  let w := { w with
    outputPortList := update w.outputPortList m []
    numOutputPorts := update w.numOutputPorts m 0 }
  let w := (w.ctrlPortList m).foldl disconnectCtrl w
  { w with
    ctrlPortList := update w.ctrlPortList m []
    numCtrlPorts := update w.numCtrlPorts m 0
    hostOutputPort := update w.hostOutputPort m none }

/-- `gu_destroy_graph`, one subgraph. -/
def destroySubgraph (all : Bool) (w : GuWorld) (sg : Addr) : GuWorld :=
  if all ∨ w.sgGuStatus sg = .closing then
    let w := { w with gu := { w.gu with
      numSubgraphs := decU8 w.gu.numSubgraphs
      sgList := w.gu.sgList.erase sg } }
    let w := (w.sgModuleList sg).foldl (destroyModule sg) w
    { w with sgModuleList := update w.sgModuleList sg [] }
  else w

/-! ## The sweep -/

/-- An input port without a connection. -/
def danglingIn (w : GuWorld) (i : Addr) : Bool :=
  (w.extInPort i).isNone && (w.connOutPort i).isNone

/-- An output port without a connection. -/
def danglingOut (w : GuWorld) (o : Addr) : Bool :=
  (w.extOutPort o).isNone && (w.connInPort o).isNone

/-- The input port leads out of the subgraph. -/
def usBoundary (w : GuWorld) (sg i : Addr) : Bool :=
  (w.extInPort i).isSome || (w.connOutPort i).any fun o => w.moduleSg (w.outModule o) ≠ sg

/-- The output port leads out of the subgraph. -/
def dsBoundary (w : GuWorld) (sg o : Addr) : Bool :=
  (w.extOutPort o).isSome || (w.connInPort o).any fun i => w.moduleSg (w.inModule i) ≠ sg

/-- `gu_cleanup_dangling_data_ports`, the input ports of a module. -/
def cleanupInputs (w : GuWorld) (m : Addr) : GuWorld :=
  let gone := (w.inputPortList m).countP w.danglingIn
  { w with
    inputPortList := update w.inputPortList m ((w.inputPortList m).filter fun i => !w.danglingIn i)
    numInputPorts := update w.numInputPorts m (Nat.iterate decU8 gone (w.numInputPorts m)) }

/-- A port that lost its downstream connection gets its attached module back, which loses
its own output port. -/
def rehang (w : GuWorld) (o e : Addr) : GuWorld :=
  let w := match (w.inputPortList e).head? with
    | none => w
    | some i => { w with
        connInPort := update w.connInPort o (some i)
        connOutPort := update w.connOutPort i (some o) }
  let w := { w with
    attachedModule := update w.attachedModule o none
    hostOutputPort := update w.hostOutputPort e none }
  if w.outputPortList e = [] then w else
    GuWorld.guUpdateModuleSinkSrcInfo { w with
      outputPortList := update w.outputPortList e (w.outputPortList e).tail
      isDsAtSgOrCntrBoundary := update w.isDsAtSgOrCntrBoundary e true
      numOutputPorts := update w.numOutputPorts e (decU8 (w.numOutputPorts e)) } e

/-- `gu_cleanup_dangling_data_ports`, one output port of a module. -/
def cleanupOutput (m : Addr) (w : GuWorld) (o : Addr) : GuWorld :=
  if w.danglingOut o then
    match w.attachedModule o with
    | some e => w.rehang o e
    | none => { w with
        outputPortList := update w.outputPortList m ((w.outputPortList m).erase o)
        numOutputPorts := update w.numOutputPorts m (decU8 (w.numOutputPorts m)) }
  else w

/-- `gu_cleanup_dangling_data_ports`, the ports of a module that is not attached. -/
def cleanupPorts (w : GuWorld) (m : Addr) : GuWorld :=
  let w := w.cleanupInputs m
  (w.outputPortList m).foldl (cleanupOutput m) w

/-- `gu_cleanup_dangling_data_ports`, one module.  The boundary flags are computed anew;
an attached module is at no boundary. -/
def cleanupModule (w : GuWorld) (m : Addr) : GuWorld :=
  let sg := w.moduleSg m
  let attached := (w.hostOutputPort m).isSome
  let w' := if attached then w else w.cleanupPorts m
  let updated := !attached && ((w.inputPortList m).any w.danglingIn ||
    (w.outputPortList m).any fun o => w.danglingOut o && (w.attachedModule o).isNone)
  let w' := if updated then w'.guUpdateModuleSinkSrcInfo m else w'
  -- a port that got its attached module back lies inside the subgraph
  { w' with
    isUsAtSgOrCntrBoundary := update w'.isUsAtSgOrCntrBoundary m
      (!attached && (w.inputPortList m).any (w.usBoundary sg))
    isDsAtSgOrCntrBoundary := update w'.isDsAtSgOrCntrBoundary m
      (!attached && (w.outputPortList m).any (w.dsBoundary sg)) }

/-- `gu_cleanup_dangling_data_ports`. -/
def guCleanupDanglingDataPorts (w : GuWorld) : GuWorld :=
  w.modules.foldl cleanupModule w

/-- `gu_cleanup_danling_control_ports`, one module. -/
def cleanupCtrl (w : GuWorld) (m : Addr) : GuWorld :=
  let dangling := fun p => (w.extCtrlPort p).isNone && (w.peerCtrlPort p).isNone
  { w with
    ctrlPortList := update w.ctrlPortList m ((w.ctrlPortList m).filter fun p => !dangling p)
    numCtrlPorts := update w.numCtrlPorts m
      (Nat.iterate decU8 ((w.ctrlPortList m).countP dangling) (w.numCtrlPorts m)) }

/-- `gu_cleanup_danling_control_ports`. -/
def guCleanupDanlingControlPorts (w : GuWorld) : GuWorld :=
  w.modules.foldl cleanupCtrl w

/-- `gu_destroy_graph`. -/
def guDestroyGraph (w : GuWorld) (all : Bool) : GuWorld :=
  let w := w.gu.extInPortList.foldl (destroyExtInPort all) w
  let w := w.gu.extOutPortList.foldl (destroyExtOutPort all) w
  let w := w.gu.extCtrlPortList.foldl (destroyExtCtrlPort all) w
  let w := w.gu.sgList.foldl (destroySubgraph all) w
  w.guCleanupDanglingDataPorts.guCleanupDanlingControlPorts

/-! ## Validation and failed opens -/

/-- `gu_find_module` as the command handlers call it: instance 0 is the client. -/
def findNonzero (w : GuWorld) (iid : UInt32) : Option Addr :=
  if iid = 0 then none else w.guFindModule w.gu iid

/-- `gu_validate_graph_open_cmd`. -/
def guValidateGraphOpenCmd (w : GuWorld) (cmd : GraphOpenCmd) : ArResult :=
  if cmd.sgCfgList.any fun sg => (w.guFindSubgraph w.gu sg.subGraphId).isSome then .eduplicate
  else
    match (cmd.modList.flatMap ApmModulesList.modules).find? fun m =>
        (w.guFindModule w.gu m.instanceId).isSome || decide (m.instanceId < 0x4001) with
    | some m => if (w.guFindModule w.gu m.instanceId).isSome then .eduplicate else .ebadparam
    | none =>
      if cmd.modConnList.any fun c =>
          (w.findNonzero c.srcModInstId).any (fun m =>
            (w.guFindOutputPort m c.srcModOpPortId).isSome) ||
          (w.findNonzero c.dstModInstId).any fun m =>
            (w.guFindInputPort m c.dstModIpPortId).isSome then .eduplicate
      else if cmd.modCtrlLinkCfgList.any fun c =>
          (w.findNonzero c.peer1ModIid).any (fun m =>
            (w.guFindCtrlPortById m c.peer1ModCtrlPortId).isSome) ||
          (w.findNonzero c.peer2ModIid).any fun m =>
            (w.guFindCtrlPortById m c.peer2ModCtrlPortId).isSome then .eduplicate
      else .eok

/-- `gu_prepare_cleanup_for_graph_open_failure`, one subgraph. -/
def prepareCleanupSg (w : GuWorld) (cfg : ApmSubGraphCfg) : GuWorld :=
  match w.guFindSubgraph w.gu cfg.subGraphId with
  | none => w
  | some sg => { w with sgGuStatus := update w.sgGuStatus sg .closing }

/-- `gu_prepare_cleanup_for_graph_open_failure`, one data link.  A link with both ports in
the container is left to the close of its subgraphs. -/
def prepareCleanupConn (w : GuWorld) (conn : ApmModuleConnCfg) : GuWorld :=
  match (w.findNonzero conn.srcModInstId).bind (w.guFindOutputPort · conn.srcModOpPortId),
      (w.findNonzero conn.dstModInstId).bind (w.guFindInputPort · conn.dstModIpPortId) with
  | some _, some _ => w
  | some o, none =>
    match w.extOutPort o with
    | none => w
    | some e =>
      if (w.downstreamHandle e).moduleInstanceId = conn.dstModInstId ∧
          (w.downstreamHandle e).portId = conn.dstModIpPortId then
        { w with extOutGuStatus := update w.extOutGuStatus e .closing }
      else w
  | none, some i =>
    match w.extInPort i with
    | none => w
    | some e =>
      if (w.upstreamHandle e).moduleInstanceId = conn.srcModInstId ∧
          (w.upstreamHandle e).portId = conn.srcModOpPortId then
        { w with extInGuStatus := update w.extInGuStatus e .closing }
      else w
  | none, none => w

/-- The external control port of a failed link, if it is the one the link asked for. -/
def prepareCleanupCtrlPort (w : GuWorld) (p : Addr) (iid port : UInt32) : GuWorld :=
  match w.extCtrlPort p with
  | none => w
  | some e =>
    if (w.peerHandle e).moduleInstanceId = iid ∧ (w.peerHandle e).portId = port then
      { w with extCtrlGuStatus := update w.extCtrlGuStatus e .closing }
    else w

/-- `gu_prepare_cleanup_for_graph_open_failure`, one control link. -/
def prepareCleanupCtrlLink (w : GuWorld) (link : ApmModuleCtrlLinkCfg) : GuWorld :=
  match
      (w.guFindModule w.gu link.peer1ModIid).bind (w.guFindCtrlPortById · link.peer1ModCtrlPortId),
      (w.guFindModule w.gu link.peer2ModIid).bind (w.guFindCtrlPortById · link.peer2ModCtrlPortId)
      with
  | some p, none => w.prepareCleanupCtrlPort p link.peer2ModIid link.peer2ModCtrlPortId
  | none, some q => w.prepareCleanupCtrlPort q link.peer1ModIid link.peer1ModCtrlPortId
  | _, _ => w

/-- `gu_prepare_cleanup_for_graph_open_failure`. -/
def guPrepareCleanupForGraphOpenFailure (w : GuWorld) (cmd : GraphOpenCmd) : GuWorld :=
  let w := cmd.sgCfgList.foldl prepareCleanupSg w
  let w := cmd.modConnList.foldl prepareCleanupConn w
  cmd.modCtrlLinkCfgList.foldl prepareCleanupCtrlLink w

end GuWorld

end AudioReach
