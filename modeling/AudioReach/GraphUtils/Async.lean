import AudioReach.GraphUtils.Destroy

/-!
# Asynchronous opens

While the data path runs, an open command builds its subgraphs and external ports in a
graph of its own.  Ports for modules that already run wait on a list; `gu_finish_async_create`
merges the two graphs and inserts these ports.
-/

namespace AudioReach

open Function (update)
open Library

/-- `gu_prepare_async_create`. -/
def guPrepareAsyncCreate : GuM Unit := do
  let w ← get
  if w.asyncGu.isSome then throw .ebadparam
  else if w.gu.numSubgraphs = 0 then pure ()
  else do
    malloc
    modify fun w => { w with asyncGu := some ⟨Gu.empty, []⟩ }

/-- `gu_insert_pending_ports`, one port. -/
def guInsertPendingPort : GuCmnPort → GuM Unit
  | .input i => do
    let w ← get
    let m := w.inModule i
    guInsertInputPort m i
    modify fun w => { w with
      isUsAtSgOrCntrBoundary := update w.isUsAtSgOrCntrBoundary m true }
    modify fun w => w.guUpdateModuleSinkSrcInfo m
    guParseAndAttachElementaryModule ((w.connOutPort i).map w.outModule) (some m)
  | .output o => do
    let w ← get
    let m := w.outModule o
    guInsertOutputPort m o
    modify fun w => { w with
      isDsAtSgOrCntrBoundary := update w.isDsAtSgOrCntrBoundary m true }
    modify fun w => w.guUpdateModuleSinkSrcInfo m
    guParseAndAttachElementaryModule (some m) ((w.connInPort o).map w.inModule)

namespace GuWorld

/-- The lists of `gu_finish_async_create` put together. -/
def mergeAsync (w : GuWorld) (src : Gu) : GuWorld :=
  { w with gu := { w.gu with
      numSubgraphs := (w.gu.numSubgraphs + src.numSubgraphs) % 256
      sgList := w.gu.sgList ++ src.sgList
      numExtInPorts := (w.gu.numExtInPorts + src.numExtInPorts) % 256
      extInPortList := w.gu.extInPortList ++ src.extInPortList
      numExtOutPorts := (w.gu.numExtOutPorts + src.numExtOutPorts) % 256
      extOutPortList := w.gu.extOutPortList ++ src.extOutPortList
      numExtCtrlPorts := (w.gu.numExtCtrlPorts + src.numExtCtrlPorts) % 256
      extCtrlPortList := w.gu.extCtrlPortList ++ src.extCtrlPortList } }

/-- The asynchronous graph is freed. -/
def dropAsync (w : GuWorld) : GuWorld :=
  { w with asyncGu := none }

end GuWorld

/-- `gu_finish_async_create`, the body that may fail. -/
def guMergeAsyncCreate (async : GuAsyncGraph) : GuM Unit := do
  modify fun w => w.mergeAsync async.gu
  async.portList.forM guInsertPendingPort
  if async.portList ≠ [] ∨ async.gu.numSubgraphs ≠ 0 then guUpdateSortedList else pure ()

/-- `gu_finish_async_create`. -/
def guFinishAsyncCreate : GuM Unit := do
  let w ← get
  match w.asyncGu with
  | none => pure ()
  | some async => do
    onError (guMergeAsyncCreate async) GuWorld.dropAsync
    modify GuWorld.dropAsync

namespace GuWorld

/-- `gen_topo_create_modules`, as far as the graph sees it: the topology layer has created
the new modules and ports of a subgraph, which then are no longer new. -/
def settleSubgraph (w : GuWorld) (sg : Addr) : GuWorld :=
  if w.sgGuStatus sg = .default then w else
    { w with
      moduleGuStatus := fun m => if m ∈ w.sgModuleList sg then .default else w.moduleGuStatus m
      sgGuStatus := update w.sgGuStatus sg .default }

/-- `gen_topo_create_modules` for the graph of the current command. -/
def genTopoCreateModules (w : GuWorld) : GuWorld :=
  w.openGu.sgList.foldl settleSubgraph w

end GuWorld

end AudioReach
