import AudioReach.GraphUtils.Model

/-!
# Attaching and detaching elementary modules

An elementary module with one input and one output may be taken out of the data path and
*attached* to the output port upstream of it, its host.  `gu_attach_module` makes the host port take
over the downstream connection and the external port of the module; `gu_detach_module`
puts the module back.  Both move the flag `is_ds_at_sg_or_cntr_boundary` between the two
modules.
-/

namespace AudioReach

open Function (update)

namespace GuWorld

/-- The assignments of `gu_attach_module`: `e` is the module downstream of the port `op`,
`i` and `o` its first ports. -/
def attachAt (w : GuWorld) (op e i o : Addr) : GuWorld :=
  let host := w.outModule op
  let w := match w.connInPort o, w.extOutPort o with
    | some next, _ => { w with
        connOutPort := update (update w.connOutPort i none) next (some op)
        connInPort := update (update w.connInPort o none) op (some next)
        attachedModule := update w.attachedModule op (some e)
        hostOutputPort := update w.hostOutputPort e (some op) }
    | none, some ext => { w with
        connOutPort := update w.connOutPort i none
        connInPort := update w.connInPort op none
        extOutPort := update (update w.extOutPort o none) op (some ext)
        intOutPort := update w.intOutPort ext (some op)
        attachedModule := update w.attachedModule op (some e)
        hostOutputPort := update w.hostOutputPort e (some op) }
    | none, none => w
  -- the boundary flag moves to the host
  { w with
    elementaryPendingAttachment := update w.elementaryPendingAttachment op false
    isDsAtSgOrCntrBoundary :=
      update (update w.isDsAtSgOrCntrBoundary host
        (w.isDsAtSgOrCntrBoundary host || w.isDsAtSgOrCntrBoundary e)) e false }

end GuWorld

/-- `gu_attach_module`. -/
def guAttachModule (op : Addr) : GuM Unit := do
  let w ← get
  if w.elementaryPendingAttachment op then
    match w.connInPort op with
    | none => throw .efailed
    | some ip =>
      match (w.inputPortList (w.inModule ip)).head?, (w.outputPortList (w.inModule ip)).head? with
      | some i, some o => modify fun w => w.attachAt op (w.inModule ip) i o
      | _, _ => throw .efailed
  else pure ()

namespace GuWorld

/-- The links of `gu_detach_module` when the host port has an external port: `op` hosts
`e`, whose first ports are `i` and `o`. -/
def detachExt (w : GuWorld) (op e i o ext : Addr) : GuWorld :=
  { w with
    connInPort := update w.connInPort op (some i)
    connOutPort := update w.connOutPort i (some op)
    extOutPort := update (update w.extOutPort o (some ext)) op none
    intOutPort := update w.intOutPort ext (some o)
    attachedModule := update w.attachedModule op none
    hostOutputPort := update w.hostOutputPort e none }

/-- The links of `gu_detach_module` when the host port is connected to `next`. -/
def detachInt (w : GuWorld) (op e i o next : Addr) : GuWorld :=
  { w with
    connInPort := update (update w.connInPort op (some i)) o (some next)
    connOutPort := update (update w.connOutPort i (some op)) next (some o)
    attachedModule := update w.attachedModule op none
    hostOutputPort := update w.hostOutputPort e none }

/-- The sorted list after `spf_list_search_and_add_obj`. -/
def searchAndAdd (sorted : List Addr) (m : Addr) : List Addr :=
  if m ∈ sorted then sorted else sorted ++ [m]

/-- The sorted list after the search for the module and the insertion in front of it. -/
def insertBefore (m : Addr) (before : Addr) : List Addr → List Addr
  | [] => []
  | a :: rest => if a = before then m :: a :: rest else a :: insertBefore m before rest

/-- Replace the sorted list, if the list node could be allocated, and record that it was touched. -/
def resort (w : GuWorld) (f : List Addr → List Addr) : GuWorld :=
  { w with
    gu := { w.gu with
      sortedModuleList := if w.mallocs.head?.getD true then f w.gu.sortedModuleList
        else w.gu.sortedModuleList
      sortUpdated := true }
    mallocs := w.mallocs.tail }

end GuWorld

/-- `gu_detach_module`.  It is called only for attached modules; without a host, or
without ports, the source reads through null pointers. -/
def guDetachModule (e : Addr) : GuM Unit := do
  let w ← get
  match w.hostOutputPort e, (w.inputPortList e).head?, (w.outputPortList e).head? with
  | some op, some i, some o =>
    match w.extOutPort op, w.connInPort op with
    | some ext, _ =>
      modify fun w => w.detachExt op e i o ext
      modify fun w => w.resort fun sorted => GuWorld.searchAndAdd sorted e
      modify fun w => { w with
        isDsAtSgOrCntrBoundary :=
          update (update w.isDsAtSgOrCntrBoundary (w.outModule op) false) e true }
    | none, some next =>
      modify fun w => w.detachInt op e i o next
      modify fun w => w.resort (GuWorld.insertBefore e (w.inModule next))
      modify fun w => { w with
        isDsAtSgOrCntrBoundary :=
          update (update w.isDsAtSgOrCntrBoundary e
            (w.isDsAtSgOrCntrBoundary e || w.isDsAtSgOrCntrBoundary (w.outModule op)))
            (w.outModule op) false }
    | none, none => throw .efailed
  | _, _, _ => throw .efailed

namespace GuWorld

/-- The elementary module of a link that `gu_parse_and_attach_elementary_module` looks at. -/
def attachCandidate (w : GuWorld) (src dst : Option Addr) : Option Addr :=
  match src.filter fun m => w.isElementary m && (w.hostOutputPort m).isNone with
  | some m => some m
  | none => dst.filter fun m => w.isElementary m && (w.hostOutputPort m).isNone

/-- The checks of `gu_parse_and_attach_elementary_module`: the output port upstream of the
module and the output port of the module, if the module can be attached. -/
def attachPlace (w : GuWorld) (m : Addr) : Option (Addr × Addr) :=
  if w.isSiso m then
    match (w.inputPortList m).head?, (w.outputPortList m).head? with
    | some i, some o =>
      match w.connOutPort i with
      | none => none
      | some op =>
        if (w.hostOutputPort (w.outModule op)).isNone ∧ w.moduleSg (w.outModule op) = w.moduleSg m ∧
            (w.attachedModule op).isNone ∧ (w.attachedModule o).isNone then some (op, o)
        else none
    | _, _ => none
  else none

/-- The flag by which an output port is marked for attachment. -/
def setPending (w : GuWorld) (op : Addr) (b : Bool) : GuWorld :=
  { w with elementaryPendingAttachment := update w.elementaryPendingAttachment op b }

/-- Does the external port know its peer? -/
def extConnected (w : GuWorld) (ext : Addr) : Bool :=
  (w.downstreamHandle ext).spfHandle

end GuWorld

/-- `gu_attach_module` where the source ignores its result. -/
def guTryAttachModule (op : Addr) : GuM Unit :=
  modify fun w => Library.endState (guAttachModule op) w

/-- `gu_parse_and_attach_elementary_module`. -/
def guParseAndAttachElementaryModule (src dst : Option Addr) : GuM Unit := do
  let w ← get
  match w.attachCandidate src dst with
  | none => pure ()
  | some m =>
    match w.attachPlace m with
    | none => pure ()
    | some (op, o) =>
      match w.connInPort o, w.extOutPort o with
      | some _, _ =>
        modify fun w => w.setPending op true
        -- the module downstream is not attached to a module that is itself attached
        modify fun w => w.setPending o false
        guTryAttachModule op
      | none, some ext =>
        modify fun w => w.setPending op true
        if w.extConnected ext then guTryAttachModule op else pure ()
      | none, none => pure ()

namespace GuWorld

/-- The modules of the graph. -/
def modules (w : GuWorld) : List Addr :=
  w.gu.sgList.flatMap w.sgModuleList

/-- The output ports of the graph, in the order of the loops over it. -/
def outPorts (w : GuWorld) : List Addr :=
  w.modules.flatMap w.outputPortList

end GuWorld

/-- Internal ports are attached at once, external ones when they are connected. -/
def guAttachWhenConnected (op : Addr) : GuM Unit := do
  let w ← get
  match w.extOutPort op with
  | none => guAttachModule op
  | some ext => if w.extConnected ext then guAttachModule op else pure ()

/-- The attached module leaves the sorted list. -/
def GuWorld.unsort (w : GuWorld) (op : Addr) : GuWorld :=
  if w.gu.sortedModuleList = [] then w
  else { w with gu := { w.gu with
    sortedModuleList := match w.attachedModule op with
      | none => w.gu.sortedModuleList
      | some m => w.gu.sortedModuleList.erase m
    sortUpdated := true } }

/-- One round of `gu_attach_pending_elementary_modules`. -/
def guAttachPendingPort (op : Addr) : GuM Unit := do
  let w ← get
  if w.elementaryPendingAttachment op then do
    guAttachWhenConnected op
    modify fun w => w.unsort op
  else pure ()

/-- `gu_attach_pending_elementary_modules`. -/
def guAttachPendingElementaryModules : GuM Unit := do
  let w ← get
  w.outPorts.forM guAttachPendingPort

end AudioReach
