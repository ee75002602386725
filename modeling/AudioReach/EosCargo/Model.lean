import AudioReach.ArResult
import AudioReach.Library.FirstMatch

/-!
# End-of-stream metadata and its container reference

An end-of-stream marker that enters a container gets a cargo, `gen_topo_eos_cargo_t`, which
remembers the input port.  Where the stream splits, the marker is cloned and the copies share
the cargo.  When the last of them leaves the container, the container is told by its callback
`clear_eos` and the cargo is freed.

The model follows `gen_topo_metadata_island.c` and `gen_topo_create_eos_for_cntr` of
`gen_topo_metadata.c`.  Metadata is in-band, so a node of a metadata list has its payload in it.
The lists of a container (of its ports and modules) have names of an arbitrary type.  A function
that would read a freed cargo does not return.  What the functions do to others is recorded in
order: the calls of `clear_eos`, the cargos freed and the tracking events raised.
-/

namespace AudioReach

open Function (update)
open Library

/-- `gen_topo_eos_cargo_t`. -/
structure EosCargo where
  didEosComeFromExtIn : Bool
  inpRef : Option Addr
  inpId : UInt32
  /-- `ref_count`; it counts objects in memory, so it does not grow out of its type. -/
  refCount : ℤ

/-- `module_cmn_md_eos_flags_t`, as far as it is read. -/
structure EosFlags where
  isFlushingEos : Bool
  isInternalEos : Bool
  deriving DecidableEq

/-- The metadata in a node, by `metadata_id`. -/
inductive MdBody
  /-- `MODULE_CMN_MD_ID_EOS` with `flags` and `cntr_ref_ptr`. -/
  | eos (flags : EosFlags) (cntrRefPtr : Option Addr)
  /-- `MODULE_CMN_MD_ID_DFG`. -/
  | dfg
  /-- Any other metadata. -/
  | other (metadataId : UInt32)
  deriving DecidableEq

/-- A node of a metadata list with its object. -/
structure MdNode where
  nodePtr : Addr
  body : MdBody
  offset : UInt32
  trackingPtr : Option Addr
  deriving DecidableEq

/-- A call of `clear_eos`: its arguments, and the cargo that the metadata refers to. -/
structure ClearEosCall where
  extInpRef : Option Addr
  extInpId : UInt32
  cntrRefPtr : Option Addr

/-- A tracking event, `gen_topo_raise_tracking_event`. -/
structure TrackingEvent where
  trackingPtr : Addr
  isMdRendered : Bool
  /-- `override_ctrl_to_disable_tracking_event`. -/
  overridden : Bool

/-- What the functions see of the topology: its metadata lists and the cargos. -/
structure EosTopo (κ : Type*) where
  lists : κ → List MdNode
  cargos : Addr → Option EosCargo
  /-- `topo_to_cntr_vtable_ptr->clear_eos` is set. -/
  hasClearEos : Bool
  /-- The calls of `clear_eos`. -/
  cleared : List ClearEosCall
  freed : List Addr
  events : List TrackingEvent

namespace EosTopo

variable {κ : Type*} [DecidableEq κ]

omit [DecidableEq κ] in
/-- `gen_topo_free_eos_cargo`; the reference of the metadata is null afterwards. -/
def freeEosCargo (t : EosTopo κ) (flags : EosFlags) (cntrRefPtr : Option Addr) :
    Option (EosTopo κ) :=
  match cntrRefPtr with
  | some c =>
    (t.cargos c).map fun cargo =>
      if cargo.refCount - 1 = 0 then
        { t with
          cargos := update t.cargos c none
          cleared := t.cleared ++
            if t.hasClearEos then [⟨cargo.inpRef, cargo.inpId, some c⟩] else []
          freed := t.freed ++ [c] }
      else
        { t with cargos := update t.cargos c (some { cargo with refCount := cargo.refCount - 1 }) }
  | none =>
    -- an end-of-stream marker that a module created
    some { t with
      cleared := t.cleared ++
        if flags.isFlushingEos && t.hasClearEos then [⟨none, 0, none⟩] else [] }

omit [DecidableEq κ] in
/-- `gen_topo_raise_tracking_event`, where there is something to track. -/
def raiseTrackingEvent (t : EosTopo κ) (node : MdNode) (isMdRendered overridden : Bool) :
    EosTopo κ :=
  { t with events := t.events ++ node.trackingPtr.toList.map fun p => ⟨p, isMdRendered, overridden⟩ }

/-- The list that a node is deleted from. -/
def deleteNode (t : EosTopo κ) (l : κ) (a : Addr) : EosTopo κ :=
  { t with lists := update t.lists l ((t.lists l).eraseP fun node => node.nodePtr = a) }

omit [DecidableEq κ] in
/-- The node at an address, in a list. -/
def findNode (t : EosTopo κ) (l : κ) (a : Addr) : Option MdNode :=
  (t.lists l).find? fun node => node.nodePtr = a

/-- `gen_topo_capi_metadata_destroy`, and for an end-of-stream marker
`gen_topo_respond_and_free_eos`. -/
def capiMetadataDestroy (t : EosTopo κ) (l : κ) (a : Addr) (isDropped overridden : Bool) :
    Option (EosTopo κ) :=
  (t.findNode l a).bind fun node =>
    let t := t.raiseTrackingEvent node (!isDropped) overridden
    match node.body with
    | .eos flags cntrRefPtr => (t.freeEosCargo flags cntrRefPtr).map fun t => t.deleteNode l a
    | _ => some (t.deleteNode l a)

/-- The node at an address with other metadata in it. -/
def setBody (t : EosTopo κ) (l : κ) (a : Addr) (body : MdBody) : EosTopo κ :=
  let nodes := updateFirst (fun node => node.nodePtr = a)
    (fun node => { node with body := body }) (t.lists l)
  { t with lists := update t.lists l nodes }

/-- `gen_topo_capi_metadata_modify_at_data_flow_start`. -/
def modifyAtDataFlowStart (t : EosTopo κ) (l : κ) (a : Addr) : Option (EosTopo κ) :=
  (t.findNode l a).bind fun node =>
    match node.body with
    | .eos flags cntrRefPtr =>
      if flags.isInternalEos then t.capiMetadataDestroy l a true false
      else if flags.isFlushingEos then
        some (t.setBody l a (.eos { flags with isFlushingEos := false } cntrRefPtr))
      else some t
    | .dfg => t.capiMetadataDestroy l a true false
    | .other _ => some t

/-- A node is inserted at the tail of a list. -/
def insertTail (t : EosTopo κ) (l : κ) (node : MdNode) : EosTopo κ :=
  { t with lists := update t.lists l (t.lists l ++ [node]) }

omit [DecidableEq κ] in
/-- One more marker refers to a cargo. -/
def addRef (t : EosTopo κ) (cntrRefPtr : Option Addr) : Option (EosTopo κ) :=
  match cntrRefPtr with
  | none => some t
  | some c => (t.cargos c).map fun cargo =>
      { t with cargos := update t.cargos c (some { cargo with refCount := cargo.refCount + 1 }) }

/-- `gen_topo_capi_metadata_clone` into the list `out`, where the heap returned `newNode`.  The
payload is copied byte by byte, so the copy refers to the cargo; an internal marker is copied
without its tracking. -/
def capiMetadataClone (t : EosTopo κ) (l : κ) (a : Addr) (out : κ) (newNode : Option Addr) :
    Option (EosTopo κ) :=
  (t.findNode l a).bind fun node =>
    match newNode with
    | none => some t
    | some new =>
      match node.body with
      | .eos flags cntrRefPtr =>
        let tracking := if flags.isInternalEos then none else node.trackingPtr
        (t.insertTail out { node with nodePtr := new, trackingPtr := tracking }).addRef cntrRefPtr
      | _ => some (t.insertTail out { node with nodePtr := new })

/-- The input port for which an end-of-stream marker is created. -/
structure EosInput where
  inputPort : Addr
  inputId : UInt32
  isExtIn : Bool

omit [DecidableEq κ] in
/-- `gen_topo_create_eos_cntr_ref`, where the heap returned `c`. -/
def createEosCntrRef (t : EosTopo κ) (inp : EosInput) (c : Addr) : EosTopo κ :=
  let cargo : EosCargo := ⟨inp.isExtIn, some inp.inputPort, inp.inputId, 1⟩
  { t with cargos := update t.cargos c (some cargo) }

/-- A marker without a cargo, if the heap returns a node. -/
def insertPlainEos (t : EosTopo κ) (l : κ) (flags : EosFlags) (offset : UInt32)
    (tracking newNode : Option Addr) : EosTopo κ :=
  match newNode with
  | some new => t.insertTail l ⟨new, .eos flags none, offset, tracking⟩
  | none => t

/-- `gen_topo_create_eos_for_cntr`: a flushing marker for an input port gets a cargo.  The heap
returns `cargo` and `newNode`; where it fails, no marker is made and nothing is left. -/
def createEosForCntr (t : EosTopo κ) (l : κ) (input : Option EosInput) (flags : EosFlags)
    (offset : UInt32) (tracking : Option Addr) (cargo newNode : Option Addr) : EosTopo κ :=
  match input with
  | some inp =>
    if flags.isFlushingEos then
      match cargo, newNode with
      | some c, some new =>
        (t.createEosCntrRef inp c).insertTail l ⟨new, .eos flags (some c), offset, tracking⟩
      | _, _ => t
    else t.insertPlainEos l flags offset tracking newNode
  | none => t.insertPlainEos l flags offset tracking newNode

/-- A flushing marker that arrives from a peer container gets a cargo, as in
`gen_cntr_process_eos_md_from_peer_cntr_util_`; without memory for it the marker is dropped. -/
def receiveEos (t : EosTopo κ) (l : κ) (a : Addr) (inp : EosInput) (cargo : Option Addr) :
    Option (EosTopo κ) :=
  (t.findNode l a).bind fun node =>
    match node.body with
    | .eos flags _ =>
      if flags.isFlushingEos then
        match cargo with
        | none => t.capiMetadataDestroy l a true false
        | some c =>
          some ((t.createEosCntrRef inp c).setBody l a (.eos flags (some c)))
      else some t
    | _ => some t

/-- A node moves to the tail of another list, with the offset it has there. -/
def moveNode (t : EosTopo κ) (l : κ) (a : Addr) (out : κ) (offset : UInt32) : Option (EosTopo κ) :=
  (t.findNode l a).map fun node =>
    (t.deleteNode l a).insertTail out { node with offset := offset }

/-- The loop of `gen_topo_destroy_all_metadata`. -/
def destroyAllMetadata (l : κ) : EosTopo κ → List MdNode → Option (EosTopo κ)
  | t, [] => some t
  | t, node :: nodes =>
    (t.capiMetadataDestroy l node.nodePtr true false).bind fun t => destroyAllMetadata l t nodes

omit [DecidableEq κ] in
/-- The loop of `gen_topo_populate_metadata_for_peer_cntr`: the topology, and the nodes as the
peer gets them. -/
def freeAllCargos : EosTopo κ → List MdNode → Option (EosTopo κ × List MdNode)
  | t, [] => some (t, [])
  | t, node :: nodes =>
    match node.body with
    | .eos flags cntrRefPtr =>
      (t.freeEosCargo flags cntrRefPtr).bind fun t =>
        (freeAllCargos t nodes).map fun r => (r.1, { node with body := .eos flags none } :: r.2)
    | _ => (freeAllCargos t nodes).map fun r => (r.1, node :: r.2)

/-- `gen_topo_populate_metadata_for_peer_cntr`: the topology, and the list for the peer, if
there is one. -/
def populateMetadataForPeerCntr (t : EosTopo κ) (l : κ) (connected : Bool) :
    Option (EosTopo κ × List MdNode) :=
  if !connected then (destroyAllMetadata l t (t.lists l)).map fun t => (t, [])
  else (freeAllCargos t (t.lists l)).map fun r =>
    ({ r.1 with lists := update r.1.lists l [] }, r.2)

end EosTopo

end AudioReach
