import AudioReach.EosCargo.Model

/-!
# Metadata when new data arrives

A flushing end-of-stream marker and a data flow gap say that no data follows.  When data does
follow, they have lost their meaning: as data is copied from an output port to the next input
port, together with the metadata that belongs to it, `gen_topo_metadata_island.c` converts or
destroys every such marker in front of the end of the data, in the list of the input port and in
the internal list of the module.

This file embeds `gen_topo_move_md_from_prev_to_next_util_` and the queries that look for such
markers in a list.  The nodes are those of the cargo model; here their lists are what counts, and
the cargos, the tracking events and the votes are left out.
-/

namespace AudioReach.DataArrival

/-! ## Media formats -/

/-- `topo_media_fmt_t`, as far as lengths are converted with it. -/
structure MediaFmt where
  dataFormat : UInt32
  numChannels : UInt32
  /-- `pcm.bits_per_sample`, a number of whole bytes. -/
  bitsPerSample : UInt16
  sampleRate : UInt32

/-- `SPF_IS_PACKETIZED_OR_PCM`: fixed and floating point, IEC 61937, DSD over PCM, compressed over
PCM, generic compressed, and IEC 60958. -/
def MediaFmt.isPacketizedOrPcm (f : MediaFmt) : Bool := f.dataFormat &&& 0x1FB ≠ 0

/-- `topo_bytes_to_samples_per_ch`. -/
def MediaFmt.bytesToSamplesPerCh (f : MediaFmt) (bytes : UInt32) : UInt32 :=
  if f.numChannels ≠ 0 ∧ f.bitsPerSample ≠ 0 then
    bytes / (f.numChannels.toUInt64 * (f.bitsPerSample >>> 3).toUInt64).toUInt32
  else 0

/-- The bytes of all channels in the unit of an offset. -/
def MediaFmt.convertedBytes (f : MediaFmt) (bytes : UInt32) : UInt32 :=
  if f.isPacketizedOrPcm then f.bytesToSamplesPerCh bytes else bytes

/-- `topo_us_to_bytes_per_ch`. -/
def MediaFmt.usToBytesPerCh (f : MediaFmt) (timeUs : UInt64) : UInt32 :=
  let samples := ((timeUs * f.sampleRate.toUInt64 + 1000000 - 1) / 1000000).toUInt32
  samples * (f.bitsPerSample >>> 3).toUInt32

/-! ## State -/

/-- The input port that gets the data. -/
structure NextPort where
  /-- `sdata.metadata_list_ptr`. -/
  metadataList : List MdNode
  /-- `media_fmt_ptr`. -/
  mediaFmt : MediaFmt
  markerEos : Bool
  endOfFrame : Bool

/-- The output port from which the data is copied. -/
structure PrevPort where
  /-- `sdata.metadata_list_ptr`. -/
  metadataList : List MdNode
  /-- `media_fmt_ptr`. -/
  mediaFmt : MediaFmt
  markerEos : Bool
  endOfFrame : Bool

/-- The module of the input port. -/
structure NextModule where
  /-- `int_md_list_ptr`. -/
  intMdList : List MdNode
  pendingZerosAtEos : UInt32
  /-- `gen_topo_fwk_owns_md_prop`. -/
  fwkOwnsMdProp : Bool
  disabled : Bool
  algoDelay : UInt32

/-- A connection of two modules. -/
structure Link where
  module : NextModule
  next : NextPort
  prev : PrevPort

/-! ## Nodes -/

/-- The node is an end-of-stream marker. -/
def isEos (node : MdNode) : Bool :=
  match node.body with
  | .eos _ _ => true
  | _ => false

/-- `gen_topo_is_flushing_eos`, for a node. -/
def isFlushingEos (node : MdNode) : Bool :=
  match node.body with
  | .eos flags _ => flags.isFlushingEos
  | _ => false

/-- The node is an end-of-stream marker that the framework inserted. -/
def isInternalEos (node : MdNode) : Bool :=
  match node.body with
  | .eos flags _ => flags.isInternalEos
  | _ => false

/-- The node is a data flow gap. -/
def isDfg (node : MdNode) : Bool :=
  match node.body with
  | .dfg => true
  | _ => false

/-- `gen_topo_capi_metadata_modify_at_data_flow_start`: what becomes of a node, or `none` if it is
destroyed. -/
def modifyAtDataFlowStart (node : MdNode) : Option MdNode :=
  match node.body with
  | .eos flags cntrRefPtr =>
    if flags.isInternalEos then none
    else if flags.isFlushingEos then
      some { node with body := .eos { flags with isFlushingEos := false } cntrRefPtr }
    else some node
  | .dfg => none
  | .other _ => some node

/-! ## Queries -/

/-- `gen_topo_md_list_find_md_by_id`: the first node with an id. -/
def findMdById (hasId : MdNode → Bool) (list : List MdNode) : Option MdNode := list.find? hasId

/-- `gen_topo_md_list_has_dfg`. -/
def mdListHasDfg (list : List MdNode) : Bool := (findMdById isDfg list).isSome

/-- `gen_topo_md_list_has_flushing_eos`. -/
def mdListHasFlushingEos (list : List MdNode) : Bool :=
  match findMdById isEos list with
  | some node => isFlushingEos node
  | none => false

/-- `gen_topo_md_list_has_flushing_eos_or_dfg`. -/
def mdListHasFlushingEosOrDfg (list : List MdNode) : Bool :=
  match findMdById (fun node => isDfg node || isEos node) list with
  | some node => if isEos node then isFlushingEos node else true
  | none => false

/-! ## The metadata that belongs to the data -/

/-- `gen_topo_check_move_metadata`. -/
def checkMoveMetadata (mdOffset inBytesBefore inBytesConsumedPerCh : UInt32) : Bool :=
  let inDataPresent := inBytesBefore ≠ 0
  (inDataPresent && mdOffset ≤ inBytesConsumedPerCh && inBytesConsumedPerCh ≠ 0) ||
    (!inDataPresent && mdOffset = 0)

/-- The lists and the variables of the loop of `gen_topo_move_md`. -/
structure MoveMd where
  dst : List MdNode
  src : List MdNode
  dstReceivedFlushEos : Bool
  dstReceivedNewDfg : Bool
  anyFlushEosNotPropagated : Bool
  anyFlushEosDfgNotPropagated : Bool
  anyFlushEosDfgExistedInSrc : Bool

/-- The body of the loop of `gen_topo_move_md`; the lengths are in the units of the offsets. -/
def moveMdNode (bytesAlreadyInSrc copiedFromSrc alreadyInDst : UInt32) (m : MoveMd)
    (node : MdNode) : MoveMd :=
  let moveMd := checkMoveMetadata node.offset bytesAlreadyInSrc copiedFromSrc
  let isFlushEosDfg := isDfg node || isFlushingEos node
  let m := { m with
    dstReceivedFlushEos := m.dstReceivedFlushEos || (isFlushingEos node && moveMd)
    anyFlushEosNotPropagated := m.anyFlushEosNotPropagated || (isFlushingEos node && !moveMd)
    anyFlushEosDfgExistedInSrc := m.anyFlushEosDfgExistedInSrc || isFlushEosDfg }
  if moveMd then
    { m with
      dstReceivedNewDfg := m.dstReceivedNewDfg || isDfg node
      dst := m.dst ++ [{ node with offset := node.offset + alreadyInDst }] }
  else
    { m with
      anyFlushEosDfgNotPropagated := m.anyFlushEosDfgNotPropagated || isFlushEosDfg
      src := m.src ++ [{ node with
        offset := if node.offset ≥ copiedFromSrc then node.offset - copiedFromSrc else 0 }] }

/-- What `gen_topo_move_md` tells its caller. -/
structure Moved where
  dst : List MdNode
  src : List MdNode
  /-- `*dst_received_flush_eos_ptr`. -/
  dstReceivedFlushEos : Bool
  /-- `*src_has_no_more_flush_eos_ptr`. -/
  srcHasNoMoreFlushEos : Bool
  /-- `*dst_received_new_dfg_ptr`. -/
  dstReceivedNewDfg : Bool
  /-- `*all_dfg_or_flush_eos_moved_ptr`. -/
  allDfgOrFlushEosMoved : Bool

/-- `gen_topo_move_md`. -/
def moveMd (srcFmt dstFmt : MediaFmt) (src dst : List MdNode)
    (bytesAlreadyInDst bytesAlreadyInSrc bytesCopiedFromSrc : UInt32) : Moved :=
  if src.isEmpty then ⟨dst, src, false, false, false, false⟩
  else
    let m := src.foldl (moveMdNode bytesAlreadyInSrc (srcFmt.convertedBytes bytesCopiedFromSrc)
        (dstFmt.convertedBytes bytesAlreadyInDst))
      ⟨dst, [], false, false, false, false, false⟩
    ⟨m.dst, m.src, m.dstReceivedFlushEos, !m.anyFlushEosNotPropagated, m.dstReceivedNewDfg,
      m.anyFlushEosDfgExistedInSrc && !m.anyFlushEosDfgNotPropagated⟩

/-! ## The markers in front of the data -/

/-- `gen_topo_md_list_modify_md_when_new_data_arrives`: the list, `*new_marker_eos_ptr` and
`*has_new_dfg_ptr`. -/
def mdListModifyMdWhenNewDataArrives (endOffset : UInt32) : List MdNode → List MdNode × Bool × Bool
  | [] => ([], false, false)
  | node :: list =>
    let r := mdListModifyMdWhenNewDataArrives endOffset list
    if node.offset < endOffset then ((modifyAtDataFlowStart node).toList ++ r.1, r.2)
    else (node :: r.1, isFlushingEos node || r.2.1, isDfg node || r.2.2)

/-- `gen_topo_int_md_list_modify_md_when_new_data_arrives`, with the two flags. -/
def intMdListModifyMdWhenNewDataArrives (m : NextModule) (dstHasFlushEos dstHasDfg : Bool) :
    NextModule × Bool × Bool :=
  if m.intMdList.isEmpty then (m, dstHasFlushEos, dstHasDfg)
  else
    ({ m with
      intMdList := m.intMdList.filterMap modifyAtDataFlowStart
      pendingZerosAtEos := 0 }, false, false)

/-- `gen_topo_do_md_offset_math`, where something is added. -/
def doMdOffsetMathAdd (offset bytesAcrossCh : UInt32) (f : MediaFmt) : UInt32 :=
  offset + f.convertedBytes bytesAcrossCh

/-- `gen_topo_check_modify_flushing_eos_for_port`, with the two flags. -/
def checkModifyFlushingEosForPort (m : NextModule) (port : NextPort)
    (bytesAlreadyInDst bytesCopiedFromSrc : UInt32) (dstHasFlushEos dstHasDfg : Bool) :
    NextModule × NextPort × Bool × Bool :=
  if bytesCopiedFromSrc > 0 ∧ ¬ (m.intMdList.isEmpty ∧ port.metadataList.isEmpty) then
    let int := intMdListModifyMdWhenNewDataArrives m dstHasFlushEos dstHasDfg
    let endOffset := doMdOffsetMathAdd 0 (bytesAlreadyInDst + bytesCopiedFromSrc) port.mediaFmt
    let r := mdListModifyMdWhenNewDataArrives endOffset port.metadataList
    (int.1, { port with metadataList := r.1 }, r.2)
  else (m, port, dstHasFlushEos, dstHasDfg)

/-- `gen_topo_set_pending_zeros`. -/
def setPendingZeros (m : NextModule) (f : MediaFmt) : NextModule :=
  if m.fwkOwnsMdProp && f.isPacketizedOrPcm && !m.disabled then
    { m with pendingZerosAtEos := f.usToBytesPerCh m.algoDelay.toUInt64 }
  else m

/-- `gen_topo_move_md_from_prev_to_next_util_`.  `topo_basic_reset_output_port` clears all flags of
the output port. -/
def moveMdFromPrevToNext (l : Link)
    (bytesToCopy bytesAlreadyInPrev bytesAlreadyInNext : UInt32) : Link :=
  let moved := moveMd l.prev.mediaFmt l.next.mediaFmt l.prev.metadataList l.next.metadataList
    bytesAlreadyInNext bytesAlreadyInPrev bytesToCopy
  let prev := { l.prev with metadataList := moved.src }
  let (m, next, newFlushEos, newDfg) :=
    checkModifyFlushingEosForPort l.module { l.next with metadataList := moved.dst }
      bytesAlreadyInNext bytesToCopy moved.dstReceivedFlushEos moved.dstReceivedNewDfg
  let m := if newFlushEos then setPendingZeros m next.mediaFmt else m
  let next := if newFlushEos then { next with markerEos := true, endOfFrame := true } else next
  let prev := if moved.srcHasNoMoreFlushEos then { prev with markerEos := false } else prev
  let next := { next with endOfFrame := next.endOfFrame || newDfg }
  let prev := if moved.allDfgOrFlushEosMoved then
    { prev with markerEos := false, endOfFrame := false } else prev
  ⟨m, next, prev⟩

end AudioReach.DataArrival
