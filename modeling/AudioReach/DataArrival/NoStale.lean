import AudioReach.DataArrival.Model

/-!
# No stale marker survives

As data arrives, the markers in front of its end are made harmless: what is internal to the
framework is destroyed, and a flushing end-of-stream marker becomes one that does not flush.
Everything else is kept, in its order, and the input port is marked for a flushing end of stream
only if one is left behind the data.
-/

namespace AudioReach.DataArrival

open List

/-! ## Nodes -/

/-- A marker that says that no data follows. -/
def Stale (node : MdNode) : Prop := isFlushingEos node ∨ isInternalEos node ∨ isDfg node

/-- What the framework destroys. -/
def isDropped (node : MdNode) : Bool := isInternalEos node || isDfg node

/-- The node with an end-of-stream marker that does not flush. -/
def nonFlushing (node : MdNode) : MdNode :=
  match node.body with
  | .eos flags cntrRefPtr =>
    { node with body := .eos { flags with isFlushingEos := false } cntrRefPtr }
  | _ => node

/-- The start of data flow drops a node or makes it non-flushing. -/
lemma modifyAtDataFlowStart_eq (node : MdNode) :
    modifyAtDataFlowStart node = if isDropped node then none else some (nonFlushing node) := by
  obtain ⟨ptr, body, offset, tracking⟩ := node
  cases body with
  | eos flags cntrRefPtr =>
    obtain ⟨flushing, internal⟩ := flags
    cases flushing <;> cases internal <;> rfl
  | dfg => rfl
  | other id => rfl

/-- A node that survives the start of data flow is not stale. -/
lemma not_stale_nonFlushing {node : MdNode} (h : isDropped node = false) :
    ¬ Stale (nonFlushing node) := by
  obtain ⟨ptr, body, offset, tracking⟩ := node
  cases body with
  | eos flags cntrRefPtr =>
    obtain ⟨flushing, internal⟩ := flags
    cases internal
    · simp [Stale, nonFlushing, isFlushingEos, isInternalEos, isDfg]
    · exact absurd h (by simp [isDropped, isInternalEos])
  | dfg => exact absurd h (by simp [isDropped, isDfg])
  | other id => simp [Stale, nonFlushing, isFlushingEos, isInternalEos, isDfg]

lemma nodePtr_nonFlushing (node : MdNode) : (nonFlushing node).nodePtr = node.nodePtr := by
  obtain ⟨ptr, body, offset, tracking⟩ := node
  cases body <;> rfl

lemma offset_nonFlushing (node : MdNode) : (nonFlushing node).offset = node.offset := by
  obtain ⟨ptr, body, offset, tracking⟩ := node
  cases body <;> rfl

/-- What becomes of a node of the list of a port when the data ends at some offset. -/
def arrived (endOffset : UInt32) (node : MdNode) : Option MdNode :=
  if node.offset < endOffset then modifyAtDataFlowStart node else some node

/-- A node that is kept. -/
def kept (endOffset : UInt32) (node : MdNode) : MdNode :=
  if node.offset < endOffset then nonFlushing node else node

/-- A node that is not dropped arrives as what is kept of it. -/
lemma arrived_of_not_dropped {node : MdNode} (h : isDropped node = false) (endOffset : UInt32) :
    arrived endOffset node = some (kept endOffset node) := by
  rw [arrived, kept, modifyAtDataFlowStart_eq, h]
  by_cases hlt : node.offset < endOffset
  · rw [if_pos hlt, if_pos hlt]
    rfl
  · rw [if_neg hlt, if_neg hlt]

/-- What arrives of a node is what is kept of it. -/
lemma eq_kept_of_arrived {node node' : MdNode} {endOffset : UInt32}
    (h : arrived endOffset node = some node') :
    node' = kept endOffset node ∧ (node.offset < endOffset → isDropped node = false) := by
  rw [arrived, modifyAtDataFlowStart_eq] at h
  rw [kept]
  by_cases hlt : node.offset < endOffset
  · rw [if_pos hlt] at h ⊢
    cases hd : isDropped node with
    | true => simp [hd] at h
    | false =>
      rw [hd] at h
      exact ⟨(Option.some.inj h).symm, fun _ => rfl⟩
  · rw [if_neg hlt] at h ⊢
    exact ⟨(Option.some.inj h).symm, fun hlt' => absurd hlt' hlt⟩

lemma nodePtr_kept (endOffset : UInt32) (node : MdNode) :
    (kept endOffset node).nodePtr = node.nodePtr := by
  rw [kept]
  split
  · exact nodePtr_nonFlushing node
  · rfl

lemma offset_kept (endOffset : UInt32) (node : MdNode) :
    (kept endOffset node).offset = node.offset := by
  rw [kept]
  split
  · exact offset_nonFlushing node
  · rfl

/-- A node in front of the new data is not stale any more. -/
lemma not_stale_of_arrived {node node' : MdNode} {endOffset : UInt32}
    (h : arrived endOffset node = some node') (hlt : node'.offset < endOffset) : ¬ Stale node' := by
  obtain ⟨rfl, hdropped⟩ := eq_kept_of_arrived h
  rw [offset_kept] at hlt
  rw [kept, if_pos hlt]
  exact not_stale_nonFlushing (hdropped hlt)

/-! ## Lists -/

/-- The nodes that are left stand in their order. -/
lemma filterMap_sublist {f : MdNode → Option MdNode}
    (hf : ∀ node node', f node = some node' → node'.nodePtr = node.nodePtr) (list : List MdNode) :
    ((list.filterMap f).map MdNode.nodePtr).Sublist (list.map MdNode.nodePtr) := by
  induction list with
  | nil => exact List.Sublist.refl _
  | cons node list ih =>
    cases hnode : f node with
    | none =>
      rw [filterMap_cons_none hnode]
      exact ih.cons _
    | some node' =>
      rw [filterMap_cons_some hnode, map_cons, map_cons, hf node node' hnode]
      exact ih.cons_cons _

/-- The loop filters the list and tells which flags hold of what is left. -/
lemma mdListModifyMdWhenNewDataArrives_eq (endOffset : UInt32) (list : List MdNode) :
    mdListModifyMdWhenNewDataArrives endOffset list = (list.filterMap (arrived endOffset),
        list.any fun node => !decide (node.offset < endOffset) && isFlushingEos node,
        list.any fun node => !decide (node.offset < endOffset) && isDfg node) := by
  induction list with
  | nil => rfl
  | cons node list ih =>
    rw [mdListModifyMdWhenNewDataArrives, ih]
    by_cases hlt : node.offset < endOffset
    · cases hmod : modifyAtDataFlowStart node with
      | none => simp [hlt, hmod, arrived]
      | some node' => simp [hlt, hmod, arrived]
    · simp [hlt, arrived]

/-- The flag of a flushing EOS is that of the nodes that are left. -/
lemma exists_flushing_iff (endOffset : UInt32) (list : List MdNode) :
    (∃ node ∈ list.filterMap (arrived endOffset), isFlushingEos node) ↔
      (list.any fun node => !decide (node.offset < endOffset) && isFlushingEos node) = true := by
  simp only [mem_filterMap, any_eq_true, Bool.and_eq_true, Bool.not_eq_true',
    decide_eq_false_iff_not]
  constructor
  · rintro ⟨node', ⟨node, hmem, harr⟩, hflush⟩
    obtain ⟨rfl, hdropped⟩ := eq_kept_of_arrived harr
    refine ⟨node, hmem, ?_⟩
    by_cases hlt : node.offset < endOffset
    · rw [kept, if_pos hlt] at hflush
      exact absurd (.inl hflush) (not_stale_nonFlushing (hdropped hlt))
    · rw [kept, if_neg hlt] at hflush
      exact ⟨hlt, hflush⟩
  · rintro ⟨node, hmem, hlt, hflush⟩
    exact ⟨node, ⟨node, hmem, if_neg hlt⟩, hflush⟩

/-! ## The nodes that move -/

/-- What `gen_topo_move_md` does: nodes of the source list that belong to the data are appended to
the destination list, and the others stay. -/
structure MovesMd (src dst : List MdNode) (moved : Moved) : Prop where
  split : ∃ (belongs : MdNode → Bool) (shift reduce : UInt32 → UInt32),
    moved.dst = dst ++ (src.filter belongs).map
      (fun node => { node with offset := shift node.offset }) ∧
    moved.src = (src.filter fun node => !belongs node).map
      fun node => { node with offset := reduce node.offset }
  no_flush : moved.dst = [] → moved.dstReceivedFlushEos = false

/-- Moving the metadata meets its specification for all formats and lists. -/
lemma moveMd_spec (srcFmt dstFmt : MediaFmt) (src dst : List MdNode) (inDst inSrc copied : UInt32) :
    MovesMd src dst (moveMd srcFmt dstFmt src dst inDst inSrc copied) := by
  rw [moveMd]
  by_cases hsrc : src.isEmpty
  · rw [if_pos hsrc]
    obtain rfl := List.isEmpty_iff.mp hsrc
    exact ⟨⟨fun _ => true, id, id, (append_nil dst).symm, rfl⟩, fun _ => rfl⟩
  · rw [if_neg hsrc]
    generalize srcFmt.convertedBytes copied = c
    generalize dstFmt.convertedBytes inDst = d
    have hfold : ∀ (list : List MdNode) (m : MoveMd), (m.dst = [] → m.dstReceivedFlushEos = false) →
        let m' := list.foldl (moveMdNode inSrc c d) m
        m'.dst = m.dst ++ (list.filter fun node => checkMoveMetadata node.offset inSrc c).map
            (fun node => { node with offset := node.offset + d }) ∧
          m'.src = m.src ++ (list.filter fun node => !checkMoveMetadata node.offset inSrc c).map
            (fun node => { node with
              offset := if node.offset ≥ c then node.offset - c else 0 }) ∧
          (m'.dst = [] → m'.dstReceivedFlushEos = false) := by
      intro list
      induction list with
      | nil => exact fun m hm => ⟨(append_nil _).symm, (append_nil _).symm, hm⟩
      | cons node list ih =>
        intro m hm
        cases hmove : checkMoveMetadata node.offset inSrc c with
        | true =>
          obtain ⟨hdst, hsrc, hflush⟩ := ih (moveMdNode inSrc c d m node)
            (by simp [moveMdNode, hmove])
          refine ⟨?_, ?_, hflush⟩
          · rw [foldl_cons, hdst]
            simp [moveMdNode, hmove]
          · rw [foldl_cons, hsrc]
            simp [moveMdNode, hmove]
        | false =>
          obtain ⟨hdst, hsrc, hflush⟩ := ih (moveMdNode inSrc c d m node)
            (by simpa [moveMdNode, hmove] using hm)
          refine ⟨?_, ?_, hflush⟩
          · rw [foldl_cons, hdst]
            simp [moveMdNode, hmove]
          · rw [foldl_cons, hsrc]
            simp [moveMdNode, hmove]
    obtain ⟨hdst, hkeep, hflush⟩ := hfold src ⟨dst, [], false, false, false, false, false⟩
      fun _ => rfl
    exact ⟨⟨_, fun offset => offset + d, fun offset => if offset ≥ c then offset - c else 0, hdst,
      hkeep⟩, hflush⟩

/-! ## The lists after new data -/

/-- The end of the data, in the unit of the offsets. -/
def MediaFmt.dataEnd (f : MediaFmt) (bytes : ℕ) : ℕ :=
  if f.isPacketizedOrPcm then
    if f.numChannels ≠ 0 ∧ f.bitsPerSample ≠ 0 then
      bytes / (f.numChannels.toNat * (f.bitsPerSample.toNat / 8) % 2 ^ 32)
    else 0
  else bytes

/-- The end of the data as the code computes it. -/
lemma toNat_doMdOffsetMathAdd (f : MediaFmt) {a b : UInt32} (h : a.toNat + b.toNat < 2 ^ 32) :
    (doMdOffsetMathAdd 0 (a + b) f).toNat = f.dataEnd (a.toNat + b.toNat) := by
  have hsum : (a + b).toNat = a.toNat + b.toNat := by
    rw [UInt32.toNat_add, Nat.mod_eq_of_lt h]
  have hbits : ((f.bitsPerSample >>> 3).toUInt64).toNat = f.bitsPerSample.toNat / 8 := by
    rw [UInt16.toNat_toUInt64, UInt16.toNat_shiftRight, Nat.shiftRight_eq_div_pow]
    rfl
  have hC := UInt32.toNat_lt f.numChannels
  have hB := UInt16.toNat_lt f.bitsPerSample
  have hprod : f.numChannels.toNat * (f.bitsPerSample.toNat / 8) < 2 ^ 64 := by
    have hle := Nat.mul_le_mul (Nat.le_of_lt hC) (Nat.div_le_self f.bitsPerSample.toNat 8)
    have hle' : 2 ^ 32 * f.bitsPerSample.toNat ≤ 2 ^ 32 * 2 ^ 16 := 
      Nat.mul_le_mul_left _ (Nat.le_of_lt hB)
    omega
  rw [doMdOffsetMathAdd, UInt32.zero_add, MediaFmt.convertedBytes, MediaFmt.dataEnd]
  split
  · rw [MediaFmt.bytesToSamplesPerCh]
    split
    · rw [UInt32.toNat_div, hsum, UInt64.toNat_toUInt32, UInt64.toNat_mul, UInt32.toNat_toUInt64,
        hbits, Nat.mod_eq_of_lt hprod]
    · rfl
  · exact hsum

/-- The lists and flags after new data: every node of both lists was looked at. -/
structure Checked (m : NextModule) (port : NextPort) (endOffset : UInt32)
    (r : NextModule × NextPort × Bool × Bool) : Prop where
  int_list : r.1.intMdList = m.intMdList.filterMap modifyAtDataFlowStart
  pending : r.1.pendingZerosAtEos = m.pendingZerosAtEos ∨ r.1.pendingZerosAtEos = 0
  list : r.2.1.metadataList = port.metadataList.filterMap (arrived endOffset)
  markerEos : r.2.1.markerEos = port.markerEos
  flush : r.2.2.1 = true ↔ ∃ node ∈ r.2.1.metadataList, isFlushingEos node

/-- What the check of a port leaves behind. -/
lemma checkModifyFlushingEosForPort_spec (m : NextModule) (port : NextPort)
    (inDst : UInt32) {copied : UInt32} {dstHasFlushEos : Bool} (dstHasDfg : Bool) (hcopied : 0 < copied)
    (hflush : port.metadataList = [] → dstHasFlushEos = false) :
    Checked m port (doMdOffsetMathAdd 0 (inDst + copied) port.mediaFmt)
      (checkModifyFlushingEosForPort m port inDst copied dstHasFlushEos dstHasDfg) := by
  rw [checkModifyFlushingEosForPort]
  by_cases hempty : m.intMdList.isEmpty ∧ port.metadataList.isEmpty
  · rw [if_neg fun h => h.2 hempty]
    have hint := List.isEmpty_iff.mp hempty.1
    have hlist := List.isEmpty_iff.mp hempty.2
    refine ⟨by rw [hint]; rfl, .inl rfl, by rw [hlist]; rfl, rfl, ?_⟩
    simp [hlist, hflush hlist]
  · rw [if_pos ⟨hcopied, hempty⟩]
    dsimp only
    rw [mdListModifyMdWhenNewDataArrives_eq]
    refine ⟨?_, ?_, rfl, rfl, (exists_flushing_iff _ _).symm⟩
    · rw [intMdListModifyMdWhenNewDataArrives]
      split
      · rename_i hint
        rw [List.isEmpty_iff.mp hint]
        rfl
      · rfl
    · rw [intMdListModifyMdWhenNewDataArrives]
      split
      · exact .inl rfl
      · exact .inr rfl

/-! ## The move -/

/-- Data that is copied over a connection: there is some, and what is in the buffer of the input
port afterwards has a length that is a `uint32_t`. -/
structure Arrival where
  link : Link
  bytesToCopy : UInt32
  bytesAlreadyInPrev : UInt32
  bytesAlreadyInNext : UInt32
  bytesToCopy_pos : 0 < bytesToCopy
  fits : bytesAlreadyInNext.toNat + bytesToCopy.toNat < 2 ^ 32

namespace Arrival

variable (a : Arrival)

/-- The connection afterwards. -/
def result : Link :=
  moveMdFromPrevToNext a.link a.bytesToCopy a.bytesAlreadyInPrev a.bytesAlreadyInNext

/-- The end of the data that is now in the buffer, in the unit of the offsets. -/
def dataEnd : ℕ :=
  a.link.next.mediaFmt.dataEnd (a.bytesAlreadyInNext.toNat + a.bytesToCopy.toNat)

/-- A node of the list of the port as it has to be. -/
def asNonFlushing (node : MdNode) : MdNode :=
  if node.offset.toNat < a.dataEnd then nonFlushing node else node

/-- No stale marker survives, and nothing else is lost. -/
structure NoStaleMarker : Prop where
  /-- The internal list has no flushing or internal marker and no data flow gap. -/
  int_clean : ∀ node ∈ a.result.module.intMdList, ¬ Stale node
  /-- The list of the port has none in front of the end of the data. -/
  list_clean : ∀ node ∈ a.result.next.metadataList, node.offset.toNat < a.dataEnd → ¬ Stale node
  int_kept : ∀ node ∈ a.link.module.intMdList, isDropped node = false →
    nonFlushing node ∈ a.result.module.intMdList
  list_kept : ∀ node ∈ a.link.next.metadataList, isDropped node = false →
    a.asNonFlushing node ∈ a.result.next.metadataList
  /-- A node of the output port stays there or moves, with a new offset. -/
  prev_kept : ∀ node ∈ a.link.prev.metadataList, isDropped node = false → ∃ offset,
    { node with offset := offset } ∈ a.result.prev.metadataList ∨
      a.asNonFlushing { node with offset := offset } ∈ a.result.next.metadataList
  /-- No node is new in the internal list, or in another place. -/
  int_order : (a.result.module.intMdList.map MdNode.nodePtr).Sublist
    (a.link.module.intMdList.map MdNode.nodePtr)
  /-- No node is new in the list of the port, or in another place. -/
  list_order : (a.result.next.metadataList.map MdNode.nodePtr).Sublist
    ((a.link.next.metadataList ++ a.link.prev.metadataList).map MdNode.nodePtr)
  /-- Without a flushing marker behind the data nothing is set: the zeros that are pending are at
  most cleared. -/
  unset : (¬ ∃ node ∈ a.result.next.metadataList, isFlushingEos node) →
    a.result.next.markerEos = a.link.next.markerEos ∧
      (a.result.module.pendingZerosAtEos = a.link.module.pendingZerosAtEos ∨
        a.result.module.pendingZerosAtEos = 0)
  set : (∃ node ∈ a.result.next.metadataList, isFlushingEos node) → a.result.next.markerEos = true

/-- What the move does to the lists and the flags. -/
structure Effect : Prop where
  int_list : a.result.module.intMdList = a.link.module.intMdList.filterMap modifyAtDataFlowStart
  split : ∃ (belongs : MdNode → Bool) (shift reduce : UInt32 → UInt32),
    a.result.next.metadataList = (a.link.next.metadataList ++
      (a.link.prev.metadataList.filter belongs).map
        fun node : MdNode => { node with offset := shift node.offset }).filterMap
          (arrived (doMdOffsetMathAdd 0 (a.bytesAlreadyInNext + a.bytesToCopy)
            a.link.next.mediaFmt)) ∧
    a.result.prev.metadataList = (a.link.prev.metadataList.filter fun node => !belongs node).map
      fun node => { node with offset := reduce node.offset }
  unset : (¬ ∃ node ∈ a.result.next.metadataList, isFlushingEos node) →
    a.result.next.markerEos = a.link.next.markerEos ∧
      (a.result.module.pendingZerosAtEos = a.link.module.pendingZerosAtEos ∨
        a.result.module.pendingZerosAtEos = 0)
  set : (∃ node ∈ a.result.next.metadataList, isFlushingEos node) → a.result.next.markerEos = true

/-- The effect of an arrival of data. -/
lemma effect : a.Effect := by
  have hmoves := moveMd_spec a.link.prev.mediaFmt a.link.next.mediaFmt a.link.prev.metadataList
    a.link.next.metadataList a.bytesAlreadyInNext a.bytesAlreadyInPrev a.bytesToCopy
  have hresult : a.result = moveMdFromPrevToNext a.link a.bytesToCopy a.bytesAlreadyInPrev
    a.bytesAlreadyInNext := rfl
  rw [moveMdFromPrevToNext] at hresult
  generalize moveMd a.link.prev.mediaFmt a.link.next.mediaFmt a.link.prev.metadataList
    a.link.next.metadataList a.bytesAlreadyInNext a.bytesAlreadyInPrev a.bytesToCopy = moved
    at hmoves hresult
  have hchecked := checkModifyFlushingEosForPort_spec a.link.module
    { a.link.next with metadataList := moved.dst } a.bytesAlreadyInNext
    moved.dstReceivedNewDfg a.bytesToCopy_pos hmoves.no_flush
  dsimp only at hresult
  generalize checkModifyFlushingEosForPort a.link.module
    { a.link.next with metadataList := moved.dst } a.bytesAlreadyInNext a.bytesToCopy
    moved.dstReceivedFlushEos moved.dstReceivedNewDfg = r at hchecked hresult
  obtain ⟨m, next, flush, dfg⟩ := r
  obtain ⟨belongs, shift, reduce, hdst, hsrc⟩ := hmoves.split
  obtain ⟨hint, hpending, hlist, hmarker, hflush⟩ := hchecked
  dsimp only at hint hpending hlist hmarker hflush hresult
  have hmd : a.result.module.intMdList = m.intMdList := by
    rw [hresult]
    dsimp only
    split
    · rw [setPendingZeros]
      split <;> rfl
    · rfl
  have hnext : a.result.next.metadataList = next.metadataList := by
    rw [hresult]
    dsimp only
    split <;> rfl
  have hprev : a.result.prev.metadataList = moved.src := by
    rw [hresult]
    dsimp only
    split <;> split <;> rfl
  refine ⟨hmd.trans hint, ⟨belongs, shift, reduce, ?_, hprev.trans hsrc⟩, ?_, ?_⟩
  · rw [hnext, hlist, hdst]
  · intro hno
    rw [hnext, ← hflush] at hno
    rw [hresult]
    dsimp only
    rw [if_neg hno, if_neg hno]
    exact ⟨hmarker, hpending⟩
  · intro hsome
    rw [hnext, ← hflush] at hsome
    rw [hresult]
    dsimp only
    rw [if_pos hsome]

/-- **No stale marker survives.** -/
theorem noStaleMarker : a.NoStaleMarker := by
  obtain ⟨hint, ⟨belongs, shift, reduce, hnext, hprev⟩, hunset, hset⟩ := a.effect
  have hend := toNat_doMdOffsetMathAdd a.link.next.mediaFmt a.fits
  change _ = a.dataEnd at hend
  generalize doMdOffsetMathAdd 0 (a.bytesAlreadyInNext + a.bytesToCopy) a.link.next.mediaFmt = e
    at hnext hend
  have hkept : ∀ node, kept e node = a.asNonFlushing node := by
    intro node
    rw [kept, asNonFlushing, ← hend]
    rfl
  refine ⟨?_, ?_, ?_, ?_, ?_, ?_, ?_, hunset, hset⟩
  · rw [hint]
    intro node hmem
    obtain ⟨node₀, -, hmod⟩ := mem_filterMap.mp hmem
    rw [modifyAtDataFlowStart_eq] at hmod
    cases hd : isDropped node₀ with
    | true => simp [hd] at hmod
    | false =>
      rw [hd] at hmod
      obtain rfl := Option.some.inj hmod
      exact not_stale_nonFlushing hd
  · rw [hnext]
    intro node hmem hlt
    obtain ⟨node₀, -, harr⟩ := mem_filterMap.mp hmem
    rw [← hend] at hlt
    exact not_stale_of_arrived harr hlt
  · rw [hint]
    intro node hmem hd
    refine mem_filterMap.mpr ⟨node, hmem, ?_⟩
    rw [modifyAtDataFlowStart_eq, hd]
    rfl
  · rw [hnext]
    intro node hmem hd
    rw [← hkept]
    exact mem_filterMap.mpr ⟨node, mem_append_left _ hmem, arrived_of_not_dropped hd e⟩
  · intro node hmem hd
    rw [hnext, hprev]
    cases hb : belongs node with
    | true =>
      refine ⟨shift node.offset, .inr ?_⟩
      rw [← hkept]
      have hd' : isDropped { node with offset := shift node.offset } = false := hd
      refine mem_filterMap.mpr ⟨_, mem_append_right _ ?_, arrived_of_not_dropped hd' e⟩
      exact mem_map.mpr ⟨node, mem_filter.mpr ⟨hmem, hb⟩, rfl⟩
    | false =>
      refine ⟨reduce node.offset, .inl (mem_map.mpr ⟨node, ?_, rfl⟩)⟩
      exact mem_filter.mpr ⟨hmem, by simp [hb]⟩
  · rw [hint]
    refine filterMap_sublist (fun node node' hmod => ?_) _
    rw [modifyAtDataFlowStart_eq] at hmod
    cases hd : isDropped node with
    | true => simp [hd] at hmod
    | false =>
      rw [hd] at hmod
      rw [← Option.some.inj hmod, nodePtr_nonFlushing]
  · rw [hnext]
    refine (filterMap_sublist (fun node node' harr => ?_) _).trans ?_
    · rw [(eq_kept_of_arrived harr).1, nodePtr_kept]
    · rw [map_append, map_append, map_map]
      exact (List.Sublist.refl _).append (filter_sublist.map _)

end Arrival

end AudioReach.DataArrival
