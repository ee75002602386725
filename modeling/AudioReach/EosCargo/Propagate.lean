import AudioReach.Library.Loops
import AudioReach.Library.Words

/-!
# Metadata passes a module

`gen_topo_capi_metadata_propagate` deals the nodes of two lists.  A node of the internal list goes
to the output list or stays; a node of the input list that lies in the data consumed takes the
delays of the module and goes to the output list or to the internal list, and any other stays.  A
decoder, packetizer or depacketizer holds a flushing EOS back as long as it produces data.

What can be relied on is `Propagated`: no node is lost, none lands behind the data produced, those
that travel alike keep their order, and `marker_eos` tells whether a flushing EOS is left behind.
-/

namespace AudioReach.MdProp

open Library List

/-! ## The call -/

/-- The module types that matter for metadata. -/
inductive ModuleType
  | decoder
  | encoder
  | converter
  | packetizer
  | depacketizer
  /-- All other module types. -/
  | other
  deriving DecidableEq, Repr

/-- `data_format_t`. -/
inductive DataFormat
  | fixedPoint
  | floatingPoint
  | rawCompressed
  | iec61937Packetized
  | dsdDopPacketized
  | comprOverPcmPacketized
  | genericCompressed
  | iec60958Packetized
  | iec60958PacketizedNonLinear
  | deinterleavedRawCompressed
  | maxFormatType
  deriving DecidableEq, Repr

/-- `CAPI_IS_PCM_PACKETIZED`. -/
def DataFormat.isPcmPacketized (df : DataFormat) : Bool :=
  df ≠ .rawCompressed ∧ df ≠ .deinterleavedRawCompressed

/-- `module_cmn_md_t`, in the node `ptr` of a list. -/
structure Md where
  ptr : ℕ
  offset : UInt32
  isBeginAssociatedMd : Bool
  isBufferAssociated : Bool
  /-- The answer of `gen_topo_is_flushing_eos`. -/
  isFlushingEos : Bool
  deriving DecidableEq, Repr

/-- `intf_extn_md_propagation_t`. -/
structure MdPropagation where
  df : DataFormat
  initialLenPerChInBytes : UInt32
  lenPerChInBytes : UInt32
  bufDelayPerChInBytes : UInt32
  bitsPerSample : UInt32
  sampleRate : UInt32
  deriving DecidableEq, Repr

/-- The samples of so many bytes; bytes that are not PCM or packetized are left.  The division is by
zero for a sample size below a byte, which no media format has. -/
def MdPropagation.len (info : MdPropagation) (bytes : UInt32) : UInt32 :=
  if info.df.isPcmPacketized then bytes / (info.bitsPerSample >>> 3) else bytes

/-- PCM and packetized data need a sample size and a rate. -/
def MdPropagation.invalid (info : MdPropagation) : Bool :=
  info.df.isPcmPacketized ∧ (info.bitsPerSample = 0 ∨ info.sampleRate = 0)

/-- The arguments of the call, its streams apart. -/
structure Call where
  moduleType : ModuleType
  hasCapi : Bool
  /-- The answer of `gen_topo_fwk_owns_md_prop`. -/
  fwkOwnsMdProp : Bool
  algoDelayUs : UInt32
  inInfo : MdPropagation
  outInfo : MdPropagation
  deriving DecidableEq, Repr

/-- The lists and the flags of the streams, and the resets the module was asked for. -/
structure Streams where
  input : List Md
  /-- `internal_md_list_pptr`, if there is one. -/
  internal : Option (List Md)
  output : List Md
  inputMarkerEos : Bool
  outputMarkerEos : Bool
  algorithmicResets : ℕ
  deriving DecidableEq, Repr

/-- `TOPO_CEIL` on 32 bits. -/
def topoCeil (x y : UInt32) : UInt32 := (x + y - 1) / y

/-- `topo_us_to_samples`. -/
def topoUsToSamples (timeUs sampleRate : UInt32) : UInt32 :=
  ((timeUs.toUInt64 * sampleRate.toUInt64 + 1000000 - 1) / 1000000).toUInt32

/-- `gen_topo_check_move_metadata`. -/
def checkMoveMetadata (mdOffset inBytesBefore inConsumed : UInt32) : Bool :=
  (inBytesBefore ≠ 0 ∧ mdOffset ≤ inConsumed ∧ inConsumed ≠ 0) ∨ (inBytesBefore = 0 ∧ mdOffset = 0)

namespace Call

variable (c : Call)

def inConsumedPerCh : UInt32 := c.inInfo.len c.inInfo.lenPerChInBytes

def bufInLenPerCh : UInt32 := c.inInfo.len c.inInfo.bufDelayPerChInBytes

def outProducedPerCh : UInt32 := c.outInfo.len c.outInfo.lenPerChInBytes

def outInitialLenPerCh : UInt32 := c.outInfo.len c.outInfo.initialLenPerChInBytes

/-- The algorithmic delay in input scale. -/
def algoDelayLenIn : UInt32 :=
  if c.inInfo.df.isPcmPacketized then topoUsToSamples c.algoDelayUs c.inInfo.sampleRate else 0

/-- A flushing EOS waits in these modules while they produce data. -/
def heldBack (md : Md) : Bool :=
  md.isFlushingEos ∧ (c.moduleType = .decoder ∨ c.moduleType = .packetizer ∨
    c.moduleType = .depacketizer) ∧ c.outProducedPerCh ≠ 0

def pcmpackInPcmpackOut : Bool := c.outInfo.df.isPcmPacketized && c.inInfo.df.isPcmPacketized

/-- The offset of a node in the data produced. -/
def offsetInOutScale (md : Md) : UInt32 :=
  if c.pcmpackInPcmpackOut then
    if c.inConsumedPerCh = 0 then
      if md.isBeginAssociatedMd then 0 else c.outProducedPerCh
    else min c.outProducedPerCh (topoCeil (md.offset * c.outProducedPerCh) c.inConsumedPerCh)
  else if md.isBeginAssociatedMd then
    if c.inConsumedPerCh ≠ 0 ∧ md.offset = c.inConsumedPerCh then c.outProducedPerCh else 0
  else if md.offset = c.inConsumedPerCh then c.outProducedPerCh
  else 0

/-- `gen_topo_move_md_to_out_list`: the node as it goes to the output list, if it does. -/
def moveMdToOutList (md : Md) : Option Md :=
  if c.heldBack md = false ∧ md.offset ≤ c.inConsumedPerCh then
    some { md with offset := c.offsetInOutScale md + c.outInitialLenPerCh }
  else none

/-- The module is reset when a flushing EOS leaves it. -/
def resets (md : Md) : ℕ :=
  if c.hasCapi ∧ md.isFlushingEos ∧ c.fwkOwnsMdProp ∧ c.moduleType ≠ .other then 1 else 0

/-- The delays that a node of the input list takes; the algorithmic delay does not concern metadata
of buffers. -/
def delayed (md : Md) : Md :=
  { md with
    offset := md.offset + (if md.isBufferAssociated then 0 else c.algoDelayLenIn) +
      c.bufInLenPerCh }

/-- A node that has to wait for the rest of its distance. -/
def waiting (md : Md) : Md := { md with offset := md.offset - c.inConsumedPerCh }

/-- The lists and the local variables of the walk. -/
structure Walk where
  input : List Md
  internal : List Md
  output : List Md
  anyEosStuck : Bool
  anyEosMoved : Bool
  anyFlushingEosPresent : Bool
  algorithmicResets : ℕ

/-- A round of the first loop.  Nodes that stay are gathered again in their order. -/
def internalStep (w : Walk) (md : Md) : Walk :=
  let w := { w with anyFlushingEosPresent := w.anyFlushingEosPresent || md.isFlushingEos }
  match c.moveMdToOutList md with
  | some md' => { w with
      output := w.output ++ [md']
      anyEosMoved := w.anyEosMoved || md.isFlushingEos
      algorithmicResets := w.algorithmicResets + c.resets md }
  | none => { w with
      internal := w.internal ++ [c.waiting md]
      anyEosStuck := w.anyEosStuck || md.isFlushingEos }

/-- A round of the second loop. -/
def inputStep (hasInternal : Bool) (w : Walk) (md : Md) : Walk :=
  let w := { w with anyFlushingEosPresent := w.anyFlushingEosPresent || md.isFlushingEos }
  if checkMoveMetadata md.offset c.inInfo.initialLenPerChInBytes c.inConsumedPerCh then
    match c.moveMdToOutList (c.delayed md) with
    | some md' => { w with
        output := w.output ++ [md']
        anyEosMoved := w.anyEosMoved || md.isFlushingEos
        algorithmicResets := w.algorithmicResets + c.resets md }
    | none =>
      let w := { w with anyEosStuck := w.anyEosStuck || md.isFlushingEos }
      -- without an internal list the node goes to the output list all the same
      if hasInternal then { w with internal := w.internal ++ [c.waiting (c.delayed md)] }
      else { w with output := w.output ++ [c.waiting (c.delayed md)] }
  else { w with
    input := w.input ++ [md]
    anyEosStuck := w.anyEosStuck || md.isFlushingEos }

/-- The formats are not valid. -/
def refused : Bool :=
  (c.inInfo.df = .maxFormatType ∨ c.outInfo.df = .maxFormatType) ∨ c.inInfo.invalid ∨
    c.outInfo.invalid

end Call

/-- The answers of the call. -/
inductive CapiErr
  | eok
  | ebadparam
  deriving DecidableEq, Repr

/-- The walk over both lists. -/
def Call.walk (c : Call) (s : Streams) : Call.Walk :=
  s.input.foldl (c.inputStep s.internal.isSome) ((s.internal.getD []).foldl c.internalStep
      ⟨[], [], s.output, false, false, false, s.algorithmicResets⟩)

/-- The streams after the walk. -/
def Call.after (c : Call) (s : Streams) : Streams :=
  let w := c.walk s
  { input := w.input
    internal := s.internal.map fun _ => w.internal
    output := w.output
    inputMarkerEos := if w.anyFlushingEosPresent then w.anyEosStuck else s.inputMarkerEos
    outputMarkerEos := s.outputMarkerEos || (w.anyFlushingEosPresent && w.anyEosMoved)
    algorithmicResets := w.algorithmicResets }

/-- `gen_topo_capi_metadata_propagate`. -/
def genTopoCapiMetadataPropagate (c : Call) (s : Streams) : CapiErr × Streams :=
  if s.input = [] ∧ s.internal.getD [] = [] then (.eok, s)
  else if c.refused then (.ebadparam, s)
  else (.eok, c.after s)

/-! ## A single node -/

/-- `md₁` lies before `md₂`, or they share a place and what it means. -/
def Md.Before (md₁ md₂ : Md) : Prop :=
  md₁.offset < md₂.offset ∨
    (md₁.offset = md₂.offset ∧ md₁.isBeginAssociatedMd = md₂.isBeginAssociatedMd)

namespace Call

variable (c : Call)

/-- Scaling stays within the data produced. -/
lemma offsetInOutScale_le (md : Md) : c.offsetInOutScale md ≤ c.outProducedPerCh := by
  unfold offsetInOutScale
  split_ifs <;> simp [UInt32.le_iff_toNat_le, toNat_min]

/-- The product of the scaling fits its 32 bits. -/
def Scales (offset : ℕ) : Prop :=
  c.pcmpackInPcmpackOut = true →
    offset * c.outProducedPerCh.toNat + c.inConsumedPerCh.toNat < 2 ^ 32

variable {c}
variable {md₁ md₂ o₁ o₂ md o : Md}

lemma toNat_topoCeil {x y : UInt32} (hy : 0 < y.toNat) (h : x.toNat + y.toNat < 2 ^ 32) :
    (topoCeil x y).toNat = (x.toNat + y.toNat - 1) / y.toNat := by
  have hle : (1 : UInt32) ≤ x + y := by
    rw [UInt32.le_iff_toNat_le, UInt32.toNat_add, Nat.mod_eq_of_lt h]; simp; omega
  rw [topoCeil, UInt32.toNat_div, UInt32.toNat_sub_of_le _ _ hle, UInt32.toNat_add,
    Nat.mod_eq_of_lt h]
  rfl

/-- Scaling keeps the order. -/
lemma offsetInOutScale_mono (hbefore : md₁.Before md₂) (hle : md₂.offset ≤ c.inConsumedPerCh)
    (hscales : c.Scales md₂.offset.toNat) :
    c.offsetInOutScale md₁ ≤ c.offsetInOutScale md₂ := by
  obtain hlt | ⟨hoff, hbegin⟩ := hbefore
  · rw [UInt32.lt_iff_toNat_lt] at hlt
    rw [UInt32.le_iff_toNat_le] at hle ⊢
    have hpos : 0 < c.inConsumedPerCh.toNat := by omega
    have hne : c.inConsumedPerCh ≠ 0 := by rintro h; simp [h] at hpos
    have hne₁ : md₁.offset ≠ c.inConsumedPerCh := by rintro h; rw [h] at hlt; omega
    unfold offsetInOutScale
    split
    next hpcm =>
      have hfit := hscales hpcm
      have hmul := Nat.mul_le_mul_right c.outProducedPerCh.toNat hlt.le
      have hprod : ∀ x : UInt32, x.toNat ≤ md₂.offset.toNat →
          (x * c.outProducedPerCh).toNat = x.toNat * c.outProducedPerCh.toNat := fun x hx => by
        rw [UInt32.toNat_mul, Nat.mod_eq_of_lt]
        have := Nat.mul_le_mul_right c.outProducedPerCh.toNat hx
        omega
      rw [toNat_min, toNat_min, toNat_topoCeil hpos, toNat_topoCeil hpos,
        hprod _ hlt.le, hprod _ le_rfl]
      · exact min_le_min_left _ (Nat.div_le_div_right (by omega))
      all_goals rw [hprod _ (by omega)]; omega
    next => simp [hne₁]
  · unfold offsetInOutScale
    rw [hoff, hbegin]
    exact UInt32.le_refl _

/-- A node reaches the output list under its own name, in the data consumed. -/
lemma moveMdToOutList_some (h : c.moveMdToOutList md = some o) : md.offset ≤ c.inConsumedPerCh ∧
      o = { md with offset := c.offsetInOutScale md + c.outInitialLenPerCh } := by
  unfold moveMdToOutList at h
  split_ifs at h with hmove
  exact ⟨hmove.2, (Option.some.inj h).symm⟩

/-- The sums of the output lengths do not wrap. -/
def OutputFits (c : Call) : Prop := c.outInitialLenPerCh.toNat + c.outProducedPerCh.toNat < 2 ^ 32

lemma toNat_moved (hfits : c.OutputFits) (h : c.moveMdToOutList md = some o) :
    o.offset.toNat = (c.offsetInOutScale md).toNat + c.outInitialLenPerCh.toNat := by
  have hle := UInt32.le_iff_toNat_le.mp (c.offsetInOutScale_le md)
  unfold OutputFits at hfits
  rw [(moveMdToOutList_some h).2, UInt32.toNat_add, Nat.mod_eq_of_lt (by omega)]

/-- A node that stays waits for the rest of its distance, unless it was held back earlier. -/
lemma waiting_offset (h : c.moveMdToOutList md = none)
    (hheld : c.heldBack md = true → c.inConsumedPerCh ≤ md.offset) :
    (c.waiting md).offset.toNat + c.inConsumedPerCh.toNat = md.offset.toNat := by
  have hle : c.inConsumedPerCh ≤ md.offset := by
    cases hb : c.heldBack md with
    | true => exact hheld hb
    | false =>
      simp only [moveMdToOutList, hb, true_and, ite_eq_right_iff, reduceCtorEq, imp_false] at h
      exact UInt32.le_of_lt (UInt32.not_le.mp h)
  have := UInt32.le_iff_toNat_le.mp hle
  simp only [waiting]
  rw [UInt32.toNat_sub_of_le _ _ hle]
  omega

end Call

/-! ## The walk -/

/-- The nodes of all three lists. -/
def Streams.nodes (s : Streams) : List Md := s.input ++ s.internal.getD [] ++ s.output

/-- The delays that a node of the input list takes. -/
def Call.delays (c : Call) (md : Md) : ℕ :=
  (if md.isBufferAssociated then 0 else c.algoDelayLenIn.toNat) + c.bufInLenPerCh.toNat

/-- The move meets `md` as `x`, `d` behind its place. -/
inductive Call.Meets (c : Call) (s : Streams) (md : Md) : ℕ → Md → Prop
  | internal : md ∈ s.internal.getD [] → c.Meets s md 0 md
  | input : md ∈ s.input → c.Meets s md (c.delays md) (c.delayed md)

/-- What a walk has done with the nodes it met, where there is an internal list. -/
structure Call.Dealt (c : Call) (s : Streams) (w : Call.Walk) : Prop where
  output : ∀ o ∈ w.output, o ∈ s.output ∨ ∃ md d x, c.Meets s md d x ∧ c.moveMdToOutList x = some o
  internal : ∀ o ∈ w.internal,
    ∃ md d x, c.Meets s md d x ∧ c.moveMdToOutList x = none ∧ o = c.waiting x
  stuck : w.anyEosStuck = (w.input ++ w.internal).any (·.isFlushingEos)

variable {d : ℕ} {x : Md}

namespace Call

variable {c : Call} {s : Streams} {w : Walk} {md : Md}

lemma Dealt.internalStep (hw : c.Dealt s w) (hmd : md ∈ s.internal.getD []) :
    c.Dealt s (c.internalStep w md) := by
  unfold Call.internalStep
  cases hout : c.moveMdToOutList md with
  | some o =>
    exact ⟨by simpa [or_imp, forall_and] using ⟨hw.output, .inr ⟨md, _, _, .internal hmd, hout⟩⟩,
      hw.internal, hw.stuck⟩
  | none =>
    exact ⟨hw.output,
      by simpa [or_imp, forall_and] using ⟨hw.internal, ⟨md, _, _, .internal hmd, hout, rfl⟩⟩,
      by simp [hw.stuck, waiting, Bool.or_assoc]⟩

lemma Dealt.inputStep (hw : c.Dealt s w) (hmd : md ∈ s.input) :
    c.Dealt s (c.inputStep true w md) := by
  unfold Call.inputStep
  split
  · cases hout : c.moveMdToOutList (c.delayed md) with
    | some o =>
      exact ⟨by simpa [or_imp, forall_and] using ⟨hw.output, .inr ⟨md, _, _, .input hmd, hout⟩⟩,
        hw.internal, hw.stuck⟩
    | none =>
      exact ⟨hw.output,
        by simpa [or_imp, forall_and] using ⟨hw.internal, ⟨md, _, _, .input hmd, hout, rfl⟩⟩,
        by simp [hw.stuck, waiting, delayed, Bool.or_assoc]⟩
  · exact ⟨hw.output, hw.internal, by simp [hw.stuck, Bool.or_left_comm, Bool.or_comm]⟩

lemma dealt_walk (h : s.internal.isSome) : c.Dealt s (c.walk s) := by
  unfold walk
  rw [h]
  refine foldlRecOn _ _ (foldlRecOn _ _ ⟨fun _ h => .inl h, by simp, rfl⟩
    fun _ hw _ hmd => hw.internalStep hmd) fun _ hw _ hmd => hw.inputStep hmd

/-- The nodes of a walk. -/
def Walk.nodes (w : Walk) : List ℕ := (w.input ++ w.internal ++ w.output).map Md.ptr

lemma nodes_internalStep (w : Walk) (md : Md) :
    (c.internalStep w md).nodes.Perm (md.ptr :: w.nodes) := by
  unfold internalStep
  split
  next o hout => simp [perm_iff_count, Walk.nodes, count_cons, (moveMdToOutList_some hout).2]; omega
  next => simp [perm_iff_count, Walk.nodes, count_cons, waiting]; omega

lemma nodes_inputStep (hasInternal : Bool) (w : Walk) (md : Md) :
    (c.inputStep hasInternal w md).nodes.Perm (md.ptr :: w.nodes) := by
  unfold inputStep
  split
  · split
    next o hout =>
      simp [perm_iff_count, Walk.nodes, count_cons, (moveMdToOutList_some hout).2, delayed]
      omega
    next =>
      split <;> simp [perm_iff_count, Walk.nodes, count_cons, waiting, delayed] <;> omega
  · simp [perm_iff_count, Walk.nodes, count_cons]; omega

/-- No node is lost or doubled. -/
lemma nodes_walk : (c.walk s).nodes.Perm (s.nodes.map Md.ptr) := by
  refine (foldl_perm _ Walk.nodes Md.ptr (nodes_inputStep _) _ _).trans ?_
  have h := foldl_perm _ Walk.nodes Md.ptr (nodes_internalStep (c := c)) (s.internal.getD [])
    ⟨[], [], s.output, false, false, false, s.algorithmicResets⟩
  simpa [Streams.nodes, Walk.nodes] using h.append_left _

/-- The walk sees every flushing EOS. -/
lemma present_walk :
    (c.walk s).anyFlushingEosPresent = (s.internal.getD [] ++ s.input).any (·.isFlushingEos) := by
  unfold walk
  rw [foldl_or _ Walk.anyFlushingEosPresent Md.isFlushingEos,
    foldl_or _ Walk.anyFlushingEosPresent Md.isFlushingEos, any_append, Bool.false_or]
  · exact fun w md => by unfold internalStep; split <;> rfl
  · exact fun w md => by
      unfold inputStep
      split
      · split
        · rfl
        · split <;> rfl
      · rfl

/-- Only the place of a node changes. -/
lemma Meets.eq (h : c.Meets s md d x) : x = { md with offset := x.offset } := by
  cases h <;> rfl

lemma Meets.offset (h : c.Meets s md d x) (hfits : md.offset.toNat + d < 2 ^ 32) :
    x.offset.toNat = md.offset.toNat + d := by
  cases h with
  | internal => rfl
  | input =>
    rw [delays, ← Nat.add_assoc] at *
    simp only [delayed, UInt32.toNat_add, Nat.mod_add_mod, apply_ite UInt32.toNat]
    exact Nat.mod_eq_of_lt hfits

lemma Meets.before {md₁ md₂ x₁ x₂ : Md} (h₁ : c.Meets s md₁ d x₁) (h₂ : c.Meets s md₂ d x₂)
    (hbefore : md₁.Before md₂) (hfits : md₂.offset.toNat + d < 2 ^ 32) : x₁.Before x₂ := by
  have hle : md₁.offset.toNat ≤ md₂.offset.toNat := by
    obtain hlt | ⟨heq, -⟩ := hbefore
    · exact (UInt32.lt_iff_toNat_lt.mp hlt).le
    · rw [heq]
  have hx₁ := h₁.offset (by omega)
  have hx₂ := h₂.offset hfits
  unfold Md.Before at hbefore ⊢
  rw [UInt32.lt_iff_toNat_lt, ← UInt32.toNat_inj] at hbefore ⊢
  obtain hlt | ⟨heq, hbegin⟩ := hbefore
  · exact .inl (by omega)
  · exact .inr ⟨by omega, by rw [h₁.eq, h₂.eq]; exact hbegin⟩

end Call

/-! ## What a call keeps -/

/-- `r` is what becomes of the streams `s`. -/
structure Propagated (c : Call) (s r : Streams) : Prop where
  refused : c.refused = true → r = s
  nodes : (r.nodes.map Md.ptr).Perm (s.nodes.map Md.ptr)
  bounded : c.OutputFits → s.internal.isSome → ∀ o ∈ r.output, o ∈ s.output ∨
    o.offset.toNat ≤ c.outInitialLenPerCh.toNat + c.outProducedPerCh.toNat
  remaining : c.refused = false → s.internal.isSome → ∀ o ∈ r.internal.getD [],
    ∃ md d x, c.Meets s md d x ∧ o.ptr = md.ptr ∧ (md.offset.toNat + d < 2 ^ 32 →
      (c.heldBack md = true → c.inConsumedPerCh.toNat ≤ md.offset.toNat + d) →
        o.offset.toNat + c.inConsumedPerCh.toNat = md.offset.toNat + d)
  ordered : c.refused = false → c.OutputFits → s.internal.isSome → (s.nodes.map Md.ptr).Nodup →
    ∀ md₁ md₂ d x₁ x₂, c.Meets s md₁ d x₁ → c.Meets s md₂ d x₂ → md₁.Before md₂ →
      md₂.offset.toNat + d < 2 ^ 32 → c.Scales (md₂.offset.toNat + d) →
        ∀ o₁ ∈ r.output, ∀ o₂ ∈ r.output, o₁.ptr = md₁.ptr → o₂.ptr = md₂.ptr →
          o₁.offset ≤ o₂.offset
  marker : c.refused = false → s.internal.isSome →
    (s.internal.getD [] ++ s.input).any (·.isFlushingEos) →
      r.inputMarkerEos = (r.input ++ r.internal.getD []).any (·.isFlushingEos)

namespace Call

variable {c : Call} {s : Streams} {md o : Md}

lemma propagate_eq (h : c.refused = false) : (genTopoCapiMetadataPropagate c s).2 = c.after s := by
  unfold genTopoCapiMetadataPropagate
  split
  next hempty =>
    obtain ⟨_, _ | internal, _, _, _, _⟩ := s <;> simp at hempty <;> simp [hempty, after, walk]
  next => simp [h]

/-- The lists hold what the walk has gathered. -/
lemma internal_after (c : Call) (s : Streams) :
    (c.after s).internal.getD [] = (c.walk s).internal := by
  cases h : s.internal with
  | some l => simp [after, h]
  | none =>
    simp only [after, walk, h]
    refine (foldlRecOn (motive := fun w : Walk => w.internal = []) _ _ rfl fun w hw md _ => ?_).symm
    unfold inputStep
    split
    · split <;> exact hw
    · exact hw

/-- A node that carries a name of the lists before is the node that was moved. -/
lemma moved_of_meets (hdistinct : (s.nodes.map Md.ptr).Nodup) (hdealt : c.Dealt s (c.walk s))
    (hmeets : c.Meets s md d x) (ho : o ∈ (c.walk s).output) (hptr : o.ptr = md.ptr) :
    c.moveMdToOutList x = some o := by
  simp only [Streams.nodes, map_append, nodup_append, mem_map, mem_append] at hdistinct
  obtain hold | ⟨md', d', x', hmeets', hmove⟩ := hdealt.output o ho
  · cases hmeets <;> grind
  · have hptr' : md'.ptr = md.ptr := by
      rw [← hptr, (moveMdToOutList_some hmove).2]; cases hmeets' <;> rfl
    cases hmeets with
    | internal h =>
      cases hmeets' with
      | internal h' => rwa [← inj_on_of_nodup_map hdistinct.1.2.1 h' h hptr']
      | input h' => grind
    | input h =>
      cases hmeets' with
      | internal h' => grind
      | input h' => rwa [← inj_on_of_nodup_map hdistinct.1.1 h' h hptr']

end Call

/-- **What a call keeps.** -/
theorem genTopoCapiMetadataPropagate_keeps (c : Call) (s : Streams) :
    Propagated c s (genTopoCapiMetadataPropagate c s).2 := by
  cases href : c.refused with
  | true =>
    have hr : (genTopoCapiMetadataPropagate c s).2 = s := by
      simp only [genTopoCapiMetadataPropagate, href, if_true]
      split <;> rfl
    rw [hr]
    exact ⟨fun _ => rfl, .refl _, fun _ _ _ h => .inl h, by simp [href], by simp [href],
      by simp [href]⟩
  | false =>
    rw [Call.propagate_eq href]
    refine ⟨by simp [href], ?_, ?_, ?_, ?_, ?_⟩
    · rw [Streams.nodes, Call.internal_after]
      exact Call.nodes_walk
    · intro hfits hint o ho
      obtain hold | ⟨md, d, x, hmeets, hmove⟩ := (Call.dealt_walk hint).output o ho
      · exact .inl hold
      · rw [Call.toNat_moved hfits hmove]
        have := UInt32.le_iff_toNat_le.mp (c.offsetInOutScale_le x)
        omega
    · intro _ hint o ho
      rw [Call.internal_after] at ho
      obtain ⟨md, d, x, hmeets, hmove, rfl⟩ := (Call.dealt_walk hint).internal o ho
      refine ⟨md, d, x, hmeets, by cases hmeets <;> rfl, fun hfit hheld => ?_⟩
      rw [← hmeets.offset hfit]
      refine Call.waiting_offset hmove fun hb => ?_
      rw [UInt32.le_iff_toNat_le, hmeets.offset hfit]
      exact hheld (by cases hmeets <;> exact hb)
    · intro _ hfits hint hdistinct md₁ md₂ d x₁ x₂ hx₁ hx₂ hbefore hfit hscales o₁ ho₁ o₂ ho₂ h₁ h₂
      have hmove₁ := Call.moved_of_meets hdistinct (Call.dealt_walk hint) hx₁ ho₁ h₁
      have hmove₂ := Call.moved_of_meets hdistinct (Call.dealt_walk hint) hx₂ ho₂ h₂
      have hoff₂ := hx₂.offset hfit
      have hmono := Call.offsetInOutScale_mono (hx₁.before hx₂ hbefore hfit)
        (Call.moveMdToOutList_some hmove₂).1 (hoff₂ ▸ hscales)
      rw [UInt32.le_iff_toNat_le] at hmono ⊢
      rw [Call.toNat_moved hfits hmove₁, Call.toNat_moved hfits hmove₂]
      omega
    · intro _ hint hpresent
      rw [Call.internal_after]
      simp only [Call.after, Call.present_walk, if_pos hpresent]
      exact (Call.dealt_walk hint).stuck

/-- Metadata of a buffer overtakes metadata of samples that lies before it: two nodes in ten samples
at 8000 Hz pass a module that delays by five. -/
theorem not_genTopoCapiMetadataPropagate_ordered : ¬ ∀ (c : Call) (s : Streams),
    c.inInfo.lenPerChInBytes < 2 ^ 31 → c.outInfo.lenPerChInBytes < 2 ^ 31 →
      (∀ md ∈ s.nodes, md.offset ≤ 2 ^ 31) →
        ∀ md₁ ∈ s.input, ∀ md₂ ∈ s.input, md₁.offset ≤ md₂.offset →
          ∀ o₁ ∈ (genTopoCapiMetadataPropagate c s).2.output,
            ∀ o₂ ∈ (genTopoCapiMetadataPropagate c s).2.output,
              o₁.ptr = md₁.ptr → o₂.ptr = md₂.ptr → o₁.offset ≤ o₂.offset := by
  intro h
  let info : MdPropagation := ⟨.fixedPoint, 20, 20, 0, 16, 8000⟩
  have h := h ⟨.other, true, true, 625, info, { info with initialLenPerChInBytes := 0 }⟩
    ⟨[⟨0, 0, false, false, false⟩, ⟨1, 1, false, true, false⟩], some [], [], false, false, 0⟩
  exact absurd h (by decide)

end AudioReach.MdProp
