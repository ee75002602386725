import AudioReach.Library.Programs
import AudioReach.Library.Runs
import AudioReach.WrShMemEp.MediaFormat

/-!
# Runs of the write end point

A client sends media formats, on the data path or as a parameter, and data buffers.  The parser
must keep to the payload, to the channel map and to the raw buffer, and a PCM or packetized format
that it hands on must have a channel and a byte per sample: the test for whole samples divides by
their product.

The first section follows the parser through each data format and ends with `parseSound_iff`: it
does what it must exactly for the payloads that fit.  The second section is about runs.
-/

namespace AudioReach

open Library List

/-! ## The parser, one data format at a time -/

section Parser

variable {b : WrEpBuild} {m : ClientMediaFormat} {malloc : Bool}

/-- The channel map is copied, whatever it holds. -/
lemma forM_copyChannel (m : ClientMediaFormat) (chs : List ℕ) (s : ParseState) :
    ∃ map, chs.forM (copyChannel m) s = .ok ⟨⟩
      { s with
        fmt := { s.fmt with chanMap := map }
        reads := s.reads ++ chs.map fun ch => (16 + ch, 1)
        chanWrites := s.chanWrites ++ chs } := by
  induction chs generalizing s with
  | nil => exact ⟨s.fmt.chanMap, by simp [List.forM, pure, EStateM.pure]⟩
  | cons ch chs ih =>
    obtain ⟨map, h⟩ := ih
      { s with
        fmt := { s.fmt with chanMap := Function.update s.fmt.chanMap ch (m.payload (16 + ch)) }
        reads := s.reads ++ [(16 + ch, 1)]
        chanWrites := s.chanWrites ++ [ch] }
    refine ⟨map, ?_⟩
    change chs.forM (copyChannel m) _ = _
    rw [h]
    simp

/-! ### PCM -/

/-- The check of the data format that a PCM payload must pass. -/
def ClientMediaFormat.pcmCheck (b : WrEpBuild) (m : ClientMediaFormat) : ArResult :=
  if m.dataFormat = 1 then m.pcm.validateFixed b.maxCh else m.pcm.validateFloat b.maxCh

/-- The format is PCM, or PCM for the offload extension, and its interleaving is known. -/
def ClientMediaFormat.pcmKnown (b : WrEpBuild) (m : ClientMediaFormat) : Bool :=
  m.fmtId == ClientMediaFormat.idPcm && (m.pcm.interleaved == 0 || m.pcm.interleaved == 1) ||
    b.offload && m.fmtId == ClientMediaFormat.idPcmExtn

/-- What the code checks of a PCM payload before it reads the channel map. -/
def ClientMediaFormat.pcmAccepted (b : WrEpBuild) (m : ClientMediaFormat) : Bool :=
  decide (16 ≤ m.payloadSize) && m.pcmCheck b == .eok && m.pcmKnown b

/-- What the endpoint checks implies the common check. -/
lemma validateCommon_of_pcmCheck (h : m.pcmCheck b = .eok) :
    m.pcm.validateCommon b.maxCh = .eok := by
  by_contra hc
  unfold ClientMediaFormat.pcmCheck at h
  split at h
  · simp [PayloadMediaFmtPcm.validateFixed, hc] at h
  · simp [PayloadMediaFmtPcm.validateFloat, hc] at h

lemma topoEndianness_ne_zero (h : m.pcmCheck b = .eok) : m.pcm.topoEndianness ≠ 0 := by
  have hcommon := validateCommon_of_pcmCheck h
  unfold PayloadMediaFmtPcm.validateCommon at hcommon
  unfold PayloadMediaFmtPcm.topoEndianness
  split_ifs at hcommon ⊢ <;> simp_all

/-- Only the fixed part of a PCM payload was read. -/
def ReadFixedPart (s : ParseState) : Prop :=
  s.reads = [(0, 16)] ∧ s.chanWrites = [] ∧ s.rawWrites = []

/-- The data format was checked, and a PCM format is being filled in. -/
def PcmChecked (b : WrEpBuild) (m : ClientMediaFormat) (s : ParseState) : Prop :=
  ReadFixedPart s ∧ m.pcmCheck b = .eok ∧ s.fmt.dataFormat.isPacketizedOrPcm = true

/-- The channels and the bits of the payload were stored as well. -/
def PcmFilled (b : WrEpBuild) (m : ClientMediaFormat) (s : ParseState) : Prop :=
  PcmChecked b m s ∧ s.fmt.numChannels = m.pcm.numChannels.toUInt8 ∧
    s.fmt.bitsPerSample = m.pcm.bitsPerSample.toUInt8

/-- The PCM format is complete: the channel map was read for the channels that were stored. -/
structure PcmDone (b : WrEpBuild) (m : ClientMediaFormat) (s : ParseState) : Prop where
  accepted : m.pcmAccepted b = true
  isPcm : s.fmt.dataFormat.isPacketizedOrPcm = true
  numChannels : s.fmt.numChannels = m.pcm.numChannels.toUInt8
  bitsPerSample : s.fmt.bitsPerSample = m.pcm.bitsPerSample.toUInt8
  reads : s.reads = (0, 16) :: (range m.pcm.numChannels.toUInt8.toNat).map fun ch => (16 + ch, 1)
  chanWrites : s.chanWrites = range m.pcm.numChannels.toUInt8.toNat
  rawWrites : s.rawWrites = []

/-- The PCM format was refused after at most the fixed part of a payload that has it was read. -/
structure PcmRefused (b : WrEpBuild) (m : ClientMediaFormat) (s : ParseState) : Prop where
  not_accepted : m.pcmAccepted b = false
  reads : ∀ r ∈ s.reads, r = (0, 16) ∧ 16 ≤ m.payloadSize
  chanWrites : s.chanWrites = []
  rawWrites : s.rawWrites = []

/-- A step that only writes the format. -/
lemma setFmt_triple {P Q : ParseState → Prop} {E : ParseState → Prop}
    {f : LocalMediaFmt → LocalMediaFmt} (h : ∀ s, P s → Q { s with fmt := f s.fmt }) :
    Triple P (setFmt f) (fun _ => Q) E :=
  Triple.modify h

section

variable (b : WrEpBuild) (m : ClientMediaFormat)

/-- The data format is set, or the payload is refused after its fixed part. -/
lemma parsePcmDataFormat_triple :
    Triple ReadFixedPart (parsePcmDataFormat b m) (fun _ => PcmChecked b m)
      (fun s => ReadFixedPart s ∧ m.pcmCheck b ≠ .eok) := by
  have hcheck : ∀ {r : ArResult} {df : SpfDataFormat} {q : UInt8}, m.pcmCheck b = r →
      df.isPacketizedOrPcm = true →
      Triple ReadFixedPart (do
          setFmt fun f => { f with dataFormat := df }
          tryResult r
          setFmt fun f => { f with qFactor := q })
        (fun _ => PcmChecked b m) (fun s => ReadFixedPart s ∧ m.pcmCheck b ≠ .eok) := by
    intro r df q hr hdf
    refine Triple.bind (Q := fun _ s => ReadFixedPart s ∧ s.fmt.dataFormat.isPacketizedOrPcm = true)
      (setFmt_triple fun s hs => ⟨hs, hdf⟩) fun _ => ?_
    refine Triple.bind ?_ fun _ => setFmt_triple fun s hs => hs
    refine Triple.ite (fun h => Triple.pure fun s hs => ⟨hs.1, hr.trans h, hs.2⟩) fun h =>
      Triple.throw fun s hs => ⟨hs.1, fun h' => h (hr.symm.trans h')⟩
  unfold parsePcmDataFormat
  split_ifs with hdf
  · exact hcheck (if_pos hdf) rfl
  · exact hcheck (if_neg hdf) rfl

/-- The fields of a checked format are filled in. -/
lemma parsePcmFields_triple (E : ParseState → Prop) :
    Triple (PcmChecked b m) (parsePcmFields m) (fun _ => PcmFilled b m) E := by
  intro s hs
  unfold parsePcmFields
  rw [if_neg (topoEndianness_ne_zero hs.2.1)]
  exact ⟨hs, rfl, rfl⟩

/-- The channel map is read behind the fixed part. -/
lemma parseChannelMap_triple (E : ParseState → Prop)
    (h : m.pcmCheck b = .eok → m.pcmAccepted b = true) :
    Triple (PcmFilled b m) (parseChannelMap m) (fun _ => PcmDone b m) E := by
  intro s hs
  obtain ⟨⟨⟨hreads, hch, hraw⟩, hcheck, hdf⟩, hnum, hbits⟩ := hs
  obtain ⟨map, hrun⟩ := forM_copyChannel m (range m.pcm.numChannels.toUInt8.toNat) s
  unfold parseChannelMap
  rw [hrun]
  exact ⟨h hcheck, hdf, hnum, hbits, by rw [hreads]; rfl, by rw [hch]; rfl, hraw⟩

end

/-- A payload that is too small is refused untouched. -/
lemma refused_of_small (h : m.payloadSize < 16) : PcmRefused b m .init := by
  refine ⟨?_, by simp [ParseState.init], rfl, rfl⟩
  have : ¬ 16 ≤ m.payloadSize := by simpa using h
  simp [ClientMediaFormat.pcmAccepted, this]

variable {s : ParseState}

/-- A refused payload was read in its fixed part only. -/
lemma refused_of_read (h : ReadFixedPart s) (hsize : ¬ m.payloadSize < 16)
    (hnot : m.pcmAccepted b = false) : PcmRefused b m s := by
  refine ⟨hnot, ?_, h.2.1, h.2.2⟩
  intro r hr
  rw [h.1] at hr
  exact ⟨mem_singleton.mp hr, by simpa using hsize⟩

/-- The body of a PCM format, step by step. -/
lemma pcmBody_triple (hsize : ¬ m.payloadSize < 16) (f : LocalMediaFmt → LocalMediaFmt)
    {rest : ParseM Unit}
    (hrest : Triple (PcmFilled b m) rest (fun _ => PcmDone b m) (PcmRefused b m)) :
    Triple (fun s => s = .init) (do
        readPayload 0 16
        setFmt f
        parsePcmDataFormat b m
        parsePcmFields m
        rest)
      (fun _ => PcmDone b m) (PcmRefused b m) := by
  refine Triple.bind (Q := fun _ => ReadFixedPart) ?_ fun _ => ?_
  · exact Triple.modify fun s hs => hs ▸ ⟨rfl, rfl, rfl⟩
  refine Triple.bind (Q := fun _ => ReadFixedPart) (setFmt_triple fun _ hs => hs) fun _ => ?_
  refine Triple.bind (Q := fun _ => PcmChecked b m) ?_ fun _ => ?_
  · refine (parsePcmDataFormat_triple b m).conseq (fun _ hs => hs) (fun _ _ hs => hs) ?_
    rintro s ⟨hread, hcheck⟩
    exact refused_of_read hread hsize (by simp [ClientMediaFormat.pcmAccepted, hcheck])
  · exact Triple.bind (parsePcmFields_triple b m _) fun _ => hrest

/-- A parser that throws at once refuses the payload. -/
lemma throw_of_small (h : m.payloadSize < 16) (rest : PUnit → ParseM Unit) :
    Triple (fun s => s = .init) (throw .efailed >>= rest) (fun _ => PcmDone b m) (PcmRefused b m) :=
  Triple.bind (Q := fun _ _ => False) (Triple.throw fun _ hs => hs ▸ refused_of_small h)
    fun _ _ hs => hs.elim

/-- **PCM payloads.** A PCM format is complete when the parser returns, and was refused when it
stops. -/
lemma genCntrParseInpPcmMediaFmt_triple (b : WrEpBuild) (m : ClientMediaFormat) :
    Triple (fun s => s = .init) (genCntrParseInpPcmMediaFmt b m) (fun _ => PcmDone b m)
      (PcmRefused b m) := by
  have haccepted : ¬ m.payloadSize < 16 → m.pcmKnown b = true → m.pcmCheck b = .eok →
      m.pcmAccepted b = true := by
    intro hsize hknown hcheck
    have : 16 ≤ m.payloadSize := by simpa using hsize
    simp [ClientMediaFormat.pcmAccepted, hknown, hcheck, this]
  unfold genCntrParseInpPcmMediaFmt genCntrOffloadParseInpPcmMediaFmt
  by_cases hsize : m.payloadSize < 16
  · split_ifs with hid hinter hextn
    · exact throw_of_small hsize _
    · exact throw_of_small hsize _
    · exact throw_of_small hsize _
    · exact Triple.throw fun _ hs => hs ▸ refused_of_small hsize
  split_ifs with hid hinter hextn
  · refine pcmBody_triple hsize _ ?_
    refine Triple.bind (Q := fun _ => PcmFilled b m) (setFmt_triple fun _ hs => hs) fun _ => ?_
    refine parseChannelMap_triple b m _ (haccepted hsize ?_)
    rcases hinter with hinter | hinter <;> simp [ClientMediaFormat.pcmKnown, hid, hinter]
  · refine pcmBody_triple hsize _ ?_
    refine Triple.bind (Q := fun _ _ => False) (Triple.throw fun s hs => ?_) fun _ _ hs => hs.elim
    refine refused_of_read hs.1.1 hsize ?_
    have : ¬ m.fmtId = ClientMediaFormat.idPcmExtn := by
      rw [hid]
      decide
    simp_all [ClientMediaFormat.pcmAccepted, ClientMediaFormat.pcmKnown]
  · refine pcmBody_triple hsize _ (parseChannelMap_triple b m _ (haccepted hsize ?_))
    simp [ClientMediaFormat.pcmKnown, hextn]
  · refine Triple.throw fun s hs => ?_
    refine ⟨?_, by simp [hs, ParseState.init], by rw [hs]; rfl, by rw [hs]; rfl⟩
    simp_all [ClientMediaFormat.pcmAccepted, ClientMediaFormat.pcmKnown]

/-! ### What a format must be like -/

/-- The parser kept to the payload, to the entries of `chan_map` and to the raw buffer. -/
structure ParseSafe (maxCh : ℕ) (m : ClientMediaFormat) (s : ParseState) : Prop where
  reads : ∀ r ∈ s.reads, r.1 + r.2 ≤ m.payloadSize.toNat
  chanWrites : ∀ ch ∈ s.chanWrites, ch < maxCh
  rawWrites : ∀ r ∈ s.rawWrites, ∃ size ∈ s.fmt.rawBufSize, r.1 + r.2 ≤ size.toNat

/-- The parser is safe with the payload, and a format that it hands on has units. -/
def ParseSound (b : WrEpBuild) (m : ClientMediaFormat) (malloc : Bool) : Prop :=
  match parseInMediaFmt b m malloc .init with
  | .ok _ s => ParseSafe b.maxCh m s ∧ s.fmt.HasUnits
  | .error _ s => ParseSafe b.maxCh m s

/-- The payloads that the parser handles as it should: those that have the fields the parser
reads, with a channel and a byte per sample left when these are stored in a byte.  A PCM payload
only matters if it passes the checks, and a raw payload if its buffer is allocated; the size of
the buffer must not wrap. -/
def ClientMediaFormat.Fits (b : WrEpBuild) (m : ClientMediaFormat) (malloc : Bool) : Prop :=
  if m.dataFormat = 1 ∨ m.dataFormat = 9 then
    m.pcmAccepted b = true → 1 ≤ m.pcm.numChannels.toUInt8.toNat ∧
      8 ≤ m.pcm.bitsPerSample.toUInt8.toNat ∧
      16 + m.pcm.numChannels.toUInt8.toNat ≤ m.payloadSize.toNat
  else if m.dataFormat = 6 then malloc = true → m.payloadSize.toNat + 8 < 2 ^ 32
  else if m.dataFormat = 2 ∨ m.dataFormat = 3 then
    6 ≤ m.payloadSize.toNat ∧ 1 ≤ (halfAt m.payload 4).toUInt8.toNat
  else if m.dataFormat = 5 then
    8 ≤ m.payloadSize.toNat ∧ 8 ≤ (halfAt m.payload 4).toUInt8.toNat ∧
      1 ≤ (halfAt m.payload 6).toUInt8.toNat
  else True

instance (b : WrEpBuild) (m : ClientMediaFormat) (malloc : Bool) : Decidable (m.Fits b malloc) := by
  delta ClientMediaFormat.Fits
  infer_instance

lemma one_le_shift_three {n : ℕ} : 1 ≤ n >>> 3 ↔ 8 ≤ n := by
  omega

/-- The channel writes stay inside the array. -/
lemma PcmDone.channel_lt (h : PcmDone b m s) {ch : ℕ} (hch : ch ∈ s.chanWrites) : ch < b.maxCh := by
  have haccepted := h.accepted
  simp only [ClientMediaFormat.pcmAccepted, Bool.and_eq_true, beq_iff_eq] at haccepted
  have hcommon := validateCommon_of_pcmCheck haccepted.1.2
  unfold PayloadMediaFmtPcm.validateCommon at hcommon
  have hle : m.pcm.numChannels.toNat ≤ b.maxCh := by
    by_contra hlt
    rw [if_pos (Or.inr (not_le.mp hlt))] at hcommon
    cases hcommon
  rw [h.chanWrites, mem_range, UInt16.toNat_toUInt8] at hch
  exact (hch.trans_le (Nat.mod_le _ _)).trans_le hle

/-- A PCM format that is handed on. -/
lemma PcmDone.sound_iff (h : PcmDone b m s) : (ParseSafe b.maxCh m s ∧ s.fmt.HasUnits) ↔
      1 ≤ m.pcm.numChannels.toUInt8.toNat ∧ 8 ≤ m.pcm.bitsPerSample.toUInt8.toNat ∧
        16 + m.pcm.numChannels.toUInt8.toNat ≤ m.payloadSize.toNat := by
  have hunits : s.fmt.HasUnits ↔
      1 ≤ m.pcm.numChannels.toUInt8.toNat ∧ 8 ≤ m.pcm.bitsPerSample.toUInt8.toNat := by
    unfold LocalMediaFmt.HasUnits LocalMediaFmt.bytesPerSample
    rw [h.isPcm, h.numChannels, h.bitsPerSample, one_le_shift_three]
    exact forall_prop_of_true rfl
  constructor
  · rintro ⟨hsafe, hhas⟩
    obtain ⟨hnum, hbits⟩ := hunits.mp hhas
    refine ⟨hnum, hbits, ?_⟩
    -- the last entry of the channel map is in the payload
    have hmem : (16 + (m.pcm.numChannels.toUInt8.toNat - 1), 1) ∈ s.reads := by
      rw [h.reads]
      refine mem_cons_of_mem _ (mem_map.mpr ⟨_, mem_range.mpr ?_, rfl⟩)
      omega
    have := hsafe.reads _ hmem
    omega
  · rintro ⟨hnum, hbits, hsize⟩
    refine ⟨⟨?_, fun ch hch => h.channel_lt hch, by simp [h.rawWrites]⟩, hunits.mpr ⟨hnum, hbits⟩⟩
    intro r hr
    rw [h.reads] at hr
    rcases mem_cons.mp hr with rfl | hr
    · omega
    · obtain ⟨ch, hch, rfl⟩ := mem_map.mp hr
      have := mem_range.mp hch
      omega

/-- A refused payload is read inside its size. -/
lemma PcmRefused.safe (h : PcmRefused b m s) : ParseSafe b.maxCh m s := by
  refine ⟨?_, by simp [h.chanWrites], by simp [h.rawWrites]⟩
  intro r hr
  obtain ⟨rfl, hsize⟩ := h.reads r hr
  exact UInt32.le_iff_toNat_le.mp hsize

/-- PCM and packed formats are parsed soundly iff they fit. -/
lemma parseSound_pcm (hdf : m.dataFormat = 1 ∨ m.dataFormat = 9) :
    ParseSound b m malloc ↔ m.Fits b malloc := by
  have htriple := genCntrParseInpPcmMediaFmt_triple b m .init rfl
  unfold ParseSound ClientMediaFormat.Fits parseInMediaFmt
  rw [if_pos hdf, if_pos hdf]
  cases hrun : genCntrParseInpPcmMediaFmt b m .init with
  | ok a s =>
    rw [hrun] at htriple
    simp only [htriple.accepted, forall_const]
    exact htriple.sound_iff
  | error e s =>
    rw [hrun] at htriple
    simp only [htriple.not_accepted, Bool.false_eq_true, false_implies, iff_true]
    exact htriple.safe

/-! ### The other data formats -/

/-- The run of the IEC parser. -/
lemma parseIecPacketized_run (m : ClientMediaFormat) : ∃ fmt : LocalMediaFmt,
      parseIecPacketized m .init = .ok ⟨⟩ ⟨fmt, [(0, 4), (4, 2)], [], []⟩ ∧
      fmt.dataFormat.isPacketizedOrPcm = true ∧ 1 ≤ fmt.bytesPerSample ∧
      fmt.numChannels = (halfAt m.payload 4).toUInt8 := by
  unfold parseIecPacketized
  split_ifs with hdf
  · exact ⟨_, rfl, rfl, one_le_shift_three.mpr (show 8 ≤ (32 : UInt8).toNat by decide), rfl⟩
  · exact ⟨_, rfl, rfl, one_le_shift_three.mpr (show 8 ≤ (16 : UInt8).toNat by decide), rfl⟩

/-- The run of the parser of a compressed format. -/
lemma parseGenericCompressed_run (m : ClientMediaFormat) : ∃ fmt : LocalMediaFmt,
      parseGenericCompressed m .init = .ok ⟨⟩ ⟨fmt, [(0, 4), (4, 2), (6, 2)], [], []⟩ ∧
      fmt.dataFormat.isPacketizedOrPcm = true ∧
      fmt.bitsPerSample = (halfAt m.payload 4).toUInt8 ∧
      fmt.numChannels = (halfAt m.payload 6).toUInt8 :=
  ⟨_, rfl, rfl, rfl, rfl⟩

/-- A run that only reads is safe iff what it reads is inside the payload. -/
lemma parseSafe_of_reads {fmt : LocalMediaFmt} {reads : List (ℕ × ℕ)} {maxCh : ℕ} :
    ParseSafe maxCh m ⟨fmt, reads, [], []⟩ ↔ ∀ r ∈ reads, r.1 + r.2 ≤ m.payloadSize.toNat :=
  ⟨fun h => h.reads, fun h => ⟨h, by simp, by simp⟩⟩

/-- The run that keeps the raw payload. -/
lemma createRawComprMedFmt_run (m : ClientMediaFormat) (g : LocalMediaFmt → LocalMediaFmt) :
    (do tuCapiCreateRawComprMedFmt m true; setFmt g : ParseM Unit) .init =
      if m.payloadSize = 0 then
        .ok ⟨⟩ ⟨g { LocalMediaFmt.zero with rawBufSize := some (8 + m.payloadSize) }, [], [],
          [(0, 4), (4, 4)]⟩
      else
        .ok ⟨⟩ ⟨g { LocalMediaFmt.zero with rawBufSize := some (8 + m.payloadSize) },
          [(0, min (8 + m.payloadSize).toNat m.payloadSize.toNat)], [],
          [(0, 4), (4, 4), (8, min (8 + m.payloadSize).toNat m.payloadSize.toNat)]⟩ := by
  unfold tuCapiCreateRawComprMedFmt
  rw [if_neg (by decide)]
  by_cases hzero : m.payloadSize = 0
  · rw [if_neg (not_not.mpr hzero), if_pos hzero]
    rfl
  · rw [if_pos hzero, if_neg hzero]
    rfl

section

variable (hpcm : ¬ (m.dataFormat = 1 ∨ m.dataFormat = 9))
include hpcm

/-- Raw compressed formats are parsed soundly iff they fit. -/
lemma parseSound_raw (hdf : m.dataFormat = 6) : ParseSound b m malloc ↔ m.Fits b malloc := by
  have hsize : (8 + m.payloadSize).toNat = (8 + m.payloadSize.toNat) % 2 ^ 32 :=
    UInt32.toNat_add _ _
  have hlt : m.payloadSize.toNat < 2 ^ 32 := m.payloadSize.toNat_lt
  have hunits : ∀ fmt : LocalMediaFmt, fmt.dataFormat = .rawCompressed → fmt.HasUnits := by
    intro fmt hfmt hpack
    rw [hfmt] at hpack
    cases hpack
  unfold ParseSound ClientMediaFormat.Fits parseInMediaFmt
  simp only [if_neg hpcm, if_pos hdf]
  cases malloc with
  | false =>
    simp only [Bool.false_eq_true, false_implies, iff_true]
    exact parseSafe_of_reads.mpr (by simp)
  | true =>
    rw [createRawComprMedFmt_run, forall_prop_of_true rfl]
    split_ifs with hzero
    · refine iff_of_true ⟨⟨by simp, by simp, ?_⟩, hunits _ rfl⟩ (by rw [hzero]; decide)
      intro r hr
      refine ⟨_, rfl, ?_⟩
      rw [hsize, hzero]
      simp only [mem_cons, not_mem_nil, or_false] at hr
      rcases hr with rfl | rfl <;> decide
    · constructor
      · rintro ⟨hsafe, -⟩
        -- the second word of the header is in the buffer only if the size has not wrapped
        obtain ⟨size, hmem, hle⟩ := hsafe.rawWrites (4, 4) (by simp)
        cases hmem
        omega
      · intro hfits
        refine ⟨⟨?_, by simp, ?_⟩, hunits _ rfl⟩
        · intro r hr
          rw [mem_singleton.mp hr, zero_add]
          exact min_le_right _ _
        · intro r hr
          refine ⟨_, rfl, ?_⟩
          simp only [mem_cons, not_mem_nil, or_false] at hr
          rcases hr with rfl | rfl | rfl <;> dsimp only <;> omega

/-- IEC formats are parsed soundly iff they fit. -/
lemma parseSound_iec (hraw : ¬ m.dataFormat = 6) (hdf : m.dataFormat = 2 ∨ m.dataFormat = 3) :
    ParseSound b m malloc ↔ m.Fits b malloc := by
  obtain ⟨fmt, hrun, hpack, hbytes, hnum⟩ := parseIecPacketized_run m
  unfold ParseSound ClientMediaFormat.Fits parseInMediaFmt
  simp only [if_neg hpcm, if_neg hraw, if_pos hdf, hrun, parseSafe_of_reads,
    LocalMediaFmt.HasUnits, hpack, hnum, forall_mem_cons, forall_const]
  refine ⟨fun h => ⟨h.1.2.1, h.2.1⟩, fun h => ⟨⟨?_, h.1, by simp⟩, h.2, hbytes⟩⟩
  exact le_trans (by decide) h.1

/-- Compressed formats are parsed soundly iff they fit. -/
lemma parseSound_generic (hraw : ¬ m.dataFormat = 6)
    (hiec : ¬ (m.dataFormat = 2 ∨ m.dataFormat = 3)) (hdf : m.dataFormat = 5) :
    ParseSound b m malloc ↔ m.Fits b malloc := by
  obtain ⟨fmt, hrun, hpack, hbits, hnum⟩ := parseGenericCompressed_run m
  unfold ParseSound ClientMediaFormat.Fits parseInMediaFmt
  simp only [if_neg hpcm, if_neg hraw, if_neg hiec, if_pos hdf, hrun, parseSafe_of_reads,
    LocalMediaFmt.HasUnits, LocalMediaFmt.bytesPerSample, hpack, hbits, hnum,
    forall_mem_cons, forall_const, one_le_shift_three]
  refine ⟨fun h => ⟨h.1.2.2.1, h.2.2, h.2.1⟩, fun h => ⟨⟨?_, ?_, h.1, by simp⟩, h.2.2, h.2.1⟩⟩
  · exact le_trans (by decide) h.1
  · exact le_trans (by decide) h.1

end

/-- **What the parser needs.** It is safe with a payload, and hands on nothing without units,
exactly when the payload fits. -/
lemma parseSound_iff : ParseSound b m malloc ↔ m.Fits b malloc := by
  by_cases hpcm : m.dataFormat = 1 ∨ m.dataFormat = 9
  · exact parseSound_pcm hpcm
  by_cases hraw : m.dataFormat = 6
  · exact parseSound_raw hpcm hraw
  by_cases hiec : m.dataFormat = 2 ∨ m.dataFormat = 3
  · exact parseSound_iec hpcm hraw hiec
  by_cases hgen : m.dataFormat = 5
  · exact parseSound_generic hpcm hraw hiec hgen
  unfold ParseSound ClientMediaFormat.Fits parseInMediaFmt
  simp only [if_neg hpcm, if_neg hraw, if_neg hiec, if_neg hgen, iff_true]
  exact ⟨by simp [ParseState.init], by simp [ParseState.init], by simp [ParseState.init]⟩

end Parser

/-! ## Runs of messages -/

/-- What the parser does not decide itself: whether the heap has room for a raw buffer, and where
the bytes behind two channel maps differ. -/
structure ParseEnv where
  /-- `posal_memory_malloc` returns a buffer. -/
  malloc : Bool
  /-- The bytes behind the maps differ at this index. -/
  past : ℕ → Bool

/-- What a client may send to a write end point. -/
inductive WrEpMsg
  /-- `DATA_CMD_WR_SH_MEM_EP_MEDIA_FORMAT`. -/
  | mediaFormat (m : ClientMediaFormat) (env : ParseEnv)
  /-- `PARAM_ID_MEDIA_FORMAT` with a parameter of `paramSize` bytes; the subgraph may be started. -/
  | setCfg (started : Bool) (paramSize : UInt32) (m : ClientMediaFormat) (env : ParseEnv)
  /-- `DATA_CMD_WR_SH_MEM_EP_DATA_BUFFER_V2`. -/
  | dataBuffer (d : WrDataBuffer)

namespace WrEpMsg

/-- The media format that the parser gets.  As a parameter it is refused while the subgraph is
started, and if it is smaller than the 12 bytes of the header. -/
def parsed : WrEpMsg → Option (ClientMediaFormat × ParseEnv)
  | .mediaFormat m env => some (m, env)
  | .setCfg started paramSize m env =>
    if started then none else if 12 ≤ paramSize then some (m, env) else none
  | .dataBuffer _ => none

/-- The message has no media format, or one whose payload fits. -/
def Fits (b : WrEpBuild) (msg : WrEpMsg) : Prop :=
  ∀ p ∈ msg.parsed, p.1.Fits b p.2.malloc

instance (b : WrEpBuild) (msg : WrEpMsg) : Decidable (msg.Fits b) :=
  match h : msg.parsed with
  | none => isTrue fun p hp => by simp [h] at hp
  | some p => decidable_of_iff (p.1.Fits b p.2.malloc) (by simp [Fits, h])

end WrEpMsg

namespace WrEp

variable (b : WrEpBuild)

/-- `gen_cntr_data_ctrl_cmd_handle_in_media_fmt_from_gpr_client`: the format that is handed to
`gen_cntr_input_media_format_received` becomes the one of the port if it has changed. -/
def handleInMediaFmt (fmt : LocalMediaFmt) (m : ClientMediaFormat) (env : ParseEnv) :
    LocalMediaFmt :=
  match parseInMediaFmt b m env.malloc .init with
  | .ok _ s => if fmt.hasMediaFormatChanged b.maxCh env.past s.fmt then s.fmt else fmt
  | .error _ _ => fmt

/-- The format of the external input port after a message. -/
def step (fmt : LocalMediaFmt) (msg : WrEpMsg) : LocalMediaFmt :=
  match msg.parsed with
  | some (m, env) => handleInMediaFmt b fmt m env
  | none => fmt

/-- A media format is parsed safely and handed on with units, and a data buffer does not make the
end point divide by zero. -/
def Sound (fmt : LocalMediaFmt) (msg : WrEpMsg) : Prop :=
  (∀ p ∈ msg.parsed, ParseSound b p.1 p.2.malloc) ∧
    match msg with
    | .dataBuffer d => (inputDataBufferSetUp b fmt d).isSome = true
    | _ => True

variable {b} {fmt : LocalMediaFmt} {msg : WrEpMsg}

/-- A message that fits keeps the units of the format. -/
lemma hasUnits_step (hunits : fmt.HasUnits) (hfits : msg.Fits b) : (step b fmt msg).HasUnits := by
  unfold step
  cases hparsed : msg.parsed with
  | none => exact hunits
  | some p =>
    have hsound := parseSound_iff.mpr (hfits p hparsed)
    dsimp only
    unfold ParseSound at hsound
    unfold handleInMediaFmt
    cases hrun : parseInMediaFmt b p.1 p.2.malloc .init with
    | ok a s =>
      rw [hrun] at hsound
      dsimp only
      split
      · exact hsound.2
      · exact hunits
    | error e s => exact hunits

/-- A format with units lets a data buffer be set up. -/
lemma inputDataBufferSetUp_isSome (hunits : fmt.HasUnits) (d : WrDataBuffer) :
    (inputDataBufferSetUp b fmt d).isSome = true := by
  unfold inputDataBufferSetUp
  split_ifs with h1 h2 h3 h4 htest hzero
  any_goals rfl
  obtain ⟨hch, hbytes⟩ := hunits htest.2
  exact absurd hzero (Nat.mul_pos hch hbytes).ne'

/-- **One message.** It is handled soundly iff it fits. -/
lemma sound_iff_fits (hunits : fmt.HasUnits) : Sound b fmt msg ↔ msg.Fits b := by
  unfold Sound WrEpMsg.Fits
  simp only [parseSound_iff]
  refine ⟨fun h => h.1, fun h => ⟨h, ?_⟩⟩
  cases msg with
  | mediaFormat m env => trivial
  | setCfg started paramSize m env => trivial
  | dataBuffer d => exact inputDataBufferSetUp_isSome hunits d

/-- **Media formats of clients.** In a run of media formats and data buffers at a write end point
whose port has no format yet, the parser keeps to the memory it may use, every format handed on
has units and no data buffer makes the end point divide by zero, exactly if the payload of every
media format fits. -/
theorem mediaFormats_sound_iff (b : WrEpBuild) (msgs : List WrEpMsg) :
    Meets (step b) (Sound b) .zero msgs ↔ ∀ msg ∈ msgs, msg.Fits b := by
  have hrun : ∀ fmt : LocalMediaFmt, fmt.HasUnits →
      (Meets (step b) (Sound b) fmt msgs ↔ ∀ msg ∈ msgs, msg.Fits b) := by
    induction msgs with
    | nil => exact fun _ _ => iff_of_true trivial (by simp)
    | cons msg msgs ih =>
      intro fmt hunits
      rw [forall_mem_cons]
      constructor
      · rintro ⟨hsound, hrest⟩
        have hfits := (sound_iff_fits hunits).mp hsound
        exact ⟨hfits, (ih _ (hasUnits_step hunits hfits)).mp hrest⟩
      · rintro ⟨hfits, hrest⟩
        exact ⟨(sound_iff_fits hunits).mpr hfits, (ih _ (hasUnits_step hunits hfits)).mpr hrest⟩
  exact hrun .zero (by decide)

/-! ## A client without channels -/

/-- The build without product-specific options. -/
def defaultBuild : WrEpBuild := ⟨32, true, 7⟩

/-- An IEC 61937 stream of 48 kHz whose client says it has no channels. -/
def noChannels : ClientMediaFormat :=
  ⟨2, 0x09001006, 8, fun i => if i = 0 then 0x80 else if i = 1 then 0xBB else 0⟩

/-- A data buffer of 64 bytes without metadata. -/
def plainBuffer : WrDataBuffer := ⟨0, 64, 0, 0, 0, 44⟩

theorem mediaFormats_not_sound :
    ¬ ∀ (b : WrEpBuild) (msgs : List WrEpMsg), Meets (step b) (Sound b) .zero msgs := by
  intro h
  have hrun := h defaultBuild
    [.mediaFormat noChannels ⟨true, fun _ => false⟩, .dataBuffer plainBuffer]
  -- the second message divides by a unit size of zero
  exact absurd hrun.2.1.2 (by decide)

end WrEp

end AudioReach
