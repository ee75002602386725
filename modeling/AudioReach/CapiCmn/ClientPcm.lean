import Mathlib.Algebra.Order.Ring.Int

/-!
# The PCM formats that clients may set

A client gives the format of its samples either in a media format or, for an encoder or decoder, in
an output configuration whose fields may also be native or unset.  The model follows the validators
of `capi_cmn.c`.  The fields of a payload are integers, since they are only compared with constants;
the number of channels of an output configuration is also the bound of a loop, as an unsigned word.
-/

namespace AudioReach.ClientPcm

/-- `CAPI_MAX_CHANNELS_V2`. -/
def capiMaxChannelsV2 : ℕ := 32

/-- What a payload says of a sample; an alignment of 1 is `PCM_LSB_ALIGNED`, of 2
`PCM_MSB_ALIGNED`. -/
structure PcmSample where
  bitWidth : ℤ
  bitsPerSample : ℤ
  qFactor : ℤ
  alignment : ℤ

/-- `payload_media_fmt_pcm_t`. -/
structure PcmMediaFmt extends PcmSample where
  sampleRate : ℕ
  endianness : ℕ
  numChannels : ℕ

/-- `payload_pcm_output_format_cfg_t`. -/
structure PcmOutputCfg extends PcmSample where
  endianness : ℤ
  interleaved : ℤ
  numChannels : Int32

/-- `capi_cmn_validate_client_pcm_common_media_format`. -/
def validateClientPcmCommonMediaFormat (fmt : PcmMediaFmt) : Bool :=
  !(fmt.numChannels == 0 || fmt.numChannels > capiMaxChannelsV2) &&
    !(fmt.sampleRate == 0 || 384000 < fmt.sampleRate) &&
    !(fmt.endianness != 1 && fmt.endianness != 2)

/-- The `switch` over the bit width, which both validators for fixed point have. -/
def bpsRelatedErr (s : PcmSample) : Bool :=
  if s.bitWidth = 16 then !(s.bitsPerSample == 16) && s.qFactor == 15
  else if s.bitWidth = 24 then
    if s.bitsPerSample = 24 then s.qFactor != 23
    else if s.bitsPerSample = 32 then
      !(s.qFactor == 27 || (s.qFactor == 23 && s.alignment == 1) ||
        (s.qFactor == 31 && s.alignment == 2))
    else true
  else if s.bitWidth = 32 then !(s.bitsPerSample == 32) && s.qFactor == 31
  else true

/-- `capi_cmn_validate_client_pcm_media_format`: whether it returns `CAPI_EOK`. -/
def validateClientPcmMediaFormat (fmt : PcmMediaFmt) : Bool :=
  validateClientPcmCommonMediaFormat fmt && !bpsRelatedErr fmt.toPcmSample

/-- `PARAM_VAL_NATIVE` or `PARAM_VAL_UNSET`. -/
def nativeOrUnset (v : ℤ) : Bool := v == -1 || v == -2

/-- A field that is neither native nor unset nor one of the values. -/
def unsupported (values : List ℤ) (v : ℤ) : Bool := !nativeOrUnset v && !values.contains v

/-- The checks of `capi_cmn_validate_client_pcm_output_cfg` on the sample. -/
def outputBpsErr (s : PcmSample) : Bool :=
  let err := unsupported [16, 24, 32] s.bitWidth || unsupported [16, 24, 32] s.bitsPerSample ||
    unsupported [1, 2] s.alignment || unsupported [15, 23, 27, 31] s.qFactor
  if nativeOrUnset s.bitWidth || nativeOrUnset s.bitsPerSample || nativeOrUnset s.alignment ||
      nativeOrUnset s.qFactor then
    err || s.bitsPerSample != s.bitWidth || s.alignment != s.bitWidth || s.qFactor != s.bitWidth
  else err || bpsRelatedErr s

/-- The checks of `capi_cmn_validate_client_pcm_float_output_cfg` on the sample. -/
def floatBpsErr (s : PcmSample) : Bool :=
  if s.bitWidth = 32 then s.bitsPerSample != 32
  else if s.bitWidth = 64 then s.bitsPerSample != 64
  else true

/-- From `PCM_CHANNEL_L` to `PCM_MAX_CHANNEL_MAP_V2`. -/
def isChannelType (ch : UInt8) : Bool := !(ch.toNat < 1 || ch.toNat > 128)

/-- The loop over the channel map, `left` rounds before its end and at entry `i`: the entries that
are read, and whether the loop gets to its end. -/
def channelLoop (channelMapping : ℕ → UInt8) : ℕ → ℕ → ℕ × Bool
  | 0, i => (i, true)
  | left + 1, i =>
    if isChannelType (channelMapping i) then channelLoop channelMapping left (i + 1)
    else (i + 1, false)

/-- What both validators of an output configuration check first: the entries of the channel map that
are read, and whether the checks are passed. -/
def outputHeader (cfg : PcmOutputCfg) (channelMapping : ℕ → UInt8) : ℕ × Bool :=
  let n := cfg.numChannels.toInt
  if unsupported [1, 2] cfg.endianness || unsupported [1, 2, 3] cfg.interleaved then (0, false)
  else if !nativeOrUnset n && (!(capiMaxChannelsV2 ≥ n) && 0 < n) then (0, false)
  else if nativeOrUnset n then (0, true)
  else channelLoop channelMapping (n % 2 ^ 32).toNat 0

/-- A validator of an output configuration: the entries of the channel map that it reads, and
whether it returns `CAPI_EOK`. -/
def validateWith (bpsErr : PcmSample → Bool) (cfg : PcmOutputCfg) (channelMapping : ℕ → UInt8) :
    ℕ × Bool :=
  let header := outputHeader cfg channelMapping
  (header.1, header.2 && !bpsErr cfg.toPcmSample)

/-- `capi_cmn_validate_client_pcm_output_cfg`. -/
def validateClientPcmOutputCfg := validateWith outputBpsErr

/-- `capi_cmn_validate_client_pcm_float_output_cfg`. -/
def validateClientPcmFloatOutputCfg := validateWith floatBpsErr

/-! ## What should be accepted -/

/-- The fixed point formats. -/
def Legal (s : PcmSample) : Prop :=
  (s.bitWidth, s.bitsPerSample, s.qFactor) ∈
      [(16, 16, 15), (24, 24, 23), (24, 32, 27), (32, 32, 31)] ∨
    (s.bitWidth, s.bitsPerSample, s.qFactor, s.alignment) ∈ [(24, 32, 23, 1), (24, 32, 31, 2)]

/-- A sample without native or unset fields. -/
def Explicit (s : PcmSample) : Prop :=
  ∀ v ∈ [s.bitWidth, s.bitsPerSample, s.qFactor, s.alignment], nativeOrUnset v = false

/-- A validator of output configurations on a channel map of `n` channels. -/
def ChecksChannels (validate : PcmOutputCfg → (ℕ → UInt8) → ℕ × Bool) (n : Int32)
    (channelMapping : ℕ → UInt8) : Prop :=
  ∀ cfg : PcmOutputCfg, cfg.numChannels = n →
    (validate cfg channelMapping).1 ≤ capiMaxChannelsV2 ∧
      ((validate cfg channelMapping).2 = true → nativeOrUnset n.toInt ∨
        0 < n.toInt ∧ n.toInt ≤ capiMaxChannelsV2)

/-- What the validators should do with a sample and with a channel map. -/
structure Consistent (s : PcmSample) (n : Int32) (channelMapping : ℕ → UInt8) : Prop where
  media : ∀ fmt : PcmMediaFmt, fmt.toPcmSample = s →
    validateClientPcmMediaFormat fmt = true → Legal s
  output : Explicit s → ∀ (cfg : PcmOutputCfg) (map : ℕ → UInt8), cfg.toPcmSample = s →
    (validateClientPcmOutputCfg cfg map).2 = true → Legal s
  agree : Explicit s →
    ((∃ fmt : PcmMediaFmt, fmt.toPcmSample = s ∧ validateClientPcmMediaFormat fmt = true) ↔
      ∃ (cfg : PcmOutputCfg) (map : ℕ → UInt8), cfg.toPcmSample = s ∧
        (validateClientPcmOutputCfg cfg map).2 = true)
  fixed : ChecksChannels validateClientPcmOutputCfg n channelMapping
  float : ChecksChannels validateClientPcmFloatOutputCfg n channelMapping

/-- A sample of 16 or 32 bits with another Q factor. -/
def OddQ (s : PcmSample) : Prop :=
  (s.bitWidth = 16 ∧ s.qFactor ≠ 15) ∨ (s.bitWidth = 32 ∧ s.qFactor ≠ 31)

variable {s : PcmSample}

lemma bpsRelatedErr_eq_false : bpsRelatedErr s = false ↔ Legal s ∨ OddQ s := by
  unfold bpsRelatedErr Legal OddQ
  split_ifs <;> simp <;> grind

lemma Legal.not_oddQ (h : Legal s) : ¬OddQ s := by
  simp [Legal] at h
  unfold OddQ
  grind

/-- The fields that the checks of an output configuration allow. -/
def InRange (s : PcmSample) : Prop :=
  (s.bitsPerSample = 16 ∨ s.bitsPerSample = 24 ∨ s.bitsPerSample = 32) ∧
    (s.alignment = 1 ∨ s.alignment = 2) ∧
    (s.qFactor = 15 ∨ s.qFactor = 23 ∨ s.qFactor = 27 ∨ s.qFactor = 31)

lemma Legal.inRange (h : Legal s) (halign : s.alignment = 1 ∨ s.alignment = 2) : InRange s := by
  simp [Legal] at h
  unfold InRange
  grind

lemma outputBpsErr_eq_false (h : Explicit s) :
    outputBpsErr s = false ↔ bpsRelatedErr s = false ∧ InRange s := by
  have hbit : bpsRelatedErr s = false → unsupported [16, 24, 32] s.bitWidth = false := by
    unfold bpsRelatedErr
    split_ifs with h₁ h₂ _ _ h₃ <;> simp [unsupported, *]
  simp only [Explicit, List.forall_mem_cons] at h
  obtain ⟨h₁, h₂, h₃, h₄, -⟩ := h
  simp only [outputBpsErr, h₁, h₂, h₃, h₄, InRange, unsupported] at hbit ⊢
  grind

lemma exists_media : (∃ fmt : PcmMediaFmt, fmt.toPcmSample = s ∧
    validateClientPcmMediaFormat fmt = true) ↔ bpsRelatedErr s = false := by
  constructor
  · rintro ⟨fmt, rfl, h⟩
    simpa using (Bool.and_eq_true_iff.mp h).2
  · intro h
    refine ⟨⟨s, 48000, 1, 1⟩, rfl, ?_⟩
    rw [validateClientPcmMediaFormat, h]
    rfl

lemma exists_output {bpsErr : PcmSample → Bool} : (∃ (cfg : PcmOutputCfg) (map : ℕ → UInt8),
    cfg.toPcmSample = s ∧ (validateWith bpsErr cfg map).2 = true) ↔ bpsErr s = false := by
  constructor
  · rintro ⟨cfg, map, rfl, h⟩
    simpa using (Bool.and_eq_true_iff.mp h).2
  · intro h
    refine ⟨⟨s, 1, 1, -1⟩, fun _ => 1, rfl, ?_⟩
    rw [validateWith, h]
    rfl

/-! ## The channel map -/

variable {channelMapping : ℕ → UInt8} {left i j : ℕ}

variable (channelMapping) in
lemma channelLoop_bounds : i ≤ (channelLoop channelMapping left i).1 ∧
    (channelLoop channelMapping left i).1 ≤ i + left := by
  induction left generalizing i with
  | zero => exact ⟨le_rfl, le_rfl⟩
  | succ left ih =>
    have hrest := ih (i := i + 1)
    unfold channelLoop
    split
    · omega
    · exact ⟨Nat.le_succ i, by dsimp only; omega⟩

/-- The loop ends at an entry that is not a channel type. -/
lemma channelLoop_of_invalid (h : isChannelType (channelMapping j) = false) (hij : i ≤ j)
    (hj : j < i + left) : (channelLoop channelMapping left i).1 ≤ j + 1 ∧
      (channelLoop channelMapping left i).2 = false := by
  induction left generalizing i with
  | zero => omega
  | succ left ih =>
    unfold channelLoop
    split
    next hi =>
      have hne : i ≠ j := by
        rintro rfl
        simp [h] at hi
      exact ih (by omega) (by omega)
    next => exact ⟨Nat.succ_le_succ hij, rfl⟩

/-- The loop reads the entries up to the first that is not a channel type. -/
lemma lt_channelLoop (h : ∀ k < j, isChannelType (channelMapping k) = true) (hij : i ≤ j)
    (hj : j < i + left) : j < (channelLoop channelMapping left i).1 := by
  induction left generalizing i with
  | zero => omega
  | succ left ih =>
    obtain hlt | rfl := Nat.lt_or_eq_of_le hij
    · unfold channelLoop
      rw [if_pos (h i hlt)]
      exact ih hlt (by omega)
    · unfold channelLoop
      split
      · exact (channelLoop_bounds _).1
      · exact Nat.lt_succ_self i

variable {n : Int32}

variable (channelMapping) in
lemma checksChannels_iff {bpsErr : PcmSample → Bool} (hs : bpsErr s = false) :
    ChecksChannels (validateWith bpsErr) n channelMapping ↔ n.toInt ≠ 0 ∧
      (n.toInt < -2 → ∃ i < capiMaxChannelsV2, isChannelType (channelMapping i) = false) := by
  have hlow := Int32.le_toInt n
  have hneg : n.toInt < 0 → capiMaxChannelsV2 < (n.toInt % 2 ^ 32).toNat := by
    unfold capiMaxChannelsV2
    omega
  have hpos : 0 < n.toInt → (n.toInt % 2 ^ 32).toNat ≤ n.toInt.toNat := by omega
  constructor
  · intro h
    obtain ⟨hreads, haccept⟩ := h ⟨s, 1, 1, n⟩ rfl
    refine ⟨fun hzero => ?_, fun hlt => ?_⟩
    · rw [validateWith, hs, outputHeader, hzero] at haccept
      simp [unsupported, nativeOrUnset, channelLoop] at haccept
    · by_contra! hvalid
      have hread := lt_channelLoop (fun k hk => Bool.eq_true_of_not_eq_false (hvalid k hk))
        (Nat.zero_le _) ((hneg (by omega)).trans_eq (Nat.zero_add _).symm)
      have hhere : ¬nativeOrUnset n.toInt = true := by
        simp [nativeOrUnset]
        omega
      simp only [validateWith, outputHeader] at hreads
      rw [if_neg (by simp [unsupported]), if_neg (by simp; omega), if_neg hhere] at hreads
      exact absurd hreads hread.not_ge
  · rintro ⟨hzero, hbad⟩ cfg rfl
    simp only [validateWith, outputHeader]
    split_ifs with _ h₂ h₃
    · simp
    · simp
    · simp [h₃]
    · by_cases hlt : 0 < cfg.numChannels.toInt
      · have hle := (channelLoop_bounds channelMapping).2.trans
          ((Nat.zero_add _).trans_le (hpos hlt))
        simp [h₃, hlt] at h₂
        exact ⟨hle.trans (by omega), fun _ => .inr ⟨hlt, h₂⟩⟩
      · simp only [nativeOrUnset, Bool.or_eq_true, beq_iff_eq] at h₃
        obtain ⟨i, hi, hinvalid⟩ := hbad (by omega)
        obtain ⟨hle, hfail⟩ := channelLoop_of_invalid hinvalid (Nat.zero_le i)
          ((hi.trans (hneg (by omega))).trans_eq (Nat.zero_add _).symm)
        refine ⟨hle.trans hi, fun hok => ?_⟩
        rw [hfail] at hok
        cases hok

/-- **What the validators accept.**  The two validators of a sample agree, and accept only the
formats of the table, when a sample of 16 or 32 bits has no other Q factor and an explicit sample
that they accept has an alignment; and the channels are checked when there is not the number zero of
them and a negative number comes with an entry that is not a channel type. -/
theorem consistent_iff (s : PcmSample) (n : Int32) (channelMapping : ℕ → UInt8) :
    Consistent s n channelMapping ↔
      (¬OddQ s ∧ (Explicit s → Legal s → s.alignment = 1 ∨ s.alignment = 2)) ∧ n.toInt ≠ 0 ∧
        (n.toInt < -2 → ∃ i < capiMaxChannelsV2, isChannelType (channelMapping i) = false) := by
  have hfixed := checksChannels_iff (n := n) channelMapping
    (show outputBpsErr ⟨16, 16, 15, 1⟩ = false by decide)
  have hfloat := checksChannels_iff (n := n) channelMapping
    (show floatBpsErr ⟨32, 32, 0, 0⟩ = false by decide)
  constructor
  · intro h
    have hodd : ¬OddQ s := fun hodd => by
      obtain ⟨fmt, hfmt, hok⟩ := exists_media.mpr (bpsRelatedErr_eq_false.mpr (.inr hodd))
      exact (h.media fmt hfmt hok).not_oddQ hodd
    refine ⟨⟨hodd, fun hexp hlegal => ?_⟩, hfixed.mp h.fixed⟩
    have hagree := h.agree hexp
    rw [exists_media, validateClientPcmOutputCfg, exists_output, outputBpsErr_eq_false hexp]
      at hagree
    exact (hagree.mp (bpsRelatedErr_eq_false.mpr (.inl hlegal))).2.2.1
  · rintro ⟨⟨hodd, halign⟩, hch⟩
    have hlegal : bpsRelatedErr s = false → Legal s := fun h =>
      (bpsRelatedErr_eq_false.mp h).resolve_right hodd
    refine ⟨fun fmt hfmt hok => ?_, fun hexp cfg map hcfg hok => ?_, fun hexp => ?_,
      hfixed.mpr hch, hfloat.mpr hch⟩
    · exact hlegal (exists_media.mp ⟨fmt, hfmt, hok⟩)
    · have herr := exists_output.mp ⟨cfg, map, hcfg, hok⟩
      exact hlegal ((outputBpsErr_eq_false hexp).mp herr).1
    · rw [exists_media, validateClientPcmOutputCfg, exists_output, outputBpsErr_eq_false hexp]
      exact ⟨fun h => ⟨h, (hlegal h).inRange (halign hexp (hlegal h))⟩, And.left⟩

/-- Samples of 16 bits in three bytes, with 27 fractional bits. -/
theorem not_consistent : ¬Consistent ⟨16, 24, 27, 1⟩ 1 fun _ => 1 := fun h =>
  absurd (h.media ⟨⟨16, 24, 27, 1⟩, 48000, 1, 1⟩ rfl (by decide)) (by simp [Legal])

end AudioReach.ClientPcm
