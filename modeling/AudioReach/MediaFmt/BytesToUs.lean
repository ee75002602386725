import AudioReach.Library.Rounding

/-!
# From bytes to microseconds

`capi_cmn_bytes_to_us_optimized` turns a number of bytes into a time.  It computes in units of
1/1024 us and gives whole microseconds; the caller keeps the rest and hands it to the next call.
If the number of channels and the word size are powers of two and the sample rate is one of
sixteen, then it multiplies by a constant of the rate and shifts, and it divides otherwise.

A constant is the time of a sample in units of 2^-25 us, rounded up, which makes the product
exceed the quotient by less than one.  The constant of 11025 Hz is rounded down.
-/

namespace AudioReach.BytesToUs

open Library List

/-! ## The function -/

/-- `TIMESTAMP_NUM_FRACTIONAL_BITS`. -/
def timestampNumFractionalBits : UInt32 := 10

/-- `TIMESTAMP_FRACTIONAL_BIT_MASK`. -/
def timestampFractionalBitMask : UInt64 := 0x3FF

/-- `NUM_US_PER_SEC`. -/
def numUsPerSec : UInt32 := 1000000

/-- `sr_multipliers`: the sampling rates, each with 1 / (sampling rate) in us in Q25 format. -/
def srMultipliers : List (UInt32 × UInt32) :=
  [(48000, 699050667), (44100, 760871474), (8000, 4194304000), (11025, 3043485895),
    (12000, 2796202667), (16000, 2097152000), (22050, 1521742948), (24000, 1398101334),
    (32000, 1048576000), (88200, 380435737), (96000, 349525334), (144000, 233016889),
    (176400, 190217869), (192000, 174762667), (352800, 95108935), (384000, 87381334)]

/-- `CAPI_CMN_IS_POW_OF_2`. -/
def isPowOf2 (x : UInt32) : Bool := x &&& (x - 1) = 0

/-- The loop of `s32_get_lsb_s32`, which ends within 32 rounds unless all bits are zero. -/
def lsbLoop : ℕ → Int32 → UInt32 → UInt32
  | 0, _, num => num
  | fuel + 1, x, num => if x &&& 1 = 0 then lsbLoop fuel (x >>> 1) (num + 1) else num

/-- `s32_get_lsb_s32`. -/
def s32GetLsbS32 (x : UInt32) : UInt32 := lsbLoop 32 x.toInt32 0

/-- `time_pns` by the table. -/
def timePnsByTable (bytes numChannels : UInt32) (bitsPerSample : UInt8)
    (timePerSample : UInt32) : UInt64 :=
  let rightShifts := s32GetLsbS32 numChannels + (s32GetLsbS32 bitsPerSample.toUInt32 - 3) + 25
  (bytes.toUInt64 * timePerSample.toUInt64) >>>
    (rightShifts - timestampNumFractionalBits).toUInt64

/-- `time_pns` by a division. -/
def timePnsByDivision (bytes numChannels sampleRate : UInt32) (bitsPerSample : UInt8) : UInt64 :=
  let totalByteUsPerS := (bytes.toUInt64 * numUsPerSec.toUInt64) <<<
    timestampNumFractionalBits.toUInt64
  let bps := numChannels.toUInt64 * sampleRate.toUInt64 * (bitsPerSample >>> 3).toUInt64
  totalByteUsPerS / bps

/-- `time_pns`. -/
def timePns (bytes numChannels sampleRate : UInt32) (bitsPerSample : UInt8) : UInt64 :=
  let byDivision := timePnsByDivision bytes numChannels sampleRate bitsPerSample
  if isPowOf2 numChannels && isPowOf2 bitsPerSample.toUInt32 then
    match srMultipliers.lookup sampleRate with
    | some timePerSample => timePnsByTable bytes numChannels bitsPerSample timePerSample
    | none => byDivision
  else byDivision

/-- `capi_cmn_bytes_to_us_optimized`: the time in us, and what is at `fract_time_ptr`, if it is
not null. -/
def capiCmnBytesToUsOptimized (bytes numChannels sampleRate : UInt32) (bitsPerSample : UInt8)
    (fractTime : Option UInt64) : UInt64 × Option UInt64 :=
  let time := timePns bytes numChannels sampleRate bitsPerSample
  match fractTime with
  | none => (time >>> timestampNumFractionalBits.toUInt64, none)
  | some fract =>
    let time := time + fract
    (time >>> timestampNumFractionalBits.toUInt64, some (time &&& timestampFractionalBitMask))

/-! ## Formats with a fast path -/

/-- A format of PCM data with one of the sample rates of the table and with powers of two for the
number of channels and the word size. -/
structure Format where
  numChannels : UInt32
  sampleRate : UInt32
  bitsPerSample : UInt8
  channels_pow : ∃ k < 32, numChannels = UInt32.ofNat (2 ^ k)
  /-- The word size is a power of two and at least a byte. -/
  bits_pow : ∃ k < 5, bitsPerSample = UInt8.ofNat (2 ^ (k + 3))
  rate_mem : sampleRate ∈ srMultipliers.map Prod.fst

namespace Format

/-- The bytes of a sample of all channels. -/
def frameBytes (f : Format) : ℕ := f.numChannels.toNat * (f.bitsPerSample.toNat / 8)

/-- The constant of the sample rate. -/
def timePerSample (f : Format) : UInt32 := (srMultipliers.lookup f.sampleRate).getD 0

/-! ## The two branches as quotients -/

lemma total_toNat (bytes : UInt32) :
    ((bytes.toUInt64 * numUsPerSec.toUInt64) <<< timestampNumFractionalBits.toUInt64).toNat
      = bytes.toNat * 1000000 * 2 ^ 10 ∧ bytes.toNat * 1000000 * 2 ^ 10 < 2 ^ 64 := by
  have hbytes := bytes.toNat_lt
  have hlt : bytes.toNat * 1000000 * 2 ^ 10 < 2 ^ 64 := by omega
  refine ⟨?_, hlt⟩
  have hshift : timestampNumFractionalBits.toUInt64.toNat % 64 = 10 := by decide
  have hus : numUsPerSec.toUInt64.toNat = 1000000 := by decide
  rw [UInt64.toNat_shiftLeft, hshift, Nat.shiftLeft_eq, UInt64.toNat_mul, UInt32.toNat_toUInt64,
    hus, Nat.mod_mul_mod, Nat.mod_eq_of_lt hlt]

section

variable (f : Format)

lemma channels_log : ∃ k < 32, f.numChannels.toNat = 2 ^ k ∧
    s32GetLsbS32 f.numChannels = UInt32.ofNat k ∧ isPowOf2 f.numChannels = true := by
  have hall : ∀ k < 32, (UInt32.ofNat (2 ^ k)).toNat = 2 ^ k ∧
      s32GetLsbS32 (UInt32.ofNat (2 ^ k)) = UInt32.ofNat k ∧
      isPowOf2 (UInt32.ofNat (2 ^ k)) = true := by decide
  obtain ⟨k, hk, hch⟩ := f.channels_pow
  rw [hch]
  exact ⟨k, hk, hall k hk⟩

lemma bits_log : ∃ j < 5, f.bitsPerSample.toNat / 8 = 2 ^ j ∧
    (f.bitsPerSample >>> 3).toNat = 2 ^ j ∧
    s32GetLsbS32 f.bitsPerSample.toUInt32 = UInt32.ofNat (j + 3) ∧
    isPowOf2 f.bitsPerSample.toUInt32 = true := by
  have hall : ∀ j < 5, (UInt8.ofNat (2 ^ (j + 3))).toNat / 8 = 2 ^ j ∧
      (UInt8.ofNat (2 ^ (j + 3)) >>> 3).toNat = 2 ^ j ∧
      s32GetLsbS32 (UInt8.ofNat (2 ^ (j + 3))).toUInt32 = UInt32.ofNat (j + 3) ∧
      isPowOf2 (UInt8.ofNat (2 ^ (j + 3))).toUInt32 = true := by decide
  obtain ⟨j, hj, hbits⟩ := f.bits_pow
  rw [hbits]
  exact ⟨j, hj, hall j hj⟩

lemma shift_eq :
    2 ^ ((s32GetLsbS32 f.numChannels + (s32GetLsbS32 f.bitsPerSample.toUInt32 - 3) + 25 -
      timestampNumFractionalBits).toUInt64.toNat % 64) = 2 ^ 15 * f.frameBytes := by
  have hall : ∀ k < 32, ∀ j < 5, (UInt32.ofNat k + (UInt32.ofNat (j + 3) - 3) + 25 -
      timestampNumFractionalBits).toUInt64.toNat % 64 = 15 + (k + j) := by decide
  obtain ⟨k, hk, hch, hlsb, -⟩ := f.channels_log
  obtain ⟨j, hj, hbits, -, hlsb', -⟩ := f.bits_log
  rw [hlsb, hlsb', hall k hk j hj, frameBytes, hch, hbits, ← Nat.pow_add, ← Nat.pow_add]

lemma frameBytes_pos : 0 < f.frameBytes := by
  obtain ⟨k, -, hch, -⟩ := f.channels_log
  obtain ⟨j, -, hbits, -⟩ := f.bits_log
  rw [frameBytes, hch, hbits]
  exact Nat.mul_pos (Nat.two_pow_pos k) (Nat.two_pow_pos j)

lemma frameBytes_lt : f.frameBytes < 2 ^ 36 := by
  obtain ⟨k, hk, hch, -⟩ := f.channels_log
  obtain ⟨j, hj, hbits, -⟩ := f.bits_log
  rw [frameBytes, hch, hbits, ← Nat.pow_add]
  exact Nat.pow_lt_pow_right (by decide) (by omega)

/-- The rows of the table, one by one. -/
lemma srMultipliers_all {P : UInt32 × UInt32 → Prop} [DecidablePred P]
    (h : srMultipliers.all fun p => P p) : ∀ p ∈ srMultipliers, P p :=
  fun p hp => of_decide_eq_true (all_eq_true.mp h p hp)

lemma lookup_eq : srMultipliers.lookup f.sampleRate = some f.timePerSample := by
  obtain ⟨p, hp, hrate⟩ := mem_map.mp f.rate_mem
  have hall : ∀ p ∈ srMultipliers, (srMultipliers.lookup p.1).isSome = true :=
    srMultipliers_all (by decide)
  obtain ⟨c, hc⟩ := Option.isSome_iff_exists.mp (hall p hp)
  rw [timePerSample, ← hrate, hc]
  rfl

lemma timePns_eq (bytes : UInt32) : timePns bytes f.numChannels f.sampleRate f.bitsPerSample
      = timePnsByTable bytes f.numChannels f.bitsPerSample f.timePerSample := by
  obtain ⟨-, -, -, -, hch⟩ := f.channels_log
  obtain ⟨-, -, -, -, -, hbits⟩ := f.bits_log
  rw [timePns, hch, hbits, f.lookup_eq]
  rfl

lemma product_lt (bytes : UInt32) : bytes.toNat * f.timePerSample.toNat < 2 ^ 64 := by
  calc bytes.toNat * f.timePerSample.toNat < 2 ^ 32 * 2 ^ 32 :=
        Nat.mul_lt_mul'' bytes.toNat_lt f.timePerSample.toNat_lt
    _ = 2 ^ 64 := by norm_num

lemma timePnsByTable_toNat (bytes : UInt32) :
    (timePnsByTable bytes f.numChannels f.bitsPerSample f.timePerSample).toNat
      = bytes.toNat * f.timePerSample.toNat / (2 ^ 15 * f.frameBytes) := by
  rw [timePnsByTable, UInt64.toNat_shiftRight, Nat.shiftRight_eq_div_pow, f.shift_eq,
    UInt64.toNat_mul, UInt32.toNat_toUInt64, UInt32.toNat_toUInt64,
    Nat.mod_eq_of_lt (f.product_lt bytes)]

lemma rates : 0 < f.sampleRate.toNat ∧ f.sampleRate.toNat < 2 ^ 19 ∧ (f.sampleRate = 11025 →
      f.timePerSample.toNat * f.sampleRate.toNat + 7625 = 2 ^ 25 * 1000000) ∧
    (f.sampleRate ≠ 11025 → ∃ d < f.sampleRate.toNat,
      f.timePerSample.toNat * f.sampleRate.toNat = 2 ^ 25 * 1000000 + d) := by
  have hall : ∀ p ∈ srMultipliers, srMultipliers.lookup p.1 = some p.2 ∧ 0 < p.1.toNat ∧
      p.1.toNat < 2 ^ 19 ∧ (p.1 = 11025 → p.2.toNat * p.1.toNat + 7625 = 2 ^ 25 * 1000000) ∧
      (p.1 ≠ 11025 → 2 ^ 25 * 1000000 ≤ p.2.toNat * p.1.toNat ∧
        p.2.toNat * p.1.toNat - 2 ^ 25 * 1000000 < p.1.toNat) := srMultipliers_all (by decide)
  obtain ⟨p, hp, hrate⟩ := mem_map.mp f.rate_mem
  obtain ⟨hlookup, hpos, hlt, hdown, hup⟩ := hall p hp
  have htime : f.timePerSample = p.2 := by
    rw [timePerSample, ← hrate, hlookup]
    rfl
  rw [htime, ← hrate]
  refine ⟨hpos, hlt, hdown, fun hne => ⟨_, (hup hne).2, ?_⟩⟩
  have hle := (hup hne).1
  omega

lemma bps_toNat :
    (f.numChannels.toUInt64 * f.sampleRate.toUInt64 * (f.bitsPerSample >>> 3).toUInt64).toNat
      = f.sampleRate.toNat * f.frameBytes ∧ f.sampleRate.toNat * f.frameBytes < 2 ^ 64 := by
  obtain ⟨-, hlt, -⟩ := f.rates
  have hbps : f.sampleRate.toNat * f.frameBytes < 2 ^ 64 := by
    calc f.sampleRate.toNat * f.frameBytes < 2 ^ 19 * 2 ^ 36 :=
          Nat.mul_lt_mul'' hlt f.frameBytes_lt
      _ < 2 ^ 64 := by norm_num
  obtain ⟨j, -, hbits, hshift, -⟩ := f.bits_log
  have heq : f.numChannels.toNat * f.sampleRate.toNat * 2 ^ j
      = f.sampleRate.toNat * f.frameBytes := by
    rw [frameBytes, hbits]
    ring
  refine ⟨?_, hbps⟩
  rw [UInt64.toNat_mul, UInt64.toNat_mul, UInt32.toNat_toUInt64, UInt32.toNat_toUInt64,
    UInt8.toNat_toUInt64, hshift, Nat.mod_mul_mod, heq, Nat.mod_eq_of_lt hbps]

lemma timePnsByDivision_toNat (bytes : UInt32) :
    (timePnsByDivision bytes f.numChannels f.sampleRate f.bitsPerSample).toNat
      = bytes.toNat * 1000000 * 2 ^ 10 / (f.sampleRate.toNat * f.frameBytes) := by
  rw [timePnsByDivision, UInt64.toNat_div, (total_toNat bytes).1, f.bps_toNat.1]

end

end Format

/-! ## Calls one after another -/

/-- A number of bytes for less than 2^15 samples. -/
structure Bytes (f : Format) where
  /-- `bytes`. -/
  val : UInt32
  lt : val.toNat < 2 ^ 15 * f.frameBytes

/-- A fraction of a microsecond in units of 1/1024 us. -/
structure Fract where
  /-- What is at `fract_time_ptr`. -/
  val : UInt64
  lt : val.toNat < 1024

variable {f : Format}

/-- The time of a call. -/
def Bytes.time (b : Bytes f) : UInt64 :=
  timePns b.val f.numChannels f.sampleRate f.bitsPerSample

/-- The exact time of a number of bytes, in units of 1/1024 us. -/
def Format.exactTime (f : Format) (bytes : ℕ) : ℚ :=
  (bytes * 1000000 * 2 ^ 10 : ℕ) / (f.sampleRate.toNat * f.frameBytes : ℕ)

/-- The calls one after another: the time that each returns and the fraction it leaves. -/
def calls : List (Bytes f) → UInt64 → List (UInt64 × UInt64)
  | [], _ => []
  | b :: bs, fract =>
    let r := capiCmnBytesToUsOptimized b.val f.numChannels f.sampleRate f.bitsPerSample (some fract)
    (r.1, r.2.getD 0) :: calls bs (r.2.getD 0)

/-- The fraction that the last call leaves. -/
def lastFract (bs : List (Bytes f)) (fract : UInt64) : ℕ :=
  (((calls bs fract).map (·.2)).getLast?.getD fract).toNat

/-- No intermediate result is cut to 64 bits. -/
structure NoOverflow (b : Bytes f) (fract : Fract) : Prop where
  product : b.val.toNat * f.timePerSample.toNat < 2 ^ 64
  total : b.val.toNat * 1000000 * 2 ^ 10 < 2 ^ 64
  bps : f.sampleRate.toNat * f.frameBytes < 2 ^ 64
  sum : b.time.toNat + fract.val.toNat < 2 ^ 64

/-- The time of the calls is right. -/
structure TimeRight (bs : List (Bytes f)) (fract : Fract) : Prop where
  /-- The table gives what the division gives, or one more. -/
  fast : ∀ b ∈ bs, timePnsByTable b.val f.numChannels f.bitsPerSample f.timePerSample
        = timePnsByDivision b.val f.numChannels f.sampleRate f.bitsPerSample ∨
      timePnsByTable b.val f.numChannels f.bitsPerSample f.timePerSample
        = timePnsByDivision b.val f.numChannels f.sampleRate f.bitsPerSample + 1
  /-- The time that is returned and kept does not drift. -/
  drift : |((1024 * ((calls bs fract.val).map (·.1.toNat)).sum + lastFract bs fract.val : ℕ) : ℚ)
      - (fract.val.toNat : ℚ) - f.exactTime (bs.map (·.val.toNat)).sum| ≤ bs.length
  fracts : ∀ r ∈ calls bs fract.val, r.2.toNat < 1024
  /-- Nothing overflows, whatever fraction is carried. -/
  noOverflow : ∀ b ∈ bs, ∀ fract, NoOverflow b fract

/-- The rest of the division makes up for a constant that is rounded down. -/
def Covered (b : Bytes f) : Prop :=
  7625 * b.val.toNat ≤
    2 ^ 15 * (b.val.toNat * 1000000 * 2 ^ 10 % (f.sampleRate.toNat * f.frameBytes))

namespace Bytes

variable (b : Bytes f)

lemma time_eq : b.time.toNat = b.val.toNat * f.timePerSample.toNat / (2 ^ 15 * f.frameBytes) := by
  rw [time, f.timePns_eq, f.timePnsByTable_toNat]

lemma time_lt : b.time.toNat < 2 ^ 32 := by
  rw [b.time_eq, Nat.div_lt_iff_lt_mul (Nat.mul_pos (by decide) f.frameBytes_pos)]
  have htime := f.timePerSample.toNat_lt
  calc b.val.toNat * f.timePerSample.toNat
      ≤ b.val.toNat * 2 ^ 32 := Nat.mul_le_mul_left _ htime.le
    _ < 2 ^ 32 * (2 ^ 15 * f.frameBytes) := by
        rw [Nat.mul_comm]
        exact Nat.mul_lt_mul_of_pos_left b.lt (by decide)

/-- **One call.** The time by the table is the exact one rounded down, or one more, if and only if
the constant is rounded up or the rest of the division makes up for it. -/
lemma near_iff : Near (b.val.toNat * 1000000 * 2 ^ 10) (f.sampleRate.toNat * f.frameBytes)
    b.time.toNat ↔ (f.sampleRate = 11025 → Covered b) := by
  obtain ⟨hpos, -, hdown, hup⟩ := f.rates
  have hframe := f.frameBytes_pos
  have hlt := b.lt
  -- everything over the common divisor
  have htime : b.time.toNat = b.val.toNat * (f.timePerSample.toNat * f.sampleRate.toNat)
      / (f.sampleRate.toNat * f.frameBytes * 2 ^ 15) := by
    rw [b.time_eq, ← Nat.mul_div_mul_right _ _ hpos]
    congr 1 <;> ring
  have hdvd : 0 < f.sampleRate.toNat * f.frameBytes * 2 ^ 15 :=
    Nat.mul_pos (Nat.mul_pos hpos hframe) (by decide)
  rw [← near_mul_right (show 0 < 2 ^ 15 by decide), htime]
  by_cases hrate : f.sampleRate = 11025
  · have hconst := hdown hrate
    have hprod : b.val.toNat * (f.timePerSample.toNat * f.sampleRate.toNat)
        = b.val.toNat * 1000000 * 2 ^ 10 * 2 ^ 15 - 7625 * b.val.toNat := by
      have hscaled : b.val.toNat * (f.timePerSample.toNat * f.sampleRate.toNat + 7625)
          = b.val.toNat * (2 ^ 25 * 1000000) := by rw [hconst]
      rw [Nat.mul_add] at hscaled
      omega
    rw [hprod, near_sub_iff hdvd (by omega), Nat.mul_mod_mul_right, Covered,
      Nat.mul_comm (_ % _) (2 ^ 15)]
    exact ⟨fun h _ => h, fun h => h hrate⟩
  · obtain ⟨d, hd, hconst⟩ := hup hrate
    have hprod : b.val.toNat * (f.timePerSample.toNat * f.sampleRate.toNat)
        = b.val.toNat * 1000000 * 2 ^ 10 * 2 ^ 15 + b.val.toNat * d := by
      rw [hconst]
      ring
    have hsmall : b.val.toNat * d < f.sampleRate.toNat * f.frameBytes * 2 ^ 15 := by
      calc b.val.toNat * d < 2 ^ 15 * f.frameBytes * f.sampleRate.toNat :=
            Nat.mul_lt_mul'' hlt hd
        _ = f.sampleRate.toNat * f.frameBytes * 2 ^ 15 := by ring
    rw [hprod]
    exact iff_of_true (near_add hsmall) fun h => absurd h hrate

lemma fast_iff : (timePnsByTable b.val f.numChannels f.bitsPerSample f.timePerSample
        = timePnsByDivision b.val f.numChannels f.sampleRate f.bitsPerSample ∨
      timePnsByTable b.val f.numChannels f.bitsPerSample f.timePerSample
        = timePnsByDivision b.val f.numChannels f.sampleRate f.bitsPerSample + 1) ↔
      (f.sampleRate = 11025 → Covered b) := by
  have htotal := (Format.total_toNat b.val).2
  have hquot : b.val.toNat * 1000000 * 2 ^ 10 / (f.sampleRate.toNat * f.frameBytes)
      ≤ b.val.toNat * 1000000 * 2 ^ 10 := Nat.div_le_self _ _
  rw [← b.near_iff, ← UInt64.toNat_inj, ← UInt64.toNat_inj, UInt64.toNat_add, UInt64.toNat_one,
    f.timePnsByDivision_toNat, Nat.mod_eq_of_lt (by omega), Near, time, f.timePns_eq]

end Bytes

lemma call_eq (b : Bytes f) {fract : UInt64} (hfract : fract.toNat < 1024) :
    ∃ us rest, capiCmnBytesToUsOptimized b.val f.numChannels f.sampleRate f.bitsPerSample
        (some fract) = (us, some rest) ∧
      us.toNat = (b.time.toNat + fract.toNat) / 1024 ∧
      rest.toNat = (b.time.toNat + fract.toNat) % 1024 := by
  refine ⟨_, _, rfl, ?_, ?_⟩
  all_goals
    have hsum : (b.time + fract).toNat = b.time.toNat + fract.toNat := by
      have htime := b.time_lt
      rw [UInt64.toNat_add, Nat.mod_eq_of_lt (by omega)]
  · have hshift : timestampNumFractionalBits.toUInt64.toNat % 64 = 10 := by decide
    rw [UInt64.toNat_shiftRight, hshift, Nat.shiftRight_eq_div_pow]
    exact congrArg (· / 2 ^ 10) hsum
  · have hmask : timestampFractionalBitMask.toNat = 2 ^ 10 - 1 := by decide
    rw [UInt64.toNat_and, hmask, Nat.and_two_pow_sub_one_eq_mod]
    exact congrArg (· % 2 ^ 10) hsum

section

variable {fract : UInt64} (bs : List (Bytes f)) (hfract : fract.toNat < 1024)
include hfract

/-- **The calls carry.** What the calls return and leave is what is given out in units of 1024 and
carried over. -/
lemma calls_eq_carry :
    (calls bs fract).map (fun r => (r.1.toNat, r.2.toNat))
      = carry 1024 (bs.map (·.time.toNat)) fract.toNat := by
  induction bs generalizing fract with
  | nil => rfl
  | cons b bs ih =>
    obtain ⟨us, rest, hcall, hus, hrest⟩ := call_eq b hfract
    have hlt : rest.toNat < 1024 := by
      rw [hrest]
      exact Nat.mod_lt _ (by decide)
    rw [calls, hcall, map_cons, map_cons, carry, ← hus, ← hrest, ← ih hlt]
    rfl

lemma calls_sum :
    1024 * ((calls bs fract).map (·.1.toNat)).sum + lastFract bs fract
      = (bs.map (·.time.toNat)).sum + fract.toNat := by
  have hcarry := calls_eq_carry bs hfract
  have hfst : ((carry 1024 (bs.map (·.time.toNat)) fract.toNat).map Prod.fst)
      = (calls bs fract).map (·.1.toNat) := by
    rw [← hcarry, map_map]
    rfl
  have hlast : lastCarry fract.toNat (carry 1024 (bs.map (·.time.toNat)) fract.toNat)
      = lastFract bs fract := by
    rw [← hcarry, lastCarry, lastFract, getLast?_map, getLast?_map]
    cases (calls bs fract).getLast? <;> rfl
  rw [← hfst, ← hlast]
  exact carry_sum 1024 _ _

end

lemma exactTime_sum (f : Format) (l : List ℕ) : (l.map f.exactTime).sum = f.exactTime l.sum := by
  induction l with
  | nil => simp [Format.exactTime]
  | cons n l ih =>
    rw [map_cons, sum_cons, sum_cons, ih]
    unfold Format.exactTime
    push_cast
    ring

/-- **Exactly when the time is right.** For every format of the table, any calls and any
fraction, the time is right if and only if, at 11025 Hz, each division has a rest that makes up
for the constant. -/
theorem capiCmnBytesToUs_right_iff (bs : List (Bytes f)) (fract : Fract) :
    TimeRight bs fract ↔ (f.sampleRate = 11025 → ∀ b ∈ bs, Covered b) := by
  constructor
  · exact fun h hrate b hb => b.fast_iff.mp (h.fast b hb) hrate
  · intro h
    have hnear : ∀ b ∈ bs, Near (b.val.toNat * 1000000 * 2 ^ 10)
        (f.sampleRate.toNat * f.frameBytes) b.time.toNat := fun b hb =>
      b.near_iff.mpr fun hrate => h hrate b hb
    have hcarry := calls_eq_carry bs fract.lt
    refine ⟨fun b hb => b.fast_iff.mpr fun hrate => h hrate b hb, ?_, ?_, ?_⟩
    · have hsum := calls_sum bs fract.lt
      have herr := abs_sum_sub_le bs (·.time.toNat) (fun b => f.exactTime b.val.toNat)
        fun b hb => (hnear b hb).abs_sub_le (Nat.mul_pos f.rates.1 f.frameBytes_pos)
      have hexact : (bs.map fun b => f.exactTime b.val.toNat).sum
          = f.exactTime (bs.map (·.val.toNat)).sum := by
        rw [← exactTime_sum, map_map]
        rfl
      rw [hexact] at herr
      rw [hsum, Nat.cast_add, add_sub_cancel_right]
      exact herr
    · intro r hr
      have hmem : (r.1.toNat, r.2.toNat) ∈ carry 1024 (bs.map (·.time.toNat)) fract.val.toNat := by
        rw [← hcarry]
        exact mem_map_of_mem hr
      exact carry_lt (by decide) _ _ _ hmem
    · intro b _ fract
      have htime := b.time_lt
      have hfract := fract.lt
      exact ⟨f.product_lt b.val, (Format.total_toNat b.val).2, f.bps_toNat.2, by omega⟩

/-- A format at 11025 Hz. -/
def eightBitMono : Format where
  numChannels := 1
  sampleRate := 11025
  bitsPerSample := 8
  channels_pow := ⟨0, by decide, by decide⟩
  bits_pow := ⟨0, by decide, by decide⟩
  rate_mem := by decide

/-- **The claim fails.** At 11025 Hz the table gives one less than the division for 226 bytes. -/
theorem not_capiCmnBytesToUs_right :
    ¬ ∀ (f : Format) (bs : List (Bytes f)) (fract : Fract), TimeRight bs fract := by
  intro h
  have hfast := (h eightBitMono [⟨226, by decide⟩] ⟨0, by decide⟩).fast _
    (mem_singleton_self _)
  revert hfast
  decide

end AudioReach.BytesToUs
