import Mathlib.Data.List.Basic
import AudioReach.ArResult

/-!
# The interleaver

`spf_interleaver_island.c` turns PCM samples of several channels with a buffer each into one
buffer with a sample of each channel in turn, and back.  There is a loop nest for each width of a
sample, and a plain copy for a single channel.  The portable loops are modelled, not the
assembly routines of one processor.

The loops for 2, 4 and 8 bytes access the buffers through pointers to integers of that width; the
loops for 3 bytes move the bytes one by one.  Indices are `int` variables that are computed with
`uint32_t` operands.  A result `none` stands for an access in front of a buffer, at a negative
index.
-/

namespace AudioReach.Interleaver

open Function (update)

/-! ## Accesses -/

/-- The memory of a buffer from its data pointer on. -/
abbrev Bytes := ℕ → UInt8

/-- `capi_buf_t`. -/
structure CapiBuf where
  /-- What is at `data_ptr`. -/
  data : Bytes
  actualDataLen : UInt32

/-- The index that an `int` variable with these bits has, if it is not negative. -/
def index (k : UInt32) : Option ℕ := if k.toNat < 2 ^ 31 then some k.toNat else none

/-- An access through a pointer to integers of `w` bytes: the bytes of the integer `k`. -/
def load (w : ℕ) (m : Bytes) (k : ℕ) : Fin w → UInt8 := fun b => m (w * k + b)

/-- A store through a pointer to integers of `w` bytes. -/
def store (w : ℕ) [NeZero w] (m : Bytes) (k : ℕ) (v : Fin w → UInt8) : Bytes := fun x =>
  if x / w = k then v (Fin.ofNat w x) else m x

/-- `memscpy` of as many bytes as there is room for. -/
def memscpy (n : ℕ) (src dst : Bytes) : Bytes := fun x => if x < n then src x else dst x

/-! ## From channels to frames -/

/-- The loop over the samples of a channel from sample `i` on, of `w` bytes each: they are stored
at the indices `k`, `k + num_channels`, ... -/
def intlvSamples (w : ℕ) [NeZero w] (numChannels : UInt32) (src : Bytes) :
    ℕ → ℕ → UInt32 → Bytes → Option Bytes
  | 0, _, _, dst => some dst
  | left + 1, i, k, dst => (index k).bind fun e =>
      intlvSamples w numChannels src left (i + 1) (k + numChannels) (store w dst e (load w src i))

/-- The loop over the samples of channel `j` from sample `i` on, of three bytes each, which are
loaded from the index `temp` on. -/
def intlvSamples3 (bytesPerSamp numChannels : UInt32) (src : Bytes) (j : ℕ) :
    ℕ → ℕ → UInt32 → Bytes → Option Bytes
  | 0, _, _, dst => some dst
  | left + 1, i, temp, dst =>
    (index (bytesPerSamp * (UInt32.ofNat i * numChannels + UInt32.ofNat j))).bind fun k =>
    (index temp).bind fun t =>
      let byte1 := src (t + 0)
      let byte2 := src (t + 1)
      let byte3 := src (t + 2)
      let dst := update (update (update dst (k + 0) byte1) (k + 1) byte2) (k + 2) byte3
      intlvSamples3 bytesPerSamp numChannels src j left (i + 1) (temp + bytesPerSamp) dst

/-- The loop over the channels, with a loop over the samples of a channel. -/
def intlvChannels (samples : ℕ → Bytes → Option Bytes) (numChannels : UInt32) (dst : Bytes) :
    Option Bytes :=
  (List.range numChannels.toNat).foldlM (fun dst j => samples j dst) dst

/-- `spf_deintlv_to_intlv_v2`: the result and the output buffer. -/
def spfDeintlvToIntlvV2 (input : ℕ → Bytes) (output : CapiBuf)
    (numChannels bytesPerSamp numSampPerCh : UInt32) : Option (ArResult × CapiBuf) :=
  let len := numSampPerCh * numChannels * bytesPerSamp
  let n := numSampPerCh.toNat
  if numChannels = 1 then
    some (.eok, ⟨memscpy (numSampPerCh * bytesPerSamp).toNat (input 0) output.data, len⟩)
  else if bytesPerSamp = 2 then
    (intlvChannels (fun j => intlvSamples 2 numChannels (input j) n 0 (UInt32.ofNat j))
      numChannels output.data).map fun data => (.eok, ⟨data, len⟩)
  else if bytesPerSamp = 3 then
    (intlvChannels (fun j => intlvSamples3 bytesPerSamp numChannels (input j) j n 0 0)
      numChannels output.data).map fun data => (.eok, ⟨data, len⟩)
  else if bytesPerSamp = 4 then
    (intlvChannels (fun j => intlvSamples 4 numChannels (input j) n 0 (UInt32.ofNat j))
      numChannels output.data).map fun data => (.eok, ⟨data, len⟩)
  else if bytesPerSamp = 8 then
    (intlvChannels (fun j => intlvSamples 8 numChannels (input j) n 0 (UInt32.ofNat j))
      numChannels output.data).map fun data => (.eok, ⟨data, len⟩)
  else some (.eunsupported, { output with actualDataLen := 0 })

/-! ## From frames to channels -/

/-- The loop over the samples of a channel from sample `i` on, of `w` bytes each: they are loaded
from the indices `k`, `k + num_src_channels`, ... -/
def deintlvSamples (w : ℕ) [NeZero w] (numSrcChannels : UInt32) (src : Bytes) :
    ℕ → ℕ → UInt32 → Bytes → Option Bytes
  | 0, _, _, dst => some dst
  | left + 1, i, k, dst => (index k).bind fun e =>
      deintlvSamples w numSrcChannels src left (i + 1) (k + numSrcChannels)
        (store w dst i (load w src e))

/-- The loop over the samples of a channel from sample `i` on, of three bytes each, which are
loaded from the index `k` on. -/
def deintlvSamples3 (bytesPerSamp numSrcChannels : UInt32) (src : Bytes) :
    ℕ → ℕ → UInt32 → Bytes → Option Bytes
  | 0, _, _, dst => some dst
  | left + 1, i, k, dst =>
    (index (UInt32.ofNat i * bytesPerSamp)).bind fun temp =>
    (index k).bind fun k' =>
      let byte1 := src (k' + 0)
      let byte2 := src (k' + 1)
      let byte3 := src (k' + 2)
      let dst := update (update (update dst (temp + 0) byte1) (temp + 1) byte2) (temp + 2) byte3
      deintlvSamples3 bytesPerSamp numSrcChannels src left (i + 1)
        (k + bytesPerSamp * numSrcChannels) dst

/-- The loop over the channels, with a loop over the samples of a channel. -/
def deintlvChannels (samples : ℕ → Bytes → Option Bytes) (numDstChannels : UInt32)
    (output : ℕ → CapiBuf) : Option (ℕ → CapiBuf) :=
  (List.range numDstChannels.toNat).foldlM (fun output j =>
    (samples j (output j).data).map fun data => update output j { output j with data := data })
    output

/-- The lengths of the first `num` buffers are set. -/
def setLens (num len : UInt32) (output : ℕ → CapiBuf) : ℕ → CapiBuf := fun j =>
  if j < num.toNat then { output j with actualDataLen := len } else output j

/-- `spf_intlv_to_deintlv_util_`: the result and the output buffers. -/
def spfIntlvToDeintlvUtil (input : Bytes) (output : ℕ → CapiBuf)
    (numSrcChannels numDstChannels bytesPerSamp numSampPerCh : UInt32)
    (updatesOnlyFirstChLength : Bool) : Option (ArResult × (ℕ → CapiBuf)) :=
  let numBufsLensToUpdate := if updatesOnlyFirstChLength then 1 else numDstChannels
  let lens := setLens numBufsLensToUpdate (numSampPerCh * bytesPerSamp)
  let n := numSampPerCh.toNat
  if numDstChannels > numSrcChannels then some (.efailed, output)
  else if numSrcChannels = 1 then
    some (.eok, lens (update output 0 { output 0 with
      data := memscpy (numSampPerCh * bytesPerSamp).toNat input (output 0).data }))
  else if bytesPerSamp = 2 then
    (deintlvChannels (fun j => deintlvSamples 2 numSrcChannels input n 0 (UInt32.ofNat j))
      numDstChannels output).map fun output => (.eok, lens output)
  else if bytesPerSamp = 3 then
    (deintlvChannels (fun j => deintlvSamples3 bytesPerSamp numSrcChannels input n 0
      (bytesPerSamp * UInt32.ofNat j)) numDstChannels output).map fun output => (.eok, lens output)
  else if bytesPerSamp = 4 then
    (deintlvChannels (fun j => deintlvSamples 4 numSrcChannels input n 0 (UInt32.ofNat j))
      numDstChannels output).map fun output => (.eok, lens output)
  else if bytesPerSamp = 8 then
    (deintlvChannels (fun j => deintlvSamples 8 numSrcChannels input n 0 (UInt32.ofNat j))
      numDstChannels output).map fun output => (.eok, lens output)
  else some (.eunsupported, setLens numBufsLensToUpdate 0 output)

/-- `spf_intlv_to_deintlv_v3`. -/
def spfIntlvToDeintlvV3 (input : Bytes) (output : ℕ → CapiBuf)
    (numSrcChannels numDstChannels bytesPerSamp numSampPerCh : UInt32) :
    Option (ArResult × (ℕ → CapiBuf)) :=
  spfIntlvToDeintlvUtil input output numSrcChannels numDstChannels bytesPerSamp numSampPerCh false

/-- `spf_intlv_to_deintlv`: all channels of the whole input, for a word size in bits. -/
def spfIntlvToDeintlv (input : CapiBuf) (output : ℕ → CapiBuf) (numChannels wordSize : UInt32) :
    Option (ArResult × (ℕ → CapiBuf)) :=
  spfIntlvToDeintlvV3 input.data output numChannels numChannels (wordSize >>> 3)
    (input.actualDataLen / ((numChannels * wordSize) >>> 3))

end AudioReach.Interleaver
