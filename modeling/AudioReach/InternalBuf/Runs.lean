import AudioReach.Library.Runs
import AudioReach.InternalBuf.Calls

/-!
# Runs of an internal buffer

A run is a list of calls.  Beside the state of the code it keeps, for each channel, the bytes that
were written or filled in since the last reallocation and those that were read since then.  A
flush gives up the bytes that were not read.

The media format is replaced before the buffer of the old format is freed, the data may fail to be
allocated after the pointer array was, sizes and units are computed in 32 bits, and bytes are
copied without a look at the pointers.  `Fits` names, for each call, the arguments for which none
of this shows; runs of such calls keep the buffer consistent and deliver each channel unchanged.
-/

namespace AudioReach

open Library Option

/-- A call on an internal buffer, with the answers of the heap. -/
inductive InternalBufCall
  | setMediaFmt (fmt : CapiMediaFmt) (env : InternalBufEnv)
  | setFrameSizeUs (frameSizeUs : UInt32) (env : InternalBufEnv)
  | setFrameSizeSamples (frameSizeSamplesPerCh : UInt32) (env : InternalBufEnv)
  | create (heapId : UInt32) (env : InternalBufEnv)
  | destroy
  | write (src : List CapiBuf) (srcOffset : UInt32)
  | read (dst : List CapiBuf)
  | zeroFill (zeroBytesPerCh : UInt32)
  | flush

/-- An internal buffer and what went through it. -/
structure InternalBufRun where
  s : InternalBuf
  /-- The bytes written or filled in, for each channel. -/
  written : ℕ → List UInt8
  readOut : ℕ → List UInt8

namespace InternalBuf

variable {abi : Abi} {s s' : InternalBuf}

/-! ## Settings -/

/-- The two states have the same buffer. -/
structure SameBuffer (s s' : InternalBuf) : Prop where
  dataPtrs : s'.dataPtrs = s.dataPtrs
  dataSize : s'.dataSize = s.dataSize
  data : s'.data = s.data
  actual : s'.actualDataLenPerCh = s.actualDataLenPerCh
  max : s'.maxDataLenPerCh = s.maxDataLenPerCh
  offset : s'.dataOffsetBytesPerCh = s.dataOffsetBytesPerCh

lemma SameBuffer.bufferExists (h : SameBuffer s s') : s'.bufferExists = s.bufferExists := by
  rw [InternalBuf.bufferExists, h.dataPtrs, InternalBuf.bufferExists]

lemma SameBuffer.unread (h : SameBuffer s s') (ch : ℕ) : s'.unread ch = s.unread ch := by
  rw [InternalBuf.unread, InternalBuf.unread, h.bufferExists, h.data, h.actual, h.max, h.offset]

lemma Shaped.congr (h : s.Shaped) (hsame : SameBuffer s s')
    (hnum : s.bufferExists = true → s'.numCh = s.numCh) : s'.Shaped := by
  have hsome : ∀ ptrs, s'.dataPtrs = some ptrs → s.dataPtrs = some ptrs ∧ s'.numCh = s.numCh := by
    intro ptrs hptrs
    rw [hsame.dataPtrs] at hptrs
    exact ⟨hptrs, hnum (by rw [InternalBuf.bufferExists, hptrs]; rfl)⟩
  refine ⟨fun ptrs hptrs => ?_, fun ptrs hptrs ch hch => ?_, fun hexists => ?_,
    fun hexists => ?_, ?_, ?_⟩
  · obtain ⟨hold, hsize⟩ := hsome ptrs hptrs
    rw [hsize]
    exact h.length ptrs hold
  · obtain ⟨hold, hsize⟩ := hsome ptrs hptrs
    rw [hsize] at hch
    rw [hsame.max]
    exact h.ptrAt ptrs hold ch hch
  · rw [hsame.bufferExists] at hexists
    rw [hsame.dataSize, hsame.max, hnum hexists]
    exact h.dataSize hexists
  · rw [hsame.bufferExists] at hexists
    rw [hnum hexists]
    exact h.numCh_pos hexists
  · rw [hsame.offset, hsame.actual]
    exact h.offset_le
  · rw [hsame.actual, hsame.max]
    exact h.actual_le

/-- The setting that takes `old` to `s` can be applied: the units convert, and a buffer can be
replaced, or is kept with its channels. -/
def SettingFits (abi : Abi) (old s : InternalBuf) (env : InternalBufEnv) : Prop :=
  s.Converts ∧ (old.bufferExists = true → CreateFits abi s.converted env ∧
    if s.converted.totalSize = 0 then s.numCh = old.numCh else s.numCh ≤ old.numCh)

instance (abi : Abi) (old s : InternalBuf) (env : InternalBufEnv) :
    Decidable (SettingFits abi old s env) :=
  inferInstanceAs (Decidable (_ ∧ (_ → _ ∧ _)))

/-- Did a call that may create a buffer leave the old one alone? -/
def keepsBuffer (result : Option CapiErr) : Bool :=
  decide (result = none ∨ result = some .efailed)

/-- The outcome of a call that may create a buffer. -/
structure Settled (old : InternalBuf) (result : Option CapiErr) (s' : InternalBuf) : Prop where
  consistent : s'.Consistent
  kept : keepsBuffer result = true →
    SameBuffer old s' ∧ (old.bufferExists = true → s'.numCh = old.numCh)
  empty : keepsBuffer result = false → ∀ ch, s'.unread ch = []

section

variable {old : InternalBuf} {env : InternalBufEnv} (h : old.Shaped) (hsame : SameBuffer old s)
include h hsame

/-- The creation of a buffer, in a state with a new setting. -/
lemma settled_create (hduration : s.SameDuration) (hfits : CreateFits abi s env)
    (hnum : old.bufferExists = true →
      if s.totalSize = 0 then s.numCh = old.numCh else s.numCh ≤ old.numCh)
    (heapId : UInt32) :
    ∃ e s', s.create abi heapId env = some (e, s') ∧ Settled old (some e) s' := by
  have hroom : s.totalSize ≠ 0 → ∀ ptrs, s.dataPtrs = some ptrs →
      0 < ptrs.length ∧ s.numCh ≤ ptrs.length := by
    intro hsize ptrs hptrs
    rw [hsame.dataPtrs] at hptrs
    have hexists : old.bufferExists = true := by
      rw [bufferExists, hptrs]
      rfl
    have hle := hnum hexists
    rw [if_neg hsize] at hle
    rw [h.length ptrs hptrs]
    exact ⟨h.numCh_pos hexists, hle⟩
  have hoffset : s.dataOffsetBytesPerCh.toNat ≤ s.actualDataLenPerCh.toNat := by
    rw [hsame.offset, hsame.actual]
    exact h.offset_le
  have hactual : s.actualDataLenPerCh.toNat ≤ s.maxDataLenPerCh.toNat := by
    rw [hsame.actual, hsame.max]
    exact h.actual_le
  rcases create_eq hfits hroom hoffset hactual heapId with ⟨hsize, hcall⟩ | ⟨e, s', hcall, he, hnew⟩
  · have hnum' : old.bufferExists = true → s.numCh = old.numCh := by
      intro hexists
      have := hnum hexists
      rwa [if_pos hsize] at this
    have hsame' : SameBuffer old { s with heapId := heapId } :=
      ⟨hsame.1, hsame.2, hsame.3, hsame.4, hsame.5, hsame.6⟩
    exact ⟨.efailed, _, hcall, ⟨h.congr hsame' hnum', hduration⟩, fun _ => ⟨hsame', hnum'⟩,
      fun hkeeps => by simp [keepsBuffer] at hkeeps⟩
  · refine ⟨e, s', hcall, ⟨hnew.toShaped, hduration.congr hnew.settings⟩, fun hkeeps => ?_,
      fun _ => hnew.unread⟩
    simp [keepsBuffer, he] at hkeeps

/-- **Settings.** -/
lemma applySetting_eq (hfits : SettingFits abi old s env) :
    ∃ result s', s.applySetting abi env = some (result, s') ∧ Settled old result s' := by
  obtain ⟨hconv, hbuffer⟩ := hfits
  obtain ⟨us, samples, hconverted⟩ := converted_eq s
  have hduration := sameDuration_converted hconv
  have hnum : s.converted.numCh = s.numCh := by rw [hconverted]; rfl
  have hsame' : SameBuffer old s.converted := by
    rw [hconverted]
    exact ⟨hsame.1, hsame.2, hsame.3, hsame.4, hsame.5, hsame.6⟩
  rw [applySetting, checkUpdateFrameSizeUnits_eq hconv, bind_some, recreate, hsame'.bufferExists]
  cases hexists : old.bufferExists with
  | true =>
    obtain ⟨hcreate, hchannels⟩ := hbuffer hexists
    obtain ⟨e, s', hcall, hsettled⟩ := settled_create h hsame' hduration hcreate
      (fun _ => by rwa [hnum]) s.converted.heapId
    exact ⟨some e, s', by rw [if_pos rfl, hcall, map_some], hsettled⟩
  | false =>
    have hno : ∀ {P : Prop}, old.bufferExists = true → P := by
      intro P htrue
      rw [hexists] at htrue
      contradiction
    exact ⟨none, s.converted, if_neg (by simp), ⟨h.congr hsame' hno, hduration⟩,
      fun _ => ⟨hsame', hno⟩, fun hkeeps => by simp [keepsBuffer] at hkeeps⟩

end

lemma settled_self (h : s.Consistent) : Settled s none s :=
  ⟨h, fun _ => ⟨⟨rfl, rfl, rfl, rfl, rfl, rfl⟩, fun _ => rfl⟩,
    fun hkeeps => by simp [keepsBuffer] at hkeeps⟩

/-- Does the call return, without an access outside the memory? -/
def answers (abi : Abi) (s : InternalBuf) : InternalBufCall → Bool
  | .setMediaFmt fmt env => (s.setMediaFmt abi fmt env).isSome
  | .setFrameSizeUs frameSizeUs env => (s.setFrameSizeUs abi frameSizeUs env).isSome
  | .setFrameSizeSamples samples env => (s.setFrameSizeSamples abi samples env).isSome
  | .create heapId env => (s.create abi heapId env).isSome
  | .destroy => s.destroy.isSome
  | .write src srcOffset => (s.write src srcOffset).isSome
  | .read dst => (s.read dst).isSome
  | .zeroFill zeroBytesPerCh => (s.zeroFill zeroBytesPerCh).isSome
  | .flush => true

/-- The arguments for which the code does what it is for: a setter finds its setting as it is, or
can apply it; a buffer can be created; the streams fit. -/
def Fits (abi : Abi) (s : InternalBuf) : InternalBufCall → Prop
  | .setMediaFmt fmt env => s.mediaFmt = fmt ∨
      SettingFits abi s { s with mediaFmt := fmt, isMediaFmtReceived := true } env
  | .setFrameSizeUs frameSizeUs env => frameSizeUs = s.frameSizeUs ∨
      SettingFits abi s { s with
        frameSizeUs := frameSizeUs, frameSizeReceived := true, frameSizeInTime := true } env
  | .setFrameSizeSamples samples env => samples = s.frameSizeSamplesPerCh ∨
      SettingFits abi s { s with
        frameSizeSamplesPerCh := samples, frameSizeReceived := true, frameSizeInTime := false } env
  | .create _ env => CreateFits abi s env
  | .destroy => True
  | .write src srcOffset => WriteFits s src srcOffset
  | .read dst => ReadFits s dst
  | .zeroFill _ => True
  | .flush => True

end InternalBuf

namespace InternalBufRun

variable {abi : Abi} {r : InternalBufRun}

/-- The run after a call that may reallocate the buffer. -/
def settle (r : InternalBufRun) : Option (Option CapiErr × InternalBuf) → InternalBufRun
  | none => r
  | some (result, s) =>
    if InternalBuf.keepsBuffer result then { r with s := s } else ⟨s, fun _ => [], fun _ => []⟩

/-- The run after `n` bytes of each channel were written. -/
def fill (r : InternalBufRun) (bytes : ℕ → ℕ → List UInt8) :
    Option (ℕ × InternalBuf) → InternalBufRun
  | none => r
  | some (n, s) => ⟨s, fun ch => r.written ch ++ bytes n ch, r.readOut⟩

/-- The run after a call. -/
def step (abi : Abi) (r : InternalBufRun) : InternalBufCall → InternalBufRun
  | .setMediaFmt fmt env => r.settle (r.s.setMediaFmt abi fmt env)
  | .setFrameSizeUs frameSizeUs env => r.settle (r.s.setFrameSizeUs abi frameSizeUs env)
  | .setFrameSizeSamples samples env => r.settle (r.s.setFrameSizeSamples abi samples env)
  | .create heapId env => r.settle ((r.s.create abi heapId env).map fun x => (some x.1, x.2))
  | .destroy => (r.s.destroy.map fun s => ⟨s, fun _ => [], fun _ => []⟩).getD r
  | .write src srcOffset => r.fill
      (fun n ch => ((InternalBuf.memoryOf src ch).drop srcOffset.toNat).take n)
      (r.s.write src srcOffset)
  | .read dst => ((r.s.read dst).map fun x =>
      ⟨x.2.2, r.written, fun ch => r.readOut ch ++
        ((InternalBuf.memoryOf x.2.1 ch).drop (InternalBuf.fillOf dst ch)).take x.1⟩).getD r
  | .zeroFill zeroBytesPerCh => r.fill (fun n _ => List.replicate n 0) (r.s.zeroFill zeroBytesPerCh)
  | .flush => ⟨r.s.flush, r.readOut, r.readOut⟩

/-- The state of a module whose memory was set to zero. -/
def init : InternalBufRun := ⟨InternalBuf.init, fun _ => [], fun _ => []⟩

/-- Each channel reads what was written, in order: what was read and what is still to be read are
the bytes written. -/
def Delivers (r : InternalBufRun) : Prop :=
  ∀ ch, (r.s.bufferExists = true → ch < r.s.numCh) → r.written ch = r.readOut ch ++ r.s.unread ch

/-- The buffer is consistent and delivers what was written. -/
def Sound (r : InternalBufRun) : Prop := r.s.Consistent ∧ r.Delivers

/-- The call returns and touches only its memory. -/
def Answered (abi : Abi) (r : InternalBufRun) (c : InternalBufCall) : Prop :=
  r.s.answers abi c = true

lemma Sound.settle (h : r.Sound) (call : Option (Option CapiErr × InternalBuf))
    (hcall : ∃ result s', call = some (result, s') ∧ InternalBuf.Settled r.s result s') :
    (r.settle call).Sound ∧ call.isSome = true := by
  obtain ⟨result, s', rfl, hsettled⟩ := hcall
  refine ⟨?_, rfl⟩
  rw [InternalBufRun.settle]
  cases hkeeps : InternalBuf.keepsBuffer result with
  | true =>
    obtain ⟨hsame, hnum⟩ := hsettled.kept hkeeps
    refine ⟨hsettled.consistent, fun ch hch => ?_⟩
    rw [if_pos rfl] at hch ⊢
    have hwritten := h.2 ch fun hexists => by
      have hlt := hch (hsame.bufferExists.trans hexists)
      rwa [hnum hexists] at hlt
    rw [hwritten, hsame.unread]
  | false =>
    refine ⟨hsettled.consistent, fun ch _ => ?_⟩
    exact (hsettled.empty hkeeps ch).symm

lemma Sound.fill (h : r.Sound) {call : Option (ℕ × InternalBuf)} {bytes : ℕ → ℕ → List UInt8}
    (hcall : ∃ n s', call = some (n, s') ∧ s'.Shaped ∧ InternalBuf.SameSettings r.s s' ∧
      s'.bufferExists = r.s.bufferExists ∧ ∀ ch, (r.s.bufferExists = true → ch < r.s.numCh) →
        s'.unread ch = r.s.unread ch ++ bytes n ch) :
    (r.fill bytes call).Sound ∧ call.isSome = true := by
  obtain ⟨n, s', rfl, hshaped, hset, hexists, hunread⟩ := hcall
  refine ⟨⟨⟨hshaped, h.1.sameDuration.congr hset⟩, fun ch hch => ?_⟩, rfl⟩
  have hlt : r.s.bufferExists = true → ch < r.s.numCh := by
    intro htrue
    have hlt : ch < s'.numCh := hch (hexists.trans htrue)
    rwa [InternalBuf.numCh, hset.mediaFmt] at hlt
  simp only [InternalBufRun.fill, h.2 ch hlt, hunread ch hlt, List.append_assoc]

/-- **One call.** -/
lemma Sound.step (h : r.Sound) {c : InternalBufCall} (hfits : r.s.Fits abi c) :
    (r.step abi c).Sound ∧ Answered abi r c := by
  have hshaped := h.1.toShaped
  cases c with
  | setMediaFmt fmt env =>
    refine h.settle _ ?_
    rw [InternalBuf.setMediaFmt]
    by_cases hsame : r.s.mediaFmt = fmt
    · rw [if_neg (by simp [capiCmnMediaFmtEqual_iff.mpr hsame])]
      exact ⟨none, r.s, rfl, InternalBuf.settled_self h.1⟩
    · rw [if_pos (by simpa [← capiCmnMediaFmtEqual_iff] using hsame)]
      exact InternalBuf.applySetting_eq hshaped (by exact ⟨rfl, rfl, rfl, rfl, rfl, rfl⟩)
        (hfits.resolve_left hsame)
  | setFrameSizeUs frameSizeUs env =>
    refine h.settle _ ?_
    rw [InternalBuf.setFrameSizeUs]
    by_cases hsame : frameSizeUs = r.s.frameSizeUs
    · rw [if_neg (not_not_intro hsame)]
      exact ⟨none, r.s, rfl, InternalBuf.settled_self h.1⟩
    · rw [if_pos hsame]
      exact InternalBuf.applySetting_eq hshaped (by exact ⟨rfl, rfl, rfl, rfl, rfl, rfl⟩)
        (hfits.resolve_left hsame)
  | setFrameSizeSamples samples env =>
    refine h.settle _ ?_
    rw [InternalBuf.setFrameSizeSamples]
    by_cases hsame : samples = r.s.frameSizeSamplesPerCh
    · rw [if_neg (not_not_intro hsame)]
      exact ⟨none, r.s, rfl, InternalBuf.settled_self h.1⟩
    · rw [if_pos hsame]
      exact InternalBuf.applySetting_eq hshaped (by exact ⟨rfl, rfl, rfl, rfl, rfl, rfl⟩)
        (hfits.resolve_left hsame)
  | create heapId env =>
    obtain ⟨e, s', hcall, hsettled⟩ := InternalBuf.settled_create hshaped
      ⟨rfl, rfl, rfl, rfl, rfl, rfl⟩ h.1.sameDuration hfits (fun _ => by split <;> simp) heapId
    have hsettle := h.settle ((r.s.create abi heapId env).map fun x => (some x.1, x.2))
      ⟨some e, s', by rw [hcall, map_some], hsettled⟩
    exact ⟨hsettle.1, by simpa [Answered, InternalBuf.answers] using hsettle.2⟩
  | destroy =>
    obtain ⟨n, hcall⟩ := InternalBuf.destroy_eq fun ptrs hptrs => by
      have hpos := h.1.numCh_pos (by rw [InternalBuf.bufferExists, hptrs]; rfl)
      rw [h.1.length ptrs hptrs]
      exact ⟨hpos, Nat.le_refl _⟩
    refine ⟨?_, by rw [Answered, InternalBuf.answers, hcall]; rfl⟩
    rw [InternalBufRun.step, hcall, map_some, getD_some]
    refine ⟨⟨⟨?_, ?_, ?_, ?_, h.1.offset_le, h.1.actual_le⟩, h.1.sameDuration⟩, fun ch _ => rfl⟩
    · intro ptrs hnone
      contradiction
    · intro ptrs hnone
      contradiction
    · intro hexists
      contradiction
    · intro hexists
      contradiction
  | write src srcOffset => exact h.fill (InternalBuf.write_eq hshaped hfits)
  | read dst =>
    obtain ⟨n, d, s', hcall, hshaped', hset, hexists, hunread⟩ :=
      InternalBuf.read_eq hshaped hfits
    refine ⟨?_, by rw [Answered, InternalBuf.answers, hcall]; rfl⟩
    rw [InternalBufRun.step, hcall, map_some, getD_some]
    refine ⟨⟨hshaped', h.1.sameDuration.congr hset⟩, fun ch hch => ?_⟩
    have hlt : r.s.bufferExists = true → ch < r.s.numCh := by
      intro htrue
      have hlt : ch < s'.numCh := hch (hexists.trans htrue)
      rwa [InternalBuf.numCh, hset.mediaFmt] at hlt
    simp only [h.2 ch hlt, hunread ch hlt, List.append_assoc]
  | zeroFill zeroBytesPerCh => exact h.fill (InternalBuf.zeroFill_eq hshaped zeroBytesPerCh)
  | flush =>
    refine ⟨⟨⟨⟨h.1.length, h.1.ptrAt, h.1.dataSize, h.1.numCh_pos, Nat.le_refl _, Nat.zero_le _⟩,
      h.1.sameDuration⟩, fun ch _ => ?_⟩, rfl⟩
    rw [InternalBufRun.step, InternalBuf.unread_of_empty (fun _ => rfl), List.append_nil]

/-! ## Runs -/

lemma sound_init : init.Sound := by
  refine ⟨⟨⟨?_, ?_, ?_, ?_, Nat.le_refl _, Nat.le_refl _⟩, ?_⟩, fun _ _ => rfl⟩
  · intro ptrs hnone
    contradiction
  · intro ptrs hnone
    contradiction
  · intro hexists
    contradiction
  · intro hexists
    contradiction
  · intro hreceived
    contradiction

/-- **The internal buffer is a queue for each channel** along every run of calls whose arguments
it can serve. -/
theorem internalBuf_delivers (abi : Abi) (calls : List InternalBufCall)
    (hfits : Meets (step abi) (fun r c => r.s.Fits abi c) init calls) :
    Along (step abi) Sound init calls ∧ Meets (step abi) (Answered abi) init calls := by
  have hsound : Along (step abi) Sound init calls :=
    along_of_meets (fun r c h hc => (h.step hc).1) sound_init hfits
  exact ⟨hsound, meets_of_along (fun r c h hc => (h.step hc).2) hsound hfits⟩

/-! ## Two runs -/

/-- Stereo of 16 bits at 48 kHz. -/
def stereo48k : CapiMediaFmt := ⟨1, 16, 0, 0, 1, 2, 15, 48000⟩

/-- The heap gives what is asked for. -/
def heapFull : InternalBufEnv := ⟨true, some fun _ => 0xFF⟩

/-- A buffer with room for `n` bytes, with the bytes `bytes`. -/
def capiBuf (n : ℕ) (bytes : List UInt8) : CapiBuf :=
  ⟨bytes ++ List.replicate (n - bytes.length) 0, UInt32.ofNat bytes.length, UInt32.ofNat n⟩

instance (s : InternalBuf) : Decidable s.SameDuration :=
  inferInstanceAs (Decidable (_ → _ → _))

instance (s : InternalBuf) (src : List CapiBuf) (srcOffset : UInt32) :
    Decidable (s.WriteFits src srcOffset) :=
  inferInstanceAs (Decidable (_ ∨ _ ∧ _))

instance (s : InternalBuf) (dst : List CapiBuf) : Decidable (s.ReadFits dst) :=
  inferInstanceAs (Decidable (∃ first ∈ dst[0]?, _))

instance (s : InternalBuf) (c : InternalBufCall) : Decidable (s.Fits abi c) :=
  match c with
  | .setMediaFmt _ _ => inferInstanceAs (Decidable (_ ∨ _))
  | .setFrameSizeUs _ _ => inferInstanceAs (Decidable (_ ∨ _))
  | .setFrameSizeSamples _ _ => inferInstanceAs (Decidable (_ ∨ _))
  | .create _ env => inferInstanceAs (Decidable (s.CreateFits abi env))
  | .destroy => isTrue trivial
  | .write src srcOffset => inferInstanceAs (Decidable (s.WriteFits src srcOffset))
  | .read dst => inferInstanceAs (Decidable (s.ReadFits dst))
  | .zeroFill _ => isTrue trivial
  | .flush => isTrue trivial

/-- A frame of two samples is written in two parts and read in two parts, then the format changes
to mono. -/
def stereoThenMono : List InternalBufCall :=
  [.setFrameSizeSamples 2 heapFull, .setMediaFmt stereo48k heapFull, .create 0 heapFull,
    .write [capiBuf 4 [1, 2], capiBuf 4 [5, 6]] 0,
    .write [capiBuf 4 [9, 3, 4], capiBuf 4 [9, 7, 8]] 1,
    .read [capiBuf 3 [], capiBuf 3 []], .read [capiBuf 3 [], capiBuf 3 []],
    .setMediaFmt { stereo48k with numChannels := 1 } heapFull, .zeroFill 2]

theorem internalBuf_delivers_stereoThenMono : Along (step .bits32) Sound init stereoThenMono ∧
      Meets (step .bits32) (Answered .bits32) init stereoThenMono :=
  internalBuf_delivers .bits32 stereoThenMono (by decide)

/-- **The claim fails.** A frame of 100 ms at 48 kHz has 4800 samples, but the product of both
numbers does not fit in 32 bits, and the buffer counts 505. -/
theorem not_internalBuf_delivers : ¬ ∀ (abi : Abi) (calls : List InternalBufCall),
      Along (step abi) Sound init calls ∧ Meets (step abi) (Answered abi) init calls := by
  intro h
  have hsame := (h .bits32 [.setMediaFmt stereo48k heapFull,
    .setFrameSizeUs 100000 heapFull]).1.last.1.sameDuration
  revert hsame
  decide

end InternalBufRun

end AudioReach
