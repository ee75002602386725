import AudioReach.Dls.Model
import AudioReach.Library.Wrap

/-!
# How the commands of the data logging service end

The dispatcher ends the command after a registration and after a configuration, and ends it once
more if the result is an error; a buffer return leaves without ending it when an address is not
mapped.  A configuration is a walk over parameters whose sizes come from the packet.

The file says, for every command, exactly when it is ended once, with its packet left alone
afterwards and the mutex free, and when the walk over the parameters stays inside the payload and
terminates.
-/

namespace AudioReach

open Library List Option

namespace Dls

variable {abi : Abi} {translate : DlsTranslate} {s : Dls} {pkt : DlsPkt}

/-! ## The property -/

/-- The bytes of the payload of a configuration: as many as its header says, and no more than the
packet has. -/
def inbandSize (pkt : DlsPkt) : ℕ := min (payloadSize pkt).toNat (pkt.size - 16)

/-- The event reads, or hands over, only bytes of the payload. -/
def Inside (len : ℕ) : DlsEvent → Prop
  | .payloadRead off n => off + n ≤ len
  | .handParam off n => off + n ≤ len
  | _ => True

/-- Does the event end the command? -/
def endsCommand : DlsEvent → Bool
  | .endCommand _ => true
  | _ => false

/-- What the handling of a command should do to its packet and to the mutex. -/
structure FinishedOnce (len : ℕ) (events : List DlsEvent) : Prop where
  once : events.countP endsCommand = 1
  last : events.getLast?.any endsCommand = true
  free : events.count .lock = events.count .unlock
  /-- Only bytes of the payload are read, and handed to a handler of a parameter. -/
  inside : ∀ e ∈ events, Inside len e

/-- The handling of the command terminates and finishes it once. -/
def Finishes (abi : Abi) (translate : DlsTranslate) (s : Dls) (pkt : DlsPkt) : Prop :=
  ∃ fuel r, s.cmdqGprCmdHandler abi fuel translate pkt = some r ∧
    FinishedOnce (inbandSize pkt) r.2.2

/-! ## The condition -/

/-- The offsets of the packets pass the end of the memory before they wrap around. -/
def PacketsEnd (maxLogPktSize totalBufSize : UInt32) : Prop :=
  totalBufSize.toNat + Nat.gcd maxLogPktSize.toNat (2 ^ 32) < 2 ^ 32

/-- The packet size that a configuration sets. -/
def chosenPktSize (cfg : DlsConfigBuffer) : UInt32 :=
  if cfg.maxLogPktSize = dlsSetBufSizeToDefault then dlsDefaultMaxLogPktSize
  else cfg.maxLogPktSize

/-- The answer to a buffer configuration. -/
def configVerdict (translate : DlsTranslate) (cfg : DlsConfigBuffer) (paramSize : ℕ) : ArResult :=
  if paramSize < 24 then .ebadparam
  else
    match translate cfg.memMapHandle cfg.bufStartAddrLsw cfg.bufStartAddrMsw cfg.maxLogPktSize with
    | none => .efailed
    | some a => if a = 0 ∨ a &&& 7 ≠ 0 then .ebadparam else .eok

/-- The answer to a list of log codes at `p`. -/
def logCodeVerdict (abi : Abi) (m : ℕ → UInt8) (p paramSize : ℕ) : ArResult :=
  if paramSize < 8 then .ebadparam
  else if paramSize < logCodeParamSize abi (wordAt m (p + 4)) then .eneedmore
  else if wordAt m p ≠ 0 ∧ ∃ i < (wordAt m (p + 4)).toNat, wordAt m (p + 8 + 4 * i) = 0 then
    .ebadparam
  else .eok

/-- The answer to the parameter whose header is at `p`. -/
def paramVerdict (abi : Abi) (translate : DlsTranslate) (m : ℕ → UInt8) (p : ℕ) : ArResult :=
  let paramSize := (wordAt m (p + 8)).toNat
  if wordAt m (p + 4) = dlsParamIdConfigBuffer then
    configVerdict translate (configBufferAt m (p + 16)) paramSize
  else if wordAt m (p + 4) = dlsParamIdEnableDisableLogCode then
    logCodeVerdict abi m (p + 16) paramSize
  else .eunsupported

/-- The parameter whose header is at `p` can be handled: it is inside the payload and not refused
as bad; if it configures the memory, the packets end; if it is a list of log codes, it has as many
as it says. -/
structure ParamFits (abi : Abi) (translate : DlsTranslate) (m : ℕ → UInt8) (len p : ℕ) : Prop where
  /-- The header and the data are inside the payload. -/
  inside : p + 16 + (wordAt m (p + 8)).toNat ≤ len
  accepted : paramVerdict abi translate m p ≠ .ebadparam
  packets : wordAt m (p + 4) = dlsParamIdConfigBuffer → paramVerdict abi translate m p = .eok →
    (configBufferAt m (p + 16)).isCfg = 1 →
    PacketsEnd (chosenPktSize (configBufferAt m (p + 16))) (configBufferAt m (p + 16)).totalBufSize
  codes : wordAt m (p + 4) = dlsParamIdEnableDisableLogCode →
    paramVerdict abi translate m p = .eok →
    8 + 4 * (wordAt m (p + 16 + 4)).toNat ≤ (wordAt m (p + 8)).toNat

/-- The parameters from `p` on can be handled, and the last one, or `last` if there is none, is
accepted. -/
inductive ParamsFit (abi : Abi) (translate : DlsTranslate) (m : ℕ → UInt8) (len payloadLen : ℕ) :
    ArResult → ℕ → Prop
  | done {p : ℕ} (hend : payloadLen < p + 16) : ParamsFit abi translate m len payloadLen .eok p
  | next {last : ArResult} {p : ℕ} (hmore : p + 16 ≤ payloadLen)
    (hparam : ParamFits abi translate m len p)
    (hrest : ParamsFit abi translate m len payloadLen (paramVerdict abi translate m p)
      (p + 16 + ((wordAt m (p + 8)).toNat + 7) / 8 * 8)) :
    ParamsFit abi translate m len payloadLen last p

/-- A configuration is refused before its parameters are looked at. -/
def SetCfgRefused (pkt : DlsPkt) : Prop :=
  wordAt pkt.payload 8 ≠ 0 ∨ payloadSize pkt = 0 ∨ wordAt pkt.payload 16 ≠ dlsModuleInstanceId

/-- The event has a slot, or there is an empty one. -/
def HasSlot (s : Dls) (eventId : UInt32) : Prop :=
  ∃ c ∈ s.clientInfo, c.eventId = eventId ∨ c.eventId = 0

/-- A buffer return names more buffers than there are, or none. -/
def ReturnRefused (s : Dls) (pkt : DlsPkt) : Prop :=
  s.totalBufCount < wordAt pkt.payload 0 ∨ wordAt pkt.payload 0 = 0

/-- All the addresses of a buffer return are mapped. -/
def AllMapped (translate : DlsTranslate) (s : Dls) (pkt : DlsPkt) : Prop :=
  ∀ i < (wordAt pkt.payload 0).toNat, (translate (returnedAddr pkt i).memMapHandle
    (returnedAddr pkt i).bufAddrLsw (returnedAddr pkt i).bufAddrMsw
    s.configBufferInfo.maxLogPktSize).isSome = true

/-- The commands that are finished once. -/
def CommandFits (abi : Abi) (translate : DlsTranslate) (s : Dls) (pkt : DlsPkt) : Prop :=
  if pkt.opcode = apmCmdRegisterModuleEvents then HasSlot s (wordAt pkt.payload 20)
  else if pkt.opcode = apmCmdSetCfg then
    SetCfgRefused pkt ∨ 16 ≤ (payloadSize pkt).toNat ∧
      ParamsFit abi translate (inbandPayload pkt) (inbandSize pkt) (payloadSize pkt).toNat .eok 0
  else if pkt.opcode = dlsDataCmdBufferReturn then
    ReturnRefused s pkt ∨ AllMapped translate s pkt
  else True

/-! ## Loops -/

variable {fuel p len payloadLen rounds : ℕ} {paramSize c : UInt32} {m : ℕ → UInt8}
   {r : ArResult × Dls × List DlsEvent} {last : ArResult} {start : UInt64}

/-- The marking loop stops when an offset is past the end. -/
lemma markBufs_isSome_iff {off : UInt32} :
    (s.markBufs start fuel off).isSome = true ↔ ∃ k < fuel, s.configBufferInfo.totalBufSize.toNat
      < (off.toNat + (k + 1) * s.configBufferInfo.maxLogPktSize.toNat) % 2 ^ 32 := by
  induction fuel generalizing s off with
  | zero => simp [markBufs]
  | succ fuel ih =>
    rw [markBufs]
    split
    · rename_i hle
      have hle' : (off.toNat + s.configBufferInfo.maxLogPktSize.toNat) % 2 ^ 32
          ≤ s.configBufferInfo.totalBufSize.toNat := by
        exact UInt32.le_iff_toNat_le.mp hle
      rw [ih]
      simp only [storeField]
      have hshift : ∀ k, ((off + s.configBufferInfo.maxLogPktSize).toNat
            + (k + 1) * s.configBufferInfo.maxLogPktSize.toNat) % 2 ^ 32
          = (off.toNat + (k + 1 + 1) * s.configBufferInfo.maxLogPktSize.toNat) % 2 ^ 32 := by
        intro k
        rw [UInt32.toNat_add, Nat.mod_add_mod]
        congr 1
        ring
      constructor
      · rintro ⟨k, hk, hgt⟩
        rw [hshift] at hgt
        exact ⟨k + 1, by omega, hgt⟩
      · rintro ⟨k, hk, hgt⟩
        cases k with
        | zero =>
          omega
        | succ k =>
          refine ⟨k, by omega, ?_⟩
          rw [hshift]
          exact hgt
    · rename_i hgt
      have hgt' : s.configBufferInfo.totalBufSize.toNat
          < (off.toNat + s.configBufferInfo.maxLogPktSize.toNat) % 2 ^ 32 := by
        exact Nat.lt_of_not_le fun hle => hgt (UInt32.le_iff_toNat_le.mpr hle)
      refine iff_of_true rfl ⟨0, by omega, ?_⟩
      rw [Nat.zero_add, Nat.one_mul]
      exact hgt'

lemma markBufs_ends (h : (s.markBufs start fuel 0).isSome = true) :
    PacketsEnd s.configBufferInfo.maxLogPktSize s.configBufferInfo.totalBufSize := by
  obtain ⟨k, -, hk⟩ := markBufs_isSome_iff.mp h
  refine exists_step_mod_gt_of_any (by omega) ⟨k, ?_⟩
  rwa [UInt32.toNat_zero, Nat.zero_add] at hk

lemma markBufs_isSome (hfuel : 2 ^ 32 ≤ fuel)
    (h : PacketsEnd s.configBufferInfo.maxLogPktSize s.configBufferInfo.totalBufSize) :
    (s.markBufs start fuel 0).isSome = true := by
  obtain ⟨k, hk, hgt⟩ := (exists_step_mod_gt_iff (by omega)).mpr h
  refine markBufs_isSome_iff.mpr ⟨k, by omega, ?_⟩
  rwa [UInt32.toNat_zero, Nat.zero_add]

/-! ## Parameters -/

/-- A buffer configuration that is answered. -/
lemma setParamConfigBuffer_some {cfg : DlsConfigBuffer}
    {r : ArResult × Dls} (h : s.setParamConfigBuffer fuel translate cfg paramSize = some r) :
    r.1 = configVerdict translate cfg paramSize.toNat ∧ (r.1 = .eok → cfg.isCfg = 1 →
      PacketsEnd (chosenPktSize cfg) cfg.totalBufSize) := by
  rw [setParamConfigBuffer] at h
  rw [configVerdict]
  split at h
  · rename_i hsize
    rw [if_pos hsize]
    obtain rfl := Option.some.inj h
    exact ⟨rfl, fun hok => by contradiction⟩
  · rename_i hsize
    rw [if_neg hsize]
    cases htranslate : translate cfg.memMapHandle cfg.bufStartAddrLsw cfg.bufStartAddrMsw
        cfg.maxLogPktSize with
    | none =>
      simp only [htranslate, Option.some.injEq] at h
      subst h
      exact ⟨rfl, fun hok => by contradiction⟩
    | some a =>
      simp only [htranslate] at h ⊢
      by_cases hnull : a = 0
      · rw [if_pos hnull, Option.some.injEq] at h
        subst h
        exact ⟨(if_pos (Or.inl hnull)).symm, fun hok => by contradiction⟩
      · rw [if_neg hnull] at h
        by_cases halign : a &&& 7 ≠ 0
        · rw [if_pos halign, Option.some.injEq] at h
          subst h
          exact ⟨(if_pos (Or.inr halign)).symm, fun hok => by contradiction⟩
        · rw [if_neg halign] at h
          rw [if_neg (not_or.mpr ⟨hnull, halign⟩)]
          by_cases hcfg : cfg.isCfg = 1
          · rw [if_pos hcfg] at h
            obtain ⟨t, hmark, rfl⟩ := map_eq_some_iff.mp h
            refine ⟨rfl, fun _ _ => ?_⟩
            have hends := markBufs_ends (isSome_iff_exists.mpr ⟨t, hmark⟩)
            rw [chosenPktSize]
            split at hends
            · rename_i hdefault
              rwa [if_pos hdefault]
            · rename_i hdefault
              rwa [if_neg hdefault]
          · rw [if_neg hcfg, Option.some.injEq] at h
            subst h
            exact ⟨rfl, fun _ hone => absurd hone hcfg⟩

/-- A buffer configuration is answered if the packets end. -/
lemma setParamConfigBuffer_isSome (hfuel : 2 ^ 32 ≤ fuel) {cfg : DlsConfigBuffer}
    (h : configVerdict translate cfg paramSize.toNat = .eok → cfg.isCfg = 1 →
      PacketsEnd (chosenPktSize cfg) cfg.totalBufSize) :
    (s.setParamConfigBuffer fuel translate cfg paramSize).isSome = true := by
  rw [setParamConfigBuffer]
  rw [configVerdict] at h
  split
  · rfl
  · rename_i hsize
    rw [if_neg hsize] at h
    cases htranslate : translate cfg.memMapHandle cfg.bufStartAddrLsw cfg.bufStartAddrMsw
        cfg.maxLogPktSize with
    | none => rfl
    | some a =>
      simp only [htranslate] at h ⊢
      by_cases hnull : a = 0
      · rw [if_pos hnull]
        rfl
      · rw [if_neg hnull]
        by_cases halign : a &&& 7 ≠ 0
        · rw [if_pos halign]
          rfl
        · rw [if_neg halign]
          by_cases hcfg : cfg.isCfg = 1
          · rw [if_pos hcfg, isSome_map]
            apply markBufs_isSome hfuel
            have hends := h (if_neg (not_or.mpr ⟨hnull, halign⟩)) hcfg
            rw [chosenPktSize] at hends
            split at hends
            · rename_i hdefault
              rwa [if_pos hdefault]
            · rename_i hdefault
              rwa [if_neg hdefault]
          · rw [if_neg hcfg]
            rfl

lemma enableLogCodes_eq (codes : List UInt32) : (s.enableLogCodes codes).1
      = (if ∃ c ∈ codes, c = 0 then .ebadparam else .eok) ∧
    ((s.enableLogCodes codes).1 = .eok → (s.enableLogCodes codes).2.2 = codes.length) := by
  induction codes generalizing s with
  | nil => simp [enableLogCodes]
  | cons c cs ih =>
    rw [enableLogCodes]
    by_cases hc : c = 0
    · rw [if_pos hc, if_pos ⟨c, mem_cons_self, hc⟩]
      exact ⟨rfl, fun hok => by contradiction⟩
    · rw [if_neg hc]
      obtain ⟨hresult, hread⟩ := ih
      refine ⟨hresult.trans ?_, fun hok => by rw [length_cons, ← hread hok]⟩
      simp only [mem_cons, exists_eq_or_imp, hc, false_or]

variable (abi) in
/-- A list of log codes: the answer, and the reads of the codes. -/
lemma setParamLogCode_eq (m : ℕ → UInt8) (p : ℕ) (paramSize : UInt32) :
    (s.setParamLogCode abi m p paramSize).1 = logCodeVerdict abi m p paramSize.toNat ∧
      ((s.setParamLogCode abi m p paramSize).1 = .eok →
        (s.setParamLogCode abi m p paramSize).2.2 = .payloadRead p 8 ::
          (range (wordAt m (p + 4)).toNat).map fun i => .payloadRead (p + 8 + 4 * i) 4) := by
  rw [setParamLogCode, logCodeVerdict]
  by_cases hsize : paramSize.toNat < 8
  · rw [if_pos hsize, if_pos hsize]
    exact ⟨rfl, fun hok => by contradiction⟩
  · rw [if_neg hsize, if_neg hsize]
    by_cases hcodes : paramSize.toNat < logCodeParamSize abi (wordAt m (p + 4))
    · simp only [if_pos hcodes]
      exact ⟨trivial, fun hok => by contradiction⟩
    · simp only [if_neg hcodes]
      by_cases henable : wordAt m p ≠ 0
      · obtain ⟨hresult, hread⟩ := enableLogCodes_eq
          ((range (wordAt m (p + 4)).toNat).map fun i => wordAt m (p + 8 + 4 * i))
        have hiff : (∃ c ∈ (range (wordAt m (p + 4)).toNat).map
            (fun i => wordAt m (p + 8 + 4 * i)), c = 0)
            ↔ wordAt m p ≠ 0 ∧ ∃ i < (wordAt m (p + 4)).toNat, wordAt m (p + 8 + 4 * i) = 0 := by
          simp [henable]
        simp only [if_pos henable]
        refine ⟨hresult.trans (if_congr hiff rfl rfl), fun hok => ?_⟩
        rw [hread hok, length_map, length_range]
      · simp only [if_neg henable, if_neg (show ¬ (wordAt m p ≠ 0 ∧ _) from fun h => henable h.1)]
        exact ⟨trivial, fun _ => trivial⟩

lemma le_of_logCodeVerdict {paramSize : ℕ} (h : logCodeVerdict abi m p paramSize = .eok) :
    8 ≤ paramSize ∧ logCodeParamSize abi (wordAt m (p + 4)) ≤ paramSize := by
  rw [logCodeVerdict] at h
  split at h
  · contradiction
  · split at h
    · contradiction
    · omega

lemma logCodeParamSize_of_lt {n : UInt32} (h : 8 + 4 * n.toNat < 2 ^ 32) :
    logCodeParamSize abi n = 8 + 4 * n.toNat := by
  have hle : 2 ^ 32 ≤ 2 ^ (8 * abi.ptrSize) := by
    cases abi <;> simp [Abi.ptrSize]
  exact Nat.mod_eq_of_lt (by omega)

/-- The reads of a list of log codes that fits. -/
lemma ParamFits.inside_codes (h : ParamFits abi translate m len p)
    (hid : wordAt m (p + 4) = dlsParamIdEnableDisableLogCode)
    (hverdict : paramVerdict abi translate m p
      = logCodeVerdict abi m (p + 16) (wordAt m (p + 8)).toNat) {e : DlsEvent}
    (he : e ∈ (s.setParamLogCode abi m (p + 16) (wordAt m (p + 8))).2.2) : Inside len e := by
  have hinside := h.inside
  by_cases hok : logCodeVerdict abi m (p + 16) (wordAt m (p + 8)).toNat = .eok
  · obtain ⟨hresult, hevents⟩ := setParamLogCode_eq abi m (p + 16) (wordAt m (p + 8))
    have hcodes := h.codes hid (hverdict.trans hok)
    rw [hevents (hresult.trans hok)] at he
    rcases mem_cons.mp he with rfl | hread
    · simp only [Inside]
      omega
    · obtain ⟨i, hi, rfl⟩ := List.mem_map.mp hread
      rw [mem_range] at hi
      simp only [Inside]
      omega
  · have hbad := h.accepted
    rw [hverdict, logCodeVerdict] at hbad
    rw [logCodeVerdict] at hok
    rw [setParamLogCode] at he
    by_cases hsize : (wordAt m (p + 8)).toNat < 8
    · rw [if_pos hsize] at hbad
      contradiction
    · rw [if_neg hsize] at hbad hok he
      by_cases hcodes : (wordAt m (p + 8)).toNat
          < logCodeParamSize abi (wordAt m (p + 16 + 4))
      · simp only [if_pos hcodes] at he
        obtain rfl := mem_singleton.mp he
        simp only [Inside]
        omega
      · rw [if_neg hcodes] at hbad hok
        split at hbad
        · contradiction
        · rename_i hzero
          rw [if_neg hzero] at hok
          contradiction

/-- The answer to a parameter. -/
lemma handleSetParam_some
    (h : s.handleSetParam abi fuel translate (wordAt m (p + 4)) m (p + 16) (wordAt m (p + 8))
      = some r) :
    r.1 = paramVerdict abi translate m p ∧ (wordAt m (p + 4) = dlsParamIdConfigBuffer → r.1 = .eok →
        (configBufferAt m (p + 16)).isCfg = 1 →
        PacketsEnd (chosenPktSize (configBufferAt m (p + 16)))
          (configBufferAt m (p + 16)).totalBufSize) ∧
      (wordAt m (p + 4) = dlsParamIdEnableDisableLogCode →
        r = s.setParamLogCode abi m (p + 16) (wordAt m (p + 8))) := by
  rw [handleSetParam] at h
  rw [paramVerdict]
  by_cases hconfig : wordAt m (p + 4) = dlsParamIdConfigBuffer
  · rw [if_pos hconfig] at h
    obtain ⟨r', hcall, rfl⟩ := map_eq_some_iff.mp h
    obtain ⟨hresult, hends⟩ := setParamConfigBuffer_some hcall
    refine ⟨hresult.trans (if_pos hconfig).symm, fun _ => hends, fun hcodes => ?_⟩
    rw [hconfig] at hcodes
    contradiction
  · rw [if_neg hconfig] at h
    by_cases hcodes : wordAt m (p + 4) = dlsParamIdEnableDisableLogCode
    · rw [if_pos hcodes, Option.some.injEq] at h
      subst h
      simp only [if_neg hconfig, if_pos hcodes]
      exact ⟨(setParamLogCode_eq abi m (p + 16) _).1, fun hc => absurd hc hconfig, fun _ => trivial⟩
    · rw [if_neg hcodes, Option.some.injEq] at h
      subst h
      simp only [if_neg hconfig, if_neg hcodes]
      exact ⟨trivial, fun hc => absurd hc hconfig, fun hc => absurd hc hcodes⟩

/-- A parameter that fits is answered, and only its bytes are read. -/
lemma ParamFits.handleSetParam (hfuel : 2 ^ 32 ≤ fuel)
    (h : ParamFits abi translate m len p) (s : Dls) :
    ∃ r, s.handleSetParam abi fuel translate (wordAt m (p + 4)) m (p + 16) (wordAt m (p + 8))
      = some r ∧ ∀ e ∈ r.2.2, Inside len e := by
  rw [Dls.handleSetParam]
  by_cases hconfig : wordAt m (p + 4) = dlsParamIdConfigBuffer
  · have hverdict : paramVerdict abi translate m p
        = configVerdict translate (configBufferAt m (p + 16)) (wordAt m (p + 8)).toNat :=
      if_pos hconfig
    obtain ⟨r, hcall⟩ := isSome_iff_exists.mp (setParamConfigBuffer_isSome hfuel fun hok =>
        h.packets hconfig (hverdict.trans hok))
    rw [if_pos hconfig, hcall, map_some]
    refine ⟨_, rfl, fun e he => ?_⟩
    have hinside := h.inside
    split at he
    · contradiction
    · obtain rfl := mem_singleton.mp he
      simp only [Inside]
      omega
  · rw [if_neg hconfig]
    by_cases hcodes : wordAt m (p + 4) = dlsParamIdEnableDisableLogCode
    · rw [if_pos hcodes]
      refine ⟨_, rfl, fun e he => h.inside_codes hcodes ?_ he⟩
      rw [paramVerdict, if_neg hconfig, if_pos hcodes]
    · rw [if_neg hcodes]
      exact ⟨_, rfl, fun e he => by contradiction⟩

/-! ## The walk over the parameters -/

lemma setCfgLoop_done (hdone : c.toNat < 16) (rounds : ℕ) (last : ArResult) :
    setCfgLoop abi fuel translate m rounds last s p c = some (last, s, []) := by
  cases rounds <;> rw [setCfgLoop, if_pos hdone]

lemma toNat_curParamSize (size : UInt32) (h : size.toNat + 32 ≤ 2 ^ 32) :
    (16 + align8Bytes size).toNat = 16 + (size.toNat + 7) / 8 * 8 := by
  have halign : (align8Bytes size).toNat = (size.toNat + 7) / 8 * 8 := by
    rw [align8Bytes, toNat_and_mask8, UInt32.toNat_add, show (7 : UInt32).toNat = 7 from rfl,
      Nat.mod_eq_of_lt (by omega)]
  rw [UInt32.toNat_add, halign, show (16 : UInt32).toNat = 16 from rfl]
  omega

lemma toNat_payloadLenCounter (cur : UInt32) (hc : c.toNat = payloadLen - p) :
    (if cur < c then c - cur else 0).toNat = payloadLen - (p + cur.toNat) := by
  split
  · rename_i hlt
    have hlt' := UInt32.lt_iff_toNat_lt.mp hlt
    rw [UInt32.toNat_sub_of_le _ _ (UInt32.le_iff_toNat_le.mpr (by omega)), hc]
    omega
  · rename_i hge
    have hge' : c.toNat ≤ cur.toNat :=
      Nat.le_of_not_lt fun hlt => hge (UInt32.lt_iff_toNat_lt.mpr hlt)
    rw [UInt32.toNat_zero]
    omega

/-- A walk that is answered with success and stays inside the payload met parameters that fit. -/
lemma paramsFit_of_setCfgLoop (hlen : len + 16 ≤ 2 ^ 32)
    (h : setCfgLoop abi fuel translate m rounds last s p c = some r)
    (hc : c.toNat = payloadLen - p) (hok : r.1 = .eok) (hinside : ∀ e ∈ r.2.2, Inside len e) :
    ParamsFit abi translate m len payloadLen last p := by
  induction rounds generalizing last s p c r with
  | zero =>
    by_cases hdone : c.toNat < 16
    · rw [setCfgLoop_done hdone, Option.some.injEq] at h
      subst h
      subst hok
      exact .done (by omega)
    · rw [setCfgLoop, if_neg hdone] at h
      contradiction
  | succ rounds ih =>
    by_cases hdone : c.toNat < 16
    · rw [setCfgLoop_done hdone, Option.some.injEq] at h
      subst h
      subst hok
      exact .done (by omega)
    · rw [setCfgLoop, if_neg hdone] at h
      obtain ⟨r₁, hparam, hnext⟩ := bind_eq_some_iff.mp h
      obtain ⟨hresult, hends, hcodes⟩ := handleSetParam_some hparam
      by_cases hbad : r₁.1 = .ebadparam
      · rw [if_pos hbad, Option.some.injEq] at hnext
        subst hnext
        contradiction
      · rw [if_neg hbad] at hnext
        obtain ⟨r₂, hloop, rfl⟩ := map_eq_some_iff.mp hnext
        have hsize : p + 16 + (wordAt m (p + 8)).toNat ≤ len :=
          hinside (.handParam (p + 16) (wordAt m (p + 8)).toNat) (by simp)
        have hcur := toNat_curParamSize (wordAt m (p + 8)) (by omega)
        have hrest := ih hloop (toNat_payloadLenCounter _ hc) hok
          fun e he => hinside e (by simp [he])
        rw [hresult, hcur, ← Nat.add_assoc] at hrest
        refine .next (by omega) ⟨hsize, hresult ▸ hbad, ?_, ?_⟩ hrest
        · intro hid hverdict
          exact hends hid (hresult.trans hverdict)
        · intro hid hverdict
          -- the last code that is read is inside the payload, so the size does not wrap around
          have hlog := hcodes hid
          obtain ⟨hlogresult, hevents⟩ := setParamLogCode_eq abi m (p + 16)
            (wordAt m (p + 8))
          have hok₁ : (s.setParamLogCode abi m (p + 16) (wordAt m (p + 8))).1 = .eok := by
            rw [← hlog, hresult, hverdict]
          obtain ⟨hfixed, hcomputed⟩ := le_of_logCodeVerdict (hlogresult.symm.trans hok₁)
          have hread : ∀ i < (wordAt m (p + 16 + 4)).toNat, p + 16 + 8 + 4 * i + 4 ≤ len := by
            intro i hi
            apply hinside (.payloadRead (p + 16 + 8 + 4 * i) 4)
            rw [hlog, hevents hok₁]
            simp only [mem_append, mem_cons, List.mem_map, mem_range]
            exact Or.inl (Or.inr (Or.inr ⟨i, hi, rfl⟩))
          have hsmall : 8 + 4 * (wordAt m (p + 16 + 4)).toNat < 2 ^ 32 := by
            rcases Nat.eq_zero_or_pos (wordAt m (p + 16 + 4)).toNat with hzero | hpos
            · omega
            · have := hread ((wordAt m (p + 16 + 4)).toNat - 1) (by omega)
              omega
          rwa [logCodeParamSize_of_lt hsmall] at hcomputed

/-- **The walk.** Parameters that fit are handled to the end. -/
lemma setCfgLoop_of_paramsFit (hfuel : 2 ^ 32 ≤ fuel) (hlen : len + 16 ≤ 2 ^ 32)
    (h : ParamsFit abi translate m len payloadLen last p)
    (hrounds : payloadLen - p ≤ rounds) (hc : c.toNat = payloadLen - p) (s : Dls) :
    ∃ r, setCfgLoop abi fuel translate m rounds last s p c = some r ∧ r.1 = .eok ∧
      ∀ e ∈ r.2.2, Inside len e := by
  induction h generalizing rounds c s with
  | done hend =>
    exact ⟨_, setCfgLoop_done (by omega) rounds .eok, rfl, fun e he => by contradiction⟩
  | next hmore hparam hrest ih =>
    rename_i last p
    have hsize := hparam.inside
    have hcur := toNat_curParamSize (wordAt m (p + 8)) (by omega)
    obtain ⟨rounds, rfl⟩ : ∃ k, rounds = k + 1 := ⟨rounds - 1, by omega⟩
    obtain ⟨r₁, hcall, hinside₁⟩ := hparam.handleSetParam hfuel s
    have hresult := (handleSetParam_some hcall).1
    have hcounter := toNat_payloadLenCounter (16 + align8Bytes (wordAt m (p + 8))) hc
    rw [hcur, ← Nat.add_assoc] at hcounter
    obtain ⟨r₂, hloop, hok, hinside₂⟩ := ih
      (show payloadLen - (p + 16 + ((wordAt m (p + 8)).toNat + 7) / 8 * 8) ≤ rounds by omega)
      hcounter r₁.2.1
    rw [← hresult] at hloop
    refine ⟨(r₂.1, r₂.2.1, [.payloadRead (p + 4) 8, .handParam (p + 16) (wordAt m (p + 8)).toNat]
      ++ r₁.2.2 ++ r₂.2.2), ?_, hok, ?_⟩
    · rw [setCfgLoop, if_neg (by omega)]
      simp only [hcall, bind_some, if_neg (hresult ▸ hparam.accepted), hcur,
        ← Nat.add_assoc, hloop, map_some]
    · intro e he
      rcases mem_append.mp he with hfirst | hsecond
      · rcases mem_append.mp hfirst with hstart | hhandler
        · simp only [mem_cons, not_mem_nil, or_false] at hstart
          rcases hstart with rfl | rfl
          · simp only [Inside]
            omega
          · exact hsize
        · exact hinside₁ e hhandler
      · exact hinside₂ e hsecond

/-! ## Commands -/

/-- The slot of a registration. -/
lemma availIdx_isSome_iff {eventId : UInt32} :
    (s.availIdx eventId).isSome = true ↔ HasSlot s eventId := by
  rw [availIdx, HasSlot]
  cases hfind : s.clientInfo.findIdx? (·.eventId == eventId) with
  | some i =>
    rw [findIdx?_eq_some_iff_getElem] at hfind
    obtain ⟨hi, hmatch, -⟩ := hfind
    exact iff_of_true rfl ⟨_, getElem_mem hi, Or.inl (eq_of_beq hmatch)⟩
  | none =>
    rw [findIdx?_eq_none_iff] at hfind
    simp only [getLast?_isSome, ne_eq, filter_eq_nil_iff, mem_range, beq_iff_eq,
      not_forall, not_not]
    constructor
    · rintro ⟨i, hi, hempty⟩
      rw [getElem?_eq_getElem hi, map_some, Option.some.injEq] at hempty
      exact ⟨_, getElem_mem hi, Or.inr hempty⟩
    · rintro ⟨c, hc, hmatch | hempty⟩
      · have := hfind c hc
        simp [hmatch] at this
      · obtain ⟨i, hi, rfl⟩ := getElem_of_mem hc
        exact ⟨i, hi, by rw [getElem?_eq_getElem hi, map_some, hempty]⟩

lemma not_finishedOnce_of_endTwice (events : List DlsEvent) {r r' : ArResult} :
    ¬ FinishedOnce len (events ++ [.endCommand r] ++ [.endCommand r']) := by
  intro h
  have hcount := h.once
  simp only [countP_append, countP_cons, endsCommand, countP_nil] at hcount
  simp at hcount

/-- A registration. -/
lemma finishes_register (hop : pkt.opcode = apmCmdRegisterModuleEvents) :
    Finishes abi translate s pkt ↔ HasSlot s (wordAt pkt.payload 20) := by
  have hcall : ∀ fuel, s.cmdqGprCmdHandler abi fuel translate pkt
      = some ((s.eventRegister pkt).1, (s.eventRegister pkt).2,
        [.touch, .touch, .endCommand (s.eventRegister pkt).1]
          ++ bailOut (s.eventRegister pkt).1) :=
    fun fuel => by rw [cmdqGprCmdHandler, if_pos hop]
  rw [← availIdx_isSome_iff]
  cases hidx : s.availIdx (wordAt pkt.payload 20) with
  | none =>
    have hresult : (s.eventRegister pkt).1 = .efailed := by rw [eventRegister, hidx]
    refine iff_of_false ?_ (by simp)
    rintro ⟨fuel, r, hr, hfinished⟩
    rw [hcall, Option.some.injEq] at hr
    subst hr
    rw [hresult] at hfinished
    exact not_finishedOnce_of_endTwice [.touch, .touch] hfinished
  | some i =>
    have hresult : (s.eventRegister pkt).1 = .eok := by rw [eventRegister, hidx]
    refine iff_of_true ⟨0, _, hcall 0, ?_⟩ rfl
    rw [hresult]
    refine ⟨rfl, rfl, rfl, fun e he => ?_⟩
    simp only [bailOut, ne_eq, not_true_eq_false, if_false, append_nil, mem_cons,
      not_mem_nil, or_false] at he
    rcases he with rfl | rfl | rfl <;> trivial

/-- The event is an access of the walk. -/
def isAccess : DlsEvent → Bool
  | .payloadRead _ _ => true
  | .handParam _ _ => true
  | _ => false

lemma handleSetParam_accesses {paramId : UInt32}
    (h : s.handleSetParam abi fuel translate paramId m p paramSize = some r) :
    ∀ e ∈ r.2.2, isAccess e = true := by
  rw [handleSetParam] at h
  split at h
  · obtain ⟨r', -, rfl⟩ := map_eq_some_iff.mp h
    intro e he
    split at he
    · contradiction
    · rw [mem_singleton.mp he]
      rfl
  · split at h
    · obtain rfl := Option.some.inj h
      rw [setParamLogCode]
      split
      · intro e he
        contradiction
      · simp only
        split
        · intro e he
          rw [mem_singleton.mp he]
          rfl
        · split <;> simp [isAccess]
    · obtain rfl := Option.some.inj h
      intro e he
      contradiction

/-- The walk only accesses the payload. -/
lemma setCfgLoop_accesses (h : setCfgLoop abi fuel translate m rounds last s p c = some r) :
    ∀ e ∈ r.2.2, isAccess e = true := by
  induction rounds generalizing last s p c r with
  | zero =>
    by_cases hdone : c.toNat < 16
    · rw [setCfgLoop_done hdone, Option.some.injEq] at h
      subst h
      intro e he
      contradiction
    · rw [setCfgLoop, if_neg hdone] at h
      contradiction
  | succ rounds ih =>
    by_cases hdone : c.toNat < 16
    · rw [setCfgLoop_done hdone, Option.some.injEq] at h
      subst h
      intro e he
      contradiction
    · rw [setCfgLoop, if_neg hdone] at h
      obtain ⟨r₁, hparam, hnext⟩ := bind_eq_some_iff.mp h
      have hfirst := handleSetParam_accesses hparam
      by_cases hbad : r₁.1 = .ebadparam
      · rw [if_pos hbad, Option.some.injEq] at hnext
        subst hnext
        simp only [mem_append, mem_cons, not_mem_nil, or_false]
        rintro e ((rfl | rfl) | he)
        · rfl
        · rfl
        · exact hfirst e he
      · rw [if_neg hbad] at hnext
        obtain ⟨r₂, hloop, rfl⟩ := map_eq_some_iff.mp hnext
        simp only [mem_append, mem_cons, not_mem_nil, or_false]
        rintro e (((rfl | rfl) | he) | he)
        · rfl
        · rfl
        · exact hfirst e he
        · exact ih hloop e he

/-- Accesses followed by one end of the command. -/
lemma finishedOnce_of_accesses {events : List DlsEvent}
    (haccess : ∀ e ∈ events, isAccess e = true) (hinside : ∀ e ∈ events, Inside len e)
    (r : ArResult) :
    FinishedOnce len ([.touch, .touch] ++ (.touch :: events) ++ [.endCommand r]) := by
  have hends : events.countP endsCommand = 0 := by
    rw [countP_eq_zero]
    intro e he
    have := haccess e he
    cases e <;> simp_all [isAccess, endsCommand]
  have hlock : ∀ e : DlsEvent, isAccess e = false → events.count e = 0 := by
    intro e hquiet
    rw [count_eq_zero]
    intro he
    rw [haccess e he] at hquiet
    contradiction
  refine ⟨?_, ?_, ?_, ?_⟩
  · simp only [countP_append, countP_cons, countP_nil, hends]
    rfl
  · rw [getLast?_append]
    rfl
  · simp only [count_append, count_cons, count_nil, hlock .lock rfl, hlock .unlock rfl]
    rfl
  · intro e he
    simp only [mem_append, mem_cons, not_mem_nil, or_false] at he
    rcases he with ((rfl | rfl) | rfl | he) | rfl
    · trivial
    · trivial
    · trivial
    · exact hinside e he
    · trivial

lemma finishes_of_refused (hop : pkt.opcode = apmCmdSetCfg) (h : SetCfgRefused pkt) :
    Finishes abi translate s pkt := by
  have hne : pkt.opcode ≠ apmCmdRegisterModuleEvents := by
    rw [hop]
    decide
  have hcall : s.cmdqGprCmdHandler abi 0 translate pkt
      = some (.ebadparam, s, [.touch, .touch, .endCommand .ebadparam]) := by
    rw [cmdqGprCmdHandler, if_neg hne, if_pos hop]
    by_cases hhandle : wordAt pkt.payload 8 ≠ 0
    · rw [if_pos hhandle]
      rfl
    · rw [if_neg hhandle]
      by_cases hsize : payloadSize pkt = 0
      · rw [if_pos hsize]
        rfl
      · rw [if_neg hsize, if_pos ((h.resolve_left hhandle).resolve_left hsize)]
        rfl
  refine ⟨0, _, hcall, rfl, rfl, rfl, fun e he => ?_⟩
  simp only [mem_cons, not_mem_nil, or_false] at he
  rcases he with rfl | rfl | rfl <;> trivial

/-- A configuration whose parameters are looked at. -/
lemma finishes_setCfg (hop : pkt.opcode = apmCmdSetCfg) (h : ¬ SetCfgRefused pkt) :
    Finishes abi translate s pkt ↔ 16 ≤ (payloadSize pkt).toNat ∧
      ParamsFit abi translate (inbandPayload pkt) (inbandSize pkt) (payloadSize pkt).toNat
        .eok 0 := by
  have hne : pkt.opcode ≠ apmCmdRegisterModuleEvents := by
    rw [hop]
    decide
  obtain ⟨hhandle, hsize, hid⟩ := not_or.mp h |>.imp_right not_or.mp
  have hcall : ∀ fuel, s.cmdqGprCmdHandler abi fuel translate pkt
      = (s.handleSetCfgCmd abi fuel translate pkt).map fun r =>
        (r.1, r.2.1, [.touch, .touch] ++ r.2.2 ++ [.endCommand r.1] ++ bailOut r.1) :=
    fun fuel => by rw [cmdqGprCmdHandler, if_neg hne, if_pos hop, if_neg hhandle, if_neg hsize,
      if_neg hid]
  have hlen : inbandSize pkt + 16 ≤ 2 ^ 32 := by
    have := pkt.size_lt
    rw [inbandSize]
    omega
  constructor
  · rintro ⟨fuel, r, hr, hfinished⟩
    rw [hcall] at hr
    obtain ⟨r₁, hset, rfl⟩ := map_eq_some_iff.mp hr
    have hok : r₁.1 = .eok := by
      by_contra herror
      rw [bailOut, if_pos herror] at hfinished
      exact not_finishedOnce_of_endTwice _ hfinished
    rw [handleSetCfgCmd] at hset
    by_cases hshort : (payloadSize pkt).toNat < 16
    · rw [if_pos hshort, Option.some.injEq] at hset
      subst hset
      contradiction
    · rw [if_neg hshort] at hset
      obtain ⟨r₂, hloop, rfl⟩ := map_eq_some_iff.mp hset
      refine ⟨by omega, paramsFit_of_setCfgLoop hlen hloop (Nat.sub_zero _).symm hok
        fun e he => hfinished.inside e ?_⟩
      simp [he]
  · rintro ⟨hlong, hparams⟩
    obtain ⟨r, hloop, hok, hinside⟩ := setCfgLoop_of_paramsFit (Nat.le_max_left (2 ^ 32)
      (payloadSize pkt).toNat) hlen hparams (Nat.sub_le_of_le_add (Nat.le_trans
        (Nat.le_max_right _ _) (Nat.le_add_right _ _))) (Nat.sub_zero _).symm s
    have hset : s.handleSetCfgCmd abi (max (2 ^ 32) (payloadSize pkt).toNat) translate pkt
        = some (r.1, r.2.1, .touch :: r.2.2) := by
      rw [handleSetCfgCmd, if_neg (by omega), hloop, map_some]
    refine ⟨max (2 ^ 32) (payloadSize pkt).toNat, _, by rw [hcall, hset, map_some], ?_⟩
    have hfinished := finishedOnce_of_accesses (setCfgLoop_accesses hloop) hinside r.1
    simp only [hok, bailOut, ne_eq, not_true_eq_false, if_false, append_nil] at hfinished ⊢
    exact hfinished

lemma returnBufs_fst_iff {bs : List DlsBufStartAddr} : (returnBufs translate s bs).1 = true ↔
    ∀ b ∈ bs, (translate b.memMapHandle b.bufAddrLsw b.bufAddrMsw
      s.configBufferInfo.maxLogPktSize).isSome = true := by
  induction bs generalizing s with
  | nil => simp [returnBufs]
  | cons b bs ih =>
    have hcfg : ∀ a, (s.returnBuf a).configBufferInfo = s.configBufferInfo := by
      intro a
      simp only [returnBuf]
      split
      · rfl
      · split <;> rfl
    rw [returnBufs, forall_mem_cons]
    cases translate b.memMapHandle b.bufAddrLsw b.bufAddrMsw s.configBufferInfo.maxLogPktSize with
    | none => simp
    | some a => simp [ih, hcfg]

/-- A buffer return. -/
lemma finishes_bufferReturn (hop : pkt.opcode = dlsDataCmdBufferReturn) :
    Finishes abi translate s pkt ↔ ReturnRefused s pkt ∨ AllMapped translate s pkt := by
  have hcall : ∀ fuel, s.cmdqGprCmdHandler abi fuel translate pkt
      = some (.eok, (s.bufferReturn translate pkt).1, .touch :: (s.bufferReturn translate pkt).2) :=
    fun fuel => by rw [cmdqGprCmdHandler, if_neg (by rw [hop]; decide),
      if_neg (by rw [hop]; decide), if_pos hop]
  have hiff : Finishes abi translate s pkt ↔ FinishedOnce (inbandSize pkt)
      (.touch :: (s.bufferReturn translate pkt).2) := by
    constructor
    · rintro ⟨fuel, r, hr, hfinished⟩
      rw [hcall, Option.some.injEq] at hr
      rwa [← hr] at hfinished
    · intro hfinished
      exact ⟨0, _, hcall 0, hfinished⟩
  have hquiet : ∀ {events : List DlsEvent}, (∀ e ∈ events, isAccess e = false) →
      ∀ e ∈ events, Inside (inbandSize pkt) e := by
    intro events hevents e he
    have := hevents e he
    cases e <;> simp_all [isAccess, Inside]
  rw [hiff, bufferReturn, ReturnRefused]
  by_cases hmany : s.totalBufCount < wordAt pkt.payload 0
  · simp only [if_pos hmany]
    exact iff_of_true ⟨rfl, rfl, rfl, hquiet (by simp [isAccess])⟩ (Or.inl (Or.inl hmany))
  · simp only [if_neg hmany]
    by_cases hnone : wordAt pkt.payload 0 = 0
    · simp only [if_pos hnone]
      exact iff_of_true ⟨rfl, rfl, rfl, hquiet (by simp [isAccess])⟩ (Or.inl (Or.inr hnone))
    · have hmapped : (returnBufs translate s
          ((range (wordAt pkt.payload 0).toNat).map (returnedAddr pkt))).1 = true
          ↔ AllMapped translate s pkt := by
        rw [returnBufs_fst_iff, AllMapped]
        simp
      simp only [hnone, if_false, hmany, false_or, ← hmapped]
      split
      · rename_i hall
        exact iff_of_true ⟨rfl, rfl, rfl, hquiet (by simp [isAccess])⟩ hall
      · rename_i hfailed
        exact iff_of_false (fun hfinished => by simpa [endsCommand] using hfinished.once) hfailed

/-- **When a command is finished once.** For every packet and every state of the service. -/
theorem cmdqGprCmdHandler_finishes_iff (abi : Abi) (translate : DlsTranslate) (s : Dls)
    (pkt : DlsPkt) : Finishes abi translate s pkt ↔ CommandFits abi translate s pkt := by
  rw [CommandFits]
  by_cases hregister : pkt.opcode = apmCmdRegisterModuleEvents
  · rw [if_pos hregister]
    exact finishes_register hregister
  · rw [if_neg hregister]
    by_cases hset : pkt.opcode = apmCmdSetCfg
    · rw [if_pos hset]
      by_cases hrefused : SetCfgRefused pkt
      · exact iff_of_true (finishes_of_refused hset hrefused) (Or.inl hrefused)
      · rw [finishes_setCfg hset hrefused, or_iff_right hrefused]
    · rw [if_neg hset]
      by_cases hreturn : pkt.opcode = dlsDataCmdBufferReturn
      · rw [if_pos hreturn]
        exact finishes_bufferReturn hreturn
      · rw [if_neg hreturn]
        refine iff_of_true ⟨0, (.eunsupported, s, .touch :: bailOut .eunsupported), ?_, ?_⟩ trivial
        · rw [cmdqGprCmdHandler, if_neg hregister, if_neg hset, if_neg hreturn]
        · refine ⟨rfl, rfl, rfl, fun e he => ?_⟩
          simp only [bailOut, ne_eq, reduceCtorEq, not_false_eq_true, if_true, mem_cons,
            not_mem_nil, or_false] at he
          rcases he with rfl | rfl <;> trivial

instance (s : Dls) (eventId : UInt32) : Decidable (HasSlot s eventId) :=
  inferInstanceAs (Decidable (∃ c ∈ s.clientInfo, _))

/-- A registration for the event 5. -/
def registration : DlsPkt :=
  ⟨apmCmdRegisterModuleEvents, 1, 2, 3, fun p => if p = 20 then 5 else 0, 40, by decide⟩

/-- **The claim fails.** When all the slots for clients are taken by other events, a registration
is ended twice. -/
theorem not_cmdqGprCmdHandler_finishes :
    ¬ ∀ (abi : Abi) (translate : DlsTranslate) (s : Dls) (pkt : DlsPkt),
      Finishes abi translate s pkt := by
  intro h
  have hslot := (finishes_register (s := { init (fun _ => 0) with
    clientInfo := replicate 4 ⟨1, 1, 2, 3⟩ }) rfl).mp (h .bits32 (fun _ _ _ _ => none) _
      registration)
  revert hslot
  decide

end Dls

end AudioReach
