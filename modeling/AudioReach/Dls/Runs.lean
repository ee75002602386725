import AudioReach.Library.Runs
import AudioReach.Dls.Buffers

/-!
# Runs of the data logging service

A run is a list of configurations, log code commands, and calls that acquire, commit, free and
return packets.  Beside the state of the code it keeps the addresses of the packets that were
handed out and neither freed nor returned since, and the log codes that the client enabled.

A configuration is stored before it is checked and adds its packets to those counted before; the
offset of its loop may wrap around or stand still.  The empty entries of the log code table match
the code 0, a packet may be too short for what is put into it, a freed packet is not counted, and
the test of a returned address lets almost everything pass.  `Fits` names, for each call, when none
of this shows; runs of such calls keep the books of the packets.
-/

namespace AudioReach

open Library List

/-- A call on the data logging service, with what it learns from outside. -/
inductive DlsCall
  | config (translate : DlsTranslate) (cfg : DlsConfigBuffer) (paramSize : UInt32)
  | logCodes (abi : Abi) (m : ℕ → UInt8) (p : ℕ) (paramSize : UInt32)
  | acquire (percent : UInt32 → UInt32 → UInt32) (timestamp : UInt64) (logCode : UInt16)
      (logPacketSize : UInt32)
  | commit (logPkt : UInt64)
  | free (logPkt : UInt64)
  | bufferReturn (translate : DlsTranslate) (pkt : DlsPkt)

/-- The service, the packets that are out and the enabled log codes. -/
structure DlsRun where
  s : Dls
  /-- The packets that were handed out and not freed or returned since. -/
  out : List UInt64
  /-- The log codes that were enabled and not disabled since. -/
  enabled : List UInt32

/-- The rounds of a loop over 32-bit offsets: one that goes on for longer never stops. -/
def dlsRounds : ℕ := 2 ^ 32

namespace Dls

variable {s : Dls}

/-! ## Log codes -/

/-- The table holds enabled codes, each of them once. -/
structure CodesIn (s : Dls) (enabled : List UInt32) : Prop where
  mem : ∀ c ∈ s.logCode, c ≠ 0 → c ∈ enabled
  once : ∀ c, c ≠ 0 → s.logCode.count c ≤ 1

variable {c : UInt32} {enabled : List UInt32}

lemma isLogCodeExists_eq_some {i : ℕ} (h : s.isLogCodeExists c = some i) :
    ∃ hi : i < s.logCode.length, s.logCode[i] = c := by
  obtain ⟨hi, hfound, -⟩ := findIdx?_eq_some_iff_getElem.mp h
  exact ⟨hi, beq_iff_eq.mp hfound⟩

lemma isLogCodeExists_eq_none (h : s.isLogCodeExists c = none) : c ∉ s.logCode := by
  intro hmem
  have := findIdx?_eq_none_iff.mp h c hmem
  rw [beq_self_eq_true] at this
  contradiction

/-- A code that is not in the table is put into it. -/
lemma CodesIn.addLogCode (h : s.CodesIn enabled)
    (hnew : c ∉ s.logCode) : (s.addLogCode c).CodesIn (enabled ++ [c]) := by
  rw [Dls.addLogCode]
  cases hempty : s.isLogCodeExists 0 with
  | none => exact ⟨fun d hd hne => mem_append_left _ (h.mem d hd hne), h.once⟩
  | some i =>
    obtain ⟨hi, hzero⟩ := isLogCodeExists_eq_some hempty
    refine ⟨?_, ?_⟩
    · intro d hd hne
      rcases mem_or_eq_of_mem_set hd with hold | rfl
      · exact mem_append_left _ (h.mem d hold hne)
      · exact mem_append_right _ (mem_singleton_self _)
    · intro d hne
      have honce := h.once d hne
      rw [count_set hi, hzero]
      by_cases hd : c = d
      · subst hd
        rw [count_eq_zero_of_not_mem hnew, if_pos (beq_self_eq_true c)]
        omega
      · rw [if_neg (c := (c == d) = true) (by simpa using hd)]
        omega

/-- A code of the table is taken out of it. -/
lemma CodesIn.set_zero (h : s.CodesIn enabled) {i : ℕ} (hfound : s.isLogCodeExists c = some i) :
    ({ s with logCode := s.logCode.set i 0 } : Dls).CodesIn (enabled.filter (· ≠ c)) := by
  obtain ⟨hi, hcode⟩ := isLogCodeExists_eq_some hfound
  have hcount : ∀ d, d ≠ 0 → (s.logCode.set i 0).count d =
      s.logCode.count d - if c == d then 1 else 0 := by
    intro d hne
    rw [count_set hi, hcode, if_neg (c := ((0 : UInt32) == d) = true)
      (by simpa using hne.symm), Nat.add_zero]
  refine ⟨?_, ?_⟩
  · intro d hd hne
    have hpos : 0 < (s.logCode.set i 0).count d := count_pos_iff.mpr hd
    have honce := h.once d hne
    rw [hcount d hne] at hpos
    have hold : d ∈ s.logCode := count_pos_iff.mp (by omega)
    refine mem_filter.mpr ⟨h.mem d hold hne, decide_eq_true ?_⟩
    rintro rfl
    rw [if_pos (beq_self_eq_true d)] at hpos
    omega
  · intro d hne
    have honce := h.once d hne
    rw [hcount d hne]
    omega

lemma CodesIn.mono {enabled' : List UInt32} (h : s.CodesIn enabled)
    (hsub : ∀ c ∈ s.logCode, c ∈ enabled → c ∈ enabled') : s.CodesIn enabled' :=
  ⟨fun c hc hne => hsub c hc (h.mem c hc hne), h.once⟩

lemma CodesIn.enable {codes : List UInt32} : ∀ {s : Dls} {enabled : List UInt32},
    s.CodesIn enabled →
      (s.enableLogCodes codes).2.1.CodesIn (enabled ++ codes.takeWhile (· ≠ 0)) := by
  induction codes with
  | nil =>
    intro s enabled h
    rw [enableLogCodes, takeWhile_nil, append_nil]
    exact h
  | cons c cs ih =>
    intro s enabled h
    rw [enableLogCodes]
    by_cases hc : c = 0
    · rw [if_pos hc, takeWhile_cons_of_neg (by simpa using hc), append_nil]
      exact h
    · rw [if_neg hc, takeWhile_cons_of_pos (by simpa using hc), append_cons]
      apply ih
      cases hfound : s.isLogCodeExists c with
      | none => exact h.addLogCode (isLogCodeExists_eq_none hfound)
      | some i => exact h.mono fun d _ hd => mem_append_left _ hd

/-- Codes are disabled. -/
lemma CodesIn.disable {codes : List UInt32} : ∀ {s : Dls} {enabled : List UInt32},
    s.CodesIn enabled → (s.disableLogCodes codes).CodesIn (enabled.filter (· ∉ codes)) := by
  induction codes with
  | nil =>
    intro s enabled h
    exact h.mono fun c _ hc => mem_filter.mpr ⟨hc, by simp⟩
  | cons c cs ih =>
    intro s enabled h
    have hsplit : enabled.filter (· ∉ c :: cs) = (enabled.filter (· ≠ c)).filter (· ∉ cs) := by
      rw [filter_filter]
      apply filter_congr
      intro d _
      simp [mem_cons, Bool.and_comm]
    rw [disableLogCodes, hsplit]
    cases hfound : s.isLogCodeExists c with
    | none =>
      refine ih (h.mono fun d hd hen => mem_filter.mpr ⟨hen, decide_eq_true ?_⟩)
      rintro rfl
      exact isLogCodeExists_eq_none hfound hd
    | some i => exact ih (h.set_zero hfound)

lemma enableLogCodes_table (codes : List UInt32) : ∀ s : Dls,
    ∃ l, (s.enableLogCodes codes).2.1 = { s with logCode := l } := by
  induction codes with
  | nil => exact fun s => ⟨s.logCode, rfl⟩
  | cons c cs ih =>
    intro s
    rw [enableLogCodes]
    by_cases hc : c = 0
    · rw [if_pos hc]
      exact ⟨s.logCode, rfl⟩
    · rw [if_neg hc, Dls.addLogCode]
      cases s.isLogCodeExists c with
      | some _ => exact ih s
      | none =>
        cases s.isLogCodeExists 0 with
        | none => exact ih s
        | some i => exact ih { s with logCode := s.logCode.set i c }

lemma disableLogCodes_table (codes : List UInt32) : ∀ s : Dls,
    ∃ l, s.disableLogCodes codes = { s with logCode := l } := by
  induction codes with
  | nil => exact fun s => ⟨s.logCode, rfl⟩
  | cons c cs ih =>
    intro s
    rw [disableLogCodes]
    cases s.isLogCodeExists c with
    | none => exact ih s
    | some i => exact ih { s with logCode := s.logCode.set i 0 }

/-- The codes of the parameter at `p`. -/
def paramCodes (m : ℕ → UInt8) (p : ℕ) : List UInt32 :=
  (range (wordAt m (p + 4)).toNat).map fun i => wordAt m (p + 8 + 4 * i)

/-- The enabled codes after the parameter at `p`: those up to a zero are added, or all of them are
removed. -/
def enabledAfter (abi : Abi) (m : ℕ → UInt8) (p : ℕ) (paramSize : UInt32)
    (enabled : List UInt32) : List UInt32 :=
  if paramSize.toNat < 8 then enabled
  else if paramSize.toNat < logCodeParamSize abi (wordAt m (p + 4)) then enabled
  else if wordAt m p ≠ 0 then enabled ++ (paramCodes m p).takeWhile (· ≠ 0)
  else enabled.filter (· ∉ paramCodes m p)

/-- The table after the parameter, beside which nothing changes. -/
lemma setParamLogCode_table (h : s.CodesIn enabled) (abi : Abi)
    (m : ℕ → UInt8) (p : ℕ) (paramSize : UInt32) :
    ∃ l, (s.setParamLogCode abi m p paramSize).2.1 = { s with logCode := l } ∧
      ({ s with logCode := l } : Dls).CodesIn (enabledAfter abi m p paramSize enabled) := by
  rw [setParamLogCode, enabledAfter]
  by_cases hshort : paramSize.toNat < 8
  · rw [if_pos hshort, if_pos hshort]
    exact ⟨s.logCode, rfl, h⟩
  · rw [if_neg hshort, if_neg hshort]
    by_cases hneed : paramSize.toNat < logCodeParamSize abi (wordAt m (p + 4))
    · simp only [if_pos hneed]
      exact ⟨s.logCode, rfl, h⟩
    · simp only [if_neg hneed]
      by_cases hflag : wordAt m p ≠ 0
      · rw [if_pos hflag, if_pos hflag]
        obtain ⟨l, hl⟩ := enableLogCodes_table (paramCodes m p) s
        refine ⟨l, hl, ?_⟩
        rw [← hl]
        exact h.enable
      · rw [if_neg hflag, if_neg hflag]
        obtain ⟨l, hl⟩ := disableLogCodes_table (paramCodes m p) s
        refine ⟨l, hl, ?_⟩
        rw [← hl]
        exact h.disable

/-! ## Returned packets -/

/-- The addresses of returned packets, up to the first one that is not mapped. -/
def mappedBufs (translate : DlsTranslate) (maxLogPktSize : UInt32) :
    List DlsBufStartAddr → List UInt64
  | [] => []
  | b :: bs =>
    match translate b.memMapHandle b.bufAddrLsw b.bufAddrMsw maxLogPktSize with
    | none => []
    | some a => a :: mappedBufs translate maxLogPktSize bs

/-- The addresses that a return command works through. -/
def returnedBufs (s : Dls) (translate : DlsTranslate) (pkt : DlsPkt) : List UInt64 :=
  if s.totalBufCount < wordAt pkt.payload 0 then []
  else mappedBufs translate s.configBufferInfo.maxLogPktSize
    ((range (wordAt pkt.payload 0).toNat).map (returnedAddr pkt))

/-- The code leaves the packet at `a` alone. -/
def Skips (s : Dls) (a : UInt64) : Prop :=
  (a < s.bufStartAddr ∧ s.bufStartAddr + s.configBufferInfo.totalBufSize.toUInt64 <
      a + s.configBufferInfo.maxLogPktSize.toUInt64) ∨ s.bufState a = dlsBufAvailable

lemma returnBuf_eq (s : Dls) (a : UInt64) : s.returnBuf a = s ∧ s.Skips a ∨
      s.returnBuf a = { s.clearBuf a with currentBufCount := s.currentBufCount + 1 } ∧
        ¬s.Skips a := by
  simp only [returnBuf]
  by_cases hrange : a < s.bufStartAddr ∧ s.bufStartAddr + s.configBufferInfo.totalBufSize.toUInt64 <
        a + s.configBufferInfo.maxLogPktSize.toUInt64
  · rw [if_pos hrange]
    exact .inl ⟨rfl, .inl hrange⟩
  · rw [if_neg hrange]
    by_cases hstate : s.bufState a = dlsBufAvailable
    · rw [if_pos hstate]
      exact .inl ⟨rfl, .inr hstate⟩
    · rw [if_neg hstate]
      exact .inr ⟨rfl, by rintro (h | h) <;> contradiction⟩

lemma config_returnBuf (s : Dls) (a : UInt64) :
    (s.returnBuf a).configBufferInfo = s.configBufferInfo := by
  rcases returnBuf_eq s a with ⟨heq, -⟩ | ⟨heq, -⟩
  · rw [heq]
  · rw [heq]
    rfl

lemma returnBufs_eq (translate : DlsTranslate) (bs : List DlsBufStartAddr) : ∀ s : Dls,
    (returnBufs translate s bs).2 =
      run returnBuf s (mappedBufs translate s.configBufferInfo.maxLogPktSize bs) := by
  induction bs with
  | nil => exact fun s => rfl
  | cons b bs ih =>
    intro s
    rw [returnBufs, mappedBufs]
    cases translate b.memMapHandle b.bufAddrLsw b.bufAddrMsw s.configBufferInfo.maxLogPktSize with
    | none => rfl
    | some a =>
      have hrest := ih (s.returnBuf a)
      rw [config_returnBuf] at hrest
      exact hrest

lemma bufferReturn_eq (translate : DlsTranslate) (pkt : DlsPkt) :
    (s.bufferReturn translate pkt).1 = run returnBuf s (s.returnedBufs translate pkt) := by
  simp only [bufferReturn, returnedBufs]
  by_cases hmany : s.totalBufCount < wordAt pkt.payload 0
  · simp only [if_pos hmany]
    rfl
  · simp only [if_neg hmany]
    by_cases hzero : wordAt pkt.payload 0 = 0
    · rw [if_pos hzero, hzero]
      rfl
    · rw [if_neg hzero, ← returnBufs_eq]
      split
      · rfl
      · rfl

/-! ## Configurations -/

/-- The configuration with the address it is mapped to. -/
def located (cfg : DlsConfigBuffer) (a : UInt64) : DlsConfigBuffer :=
  { cfg with
    bufStartAddrLsw := (a &&& 0xFFFFFFFF).toUInt32
    bufStartAddrMsw := ((a &&& 0xFFFFFFFF00000000) >>> 32).toUInt32 }

/-- The configuration with its size of packets. -/
def sized (cfg : DlsConfigBuffer) : DlsConfigBuffer :=
  if cfg.maxLogPktSize = dlsSetBufSizeToDefault then
    { cfg with maxLogPktSize := dlsDefaultMaxLogPktSize } else cfg

/-- The service with another configuration. -/
def withConfig (s : Dls) (cfg : DlsConfigBuffer) : Dls := { s with configBufferInfo := cfg }

/-- The configuration is stored where no packets were, and has none, or it lays out the packets
as before. -/
def Keeps (s : Dls) (cfg : DlsConfigBuffer) : Prop :=
  s.totalBufCount = 0 ∧ (s.withConfig cfg).numPkts = 0 ∨ SameLayout s (s.withConfig cfg)

/-- The configuration is used where no packets were, and lays out its packets properly. -/
def StartsWith (s : Dls) (cfg : DlsConfigBuffer) : Prop :=
  s.totalBufCount = 0 ∧ 0 < (s.withConfig cfg).pktSize ∧ (s.withConfig cfg).Laid

/-- A configuration that was mapped to an address is stored only, or is used. -/
def MappedFits (s : Dls) (cfg : DlsConfigBuffer) : Option UInt64 → Prop
  | none => s.Keeps cfg
  | some a =>
    if a = 0 ∨ a &&& 7 ≠ 0 then s.Keeps (located cfg a)
    else if cfg.isCfg = 1 then s.StartsWith (sized (located cfg a))
    else s.Keeps (located cfg a) ∧ s.currentBufCount = s.totalBufCount

/-- A configuration that is refused, one that is stored only, or one that is used. -/
def ConfigFits (s : Dls) (translate : DlsTranslate) (cfg : DlsConfigBuffer) (paramSize : UInt32) :
    Prop :=
  24 ≤ paramSize.toNat → s.MappedFits cfg
    (translate cfg.memMapHandle cfg.bufStartAddrLsw cfg.bufStartAddrMsw cfg.maxLogPktSize)

/-- A configuration that fits keeps everything but itself, or marks and counts its packets. -/
lemma setParamConfigBuffer_cases {translate : DlsTranslate} {cfg : DlsConfigBuffer}
    {paramSize : UInt32} (hfits : s.ConfigFits translate cfg paramSize) :
    ∃ e t, s.setParamConfigBuffer dlsRounds translate cfg paramSize = some (e, t) ∧
      (t = s ∨ (∃ cfg', s.Keeps cfg' ∧ t = s.withConfig cfg') ∨
        ∃ cfg' t', s.StartsWith cfg' ∧ Marked 0 (s.withConfig cfg') t' ∧
          t = { t' with currentBufCount := t'.totalBufCount }) := by
  rw [setParamConfigBuffer]
  by_cases hshort : paramSize.toNat < 24
  · rw [if_pos hshort]
    exact ⟨_, _, rfl, .inl rfl⟩
  · rw [if_neg hshort]
    have hfits := hfits (by omega)
    cases htr : translate cfg.memMapHandle cfg.bufStartAddrLsw cfg.bufStartAddrMsw
        cfg.maxLogPktSize with
    | none =>
      simp only [htr, MappedFits] at hfits ⊢
      exact ⟨_, _, rfl, .inr (.inl ⟨cfg, hfits, rfl⟩)⟩
    | some a =>
      simp only [htr, MappedFits] at hfits ⊢
      by_cases hbad : a = 0 ∨ a &&& 7 ≠ 0
      · rw [if_pos hbad] at hfits
        refine ⟨.ebadparam, s.withConfig (located cfg a), ?_, .inr (.inl ⟨_, hfits, rfl⟩)⟩
        rcases hbad with hnull | hunaligned
        · rw [if_pos hnull]
          rfl
        · split
          · rfl
          · rfl
      · rw [if_neg hbad] at hfits
        rw [not_or] at hbad
        rw [if_neg hbad.1, if_neg hbad.2]
        by_cases hcfg : cfg.isCfg = 1
        · rw [if_pos hcfg] at hfits ⊢
          have hstart : (s.withConfig (sized (located cfg a))).bufStartAddr = a := by
            rw [sized]
            split
            · exact address_of_halves a
            · exact address_of_halves a
          have hnum : (s.withConfig (sized (located cfg a))).numPkts < dlsRounds :=
            lt_of_le_of_lt (Nat.div_le_self _ _) (UInt32.toNat_lt _)
          obtain ⟨t, hmarks, hmarked⟩ := hfits.2.2.markBufs_eq hfits.2.1 hnum
          rw [hstart] at hmarks
          refine ⟨.eok, { t with currentBufCount := t.totalBufCount }, ?_,
            .inr (.inr ⟨_, t, hfits, hmarked, rfl⟩)⟩
          change Option.map _ ((s.withConfig (sized (located cfg a))).markBufs a dlsRounds 0) = _
          rw [hmarks]
          rfl
        · rw [if_neg hcfg] at hfits ⊢
          refine ⟨.eok, s.withConfig (located cfg a), ?_, .inr (.inl ⟨_, hfits.1, rfl⟩)⟩
          rw [withConfig, hfits.2]
          rfl

/-! ## Calls -/

/-- What a call does to the service, with the address it gives, or `none` if a loop does not
stop. -/
def perform (s : Dls) : DlsCall → Option (UInt64 × Dls)
  | .config translate cfg paramSize =>
    (s.setParamConfigBuffer dlsRounds translate cfg paramSize).map fun r => (0, r.2)
  | .logCodes abi m p paramSize => some (0, (s.setParamLogCode abi m p paramSize).2.1)
  | .acquire percent timestamp logCode logPacketSize =>
    s.acquireBuffer dlsRounds percent timestamp logCode logPacketSize
  | .commit logPkt => some (0, s.commitBuffer logPkt)
  | .free logPkt => some (0, s.logBufFree logPkt)
  | .bufferReturn translate pkt => some (0, (s.bufferReturn translate pkt).1)

/-- The arguments of a call are such that the code keeps its books in the state `s`. -/
def Fits (s : Dls) : DlsCall → Prop
  | .config translate cfg paramSize => s.ConfigFits translate cfg paramSize
  | .logCodes _ _ _ _ => True
  | .acquire _ _ logCode logPacketSize =>
    (s.isLogCodeExists logCode.toUInt32).isNone = true ∨
      s.configBufferInfo.maxLogPktSize < logPacketSize + UInt32.ofNat dlsBufHdrSize ∨
      s.currentBufCount = 0 ∧ 0 < s.pktSize ∨ logCode ≠ 0 ∧ 24 ≤ s.pktSize
  | .commit logPkt =>
    s.IsPacket (logPkt - UInt64.ofNat dlsBufHdrSize) ∧
      s.bufState (logPkt - UInt64.ofNat dlsBufHdrSize) ≠ dlsBufAvailable
  | .free logPkt =>
    logPkt = 0 ∨ s.IsPacket (logPkt - UInt64.ofNat dlsBufHdrSize) ∧
      s.bufState (logPkt - UInt64.ofNat dlsBufHdrSize) = dlsBufAvailable
  | .bufferReturn translate pkt =>
    Meets returnBuf (fun s a => s.IsPacket a ∨ s.Skips a) s (s.returnedBufs translate pkt)

end Dls

namespace DlsRun

open Dls

/-- The packets that are out after a call that gave the address `result`. -/
def outAfter (r : DlsRun) (result : UInt64) : DlsCall → List UInt64
  | .acquire _ _ _ _ => if result ≠ 0 then (result - UInt64.ofNat dlsBufHdrSize) :: r.out else r.out
  | .free logPkt =>
    if logPkt = 0 then r.out else r.out.filter (· ≠ logPkt - UInt64.ofNat dlsBufHdrSize)
  | .bufferReturn translate pkt => r.out.filter (· ∉ r.s.returnedBufs translate pkt)
  | _ => r.out

/-- The codes that are enabled after a call. -/
def enabledAfter (r : DlsRun) : DlsCall → List UInt32
  | .logCodes abi m p paramSize => Dls.enabledAfter abi m p paramSize r.enabled
  | _ => r.enabled

/-- The step of a run; a call that does not end is dropped. -/
def step (r : DlsRun) (c : DlsCall) : DlsRun :=
  match r.s.perform c with
  | none => r
  | some (result, s) => ⟨s, r.outAfter result c, r.enabledAfter c⟩

/-- The service after the boot. -/
def init (mem : ℕ → UInt8) : DlsRun := ⟨Dls.init mem, [], []⟩

/-- The books are in order. -/
structure Sound (r : DlsRun) : Prop where
  /-- The total count is that of the packets that fit in the memory. -/
  total : r.s.totalBufCount.toNat = r.s.numPkts
  /-- The current count is that of the packets that are available, -/
  current : r.s.currentBufCount.toNat = (range r.s.numPkts).countP r.s.available
  current_le : r.s.currentBufCount ≤ r.s.totalBufCount

/-- What a call guarantees about a packet that it hands out: it is not out already, and its code is
enabled. -/
def HandsOutNew (r : DlsRun) : DlsCall → Prop
  | .acquire percent timestamp logCode logPacketSize =>
    ∀ result t, r.s.perform (.acquire percent timestamp logCode logPacketSize) = some (result, t) →
      result ≠ 0 → r.s.IsPacket (result - UInt64.ofNat dlsBufHdrSize) ∧
        result - UInt64.ofNat dlsBufHdrSize ∉ r.out ∧ logCode.toUInt32 ∈ r.enabled
  | _ => True

/-- A returned address that is not that of a packet changes no byte. -/
def LeavesOthersAlone (r : DlsRun) : DlsCall → Prop
  | .bufferReturn translate pkt =>
    Meets returnBuf (fun s a => ¬s.IsPacket a → (s.returnBuf a).mem = s.mem) r.s
      (r.s.returnedBufs translate pkt)
  | _ => True

/-- What a call guarantees. -/
structure Guarantees (r : DlsRun) (c : DlsCall) : Prop where
  ends : (r.s.perform c).isSome
  /-- No byte outside the configured memory changes. -/
  inside : ∀ a, a < (r.step c).s.memStart ∨ (r.step c).s.memStart + (r.step c).s.memSize ≤ a →
    (r.step c).s.mem a = r.s.mem a
  /-- A packet that is handed out was not out, and its code is enabled. -/
  handsOut : r.HandsOutNew c
  leavesAlone : r.LeavesOthersAlone c

/-! ## The invariant -/

/-- The books are in order, the packets are laid out properly, those that are not available are
out, and the table holds enabled codes. -/
structure Held (r : DlsRun) : Prop extends Sound r where
  laid : r.s.Laid
  out_iff : ∀ k < r.s.numPkts, r.s.pktAddr k ∈ r.out ↔ r.s.available k = false
  packets : ∀ a ∈ r.out, r.s.IsPacket a
  codes : r.s.CodesIn r.enabled

lemma countP_available_le (s : Dls) : (range s.numPkts).countP s.available ≤ s.numPkts := by
  calc (range s.numPkts).countP s.available ≤ (range s.numPkts).length :=
        countP_le_length
    _ = s.numPkts := length_range

lemma numPkts_lt (s : Dls) : s.numPkts < 2 ^ 32 :=
  lt_of_le_of_lt (Nat.div_le_self _ _) (UInt32.toNat_lt _)

lemma sound_of_counts {r : DlsRun} (htotal : r.s.totalBufCount.toNat = r.s.numPkts)
    (hcurrent : r.s.currentBufCount.toNat = (range r.s.numPkts).countP r.s.available) :
    r.Sound := by
  refine ⟨htotal, hcurrent, ?_⟩
  rw [UInt32.le_iff_toNat_le, htotal, hcurrent]
  exact countP_available_le r.s

lemma held_init (mem : ℕ → UInt8) : (init mem).Held := by
  have hnone : (init mem).s.numPkts = 0 := Nat.div_zero _
  refine { sound_of_counts (by rw [hnone]; rfl) (by rw [hnone]; rfl) with
    laid := laid_of_none hnone, out_iff := ?_, packets := ?_, codes := ⟨?_, ?_⟩ }
  · intro k hk
    rw [hnone] at hk
    exact absurd hk (Nat.not_lt_zero k)
  · intro a ha
    exact absurd ha not_mem_nil
  · intro c hc hne
    exact absurd (eq_of_mem_replicate hc) hne
  · intro c hne
    change (replicate dlsMaxNumLogCodes 0).count c ≤ 1
    rw [count_replicate, if_neg (by simpa using hne.symm)]
    exact Nat.zero_le _

variable {r : DlsRun}

lemma Held.out_eq_nil (h : r.Held) (hnone : r.s.totalBufCount = 0) : r.out = [] := by
  have htotal := h.total
  rw [hnone] at htotal
  apply eq_nil_iff_forall_not_mem.mpr
  intro a ha
  obtain ⟨k, hk, -⟩ := h.packets a ha
  rw [← htotal] at hk
  exact absurd hk (Nat.not_lt_zero k)

variable {t : Dls}

lemma Held.of_sameLayout (h : r.Held) (hlayout : SameLayout r.s t)
    (hmem : t.mem = r.s.mem) (htotal : t.totalBufCount = r.s.totalBufCount)
    (hcurrent : t.currentBufCount = r.s.currentBufCount) {enabled : List UInt32}
    (hcodes : t.CodesIn enabled) : Held ⟨t, r.out, enabled⟩ := by
  have hstate : t.available = r.s.available := by
    funext k
    rw [available, hlayout.pktState hmem, available]
  refine { sound_of_counts ?_ ?_ with
    laid := hlayout.laid h.laid, out_iff := ?_, packets := ?_, codes := hcodes }
  · rw [htotal, hlayout.numPkts, h.total]
  · rw [hcurrent, hlayout.numPkts, hstate, h.current]
  · intro k hk
    rw [hlayout.numPkts] at hk
    rw [hlayout.pktAddr, hstate]
    exact h.out_iff k hk
  · intro a ha
    exact hlayout.isPacket.mpr (h.packets a ha)

section

variable {cfg : DlsConfigBuffer} {k : ℕ} (h : r.Held)
include h

/-- A configuration that is stored only. -/
lemma Held.withConfig (hkeeps : r.s.Keeps cfg) : Held ⟨r.s.withConfig cfg, r.out, r.enabled⟩ := by
  rcases hkeeps with ⟨hnone, hnum⟩ | hlayout
  · have hnil := h.out_eq_nil hnone
    have hcurrent : r.s.currentBufCount.toNat = 0 := by
      have hle := UInt32.le_iff_toNat_le.mp h.current_le
      rw [hnone] at hle
      exact Nat.le_zero.mp hle
    refine { sound_of_counts ?_ ?_ with
      laid := laid_of_none hnum, out_iff := ?_, packets := ?_,
      codes := ⟨h.codes.mem, h.codes.once⟩ }
    · rw [hnum]
      exact congrArg UInt32.toNat hnone
    · rw [hnum]
      exact hcurrent
    · exact fun k hk => absurd hk (by rw [hnum]; exact Nat.not_lt_zero _)
    · intro a ha
      rw [hnil] at ha
      exact absurd ha not_mem_nil
  · exact h.of_sameLayout hlayout rfl rfl rfl ⟨h.codes.mem, h.codes.once⟩

/-- A configuration whose packets are marked and counted. -/
lemma Held.marked (hstarts : r.s.StartsWith cfg) (hmarked : Marked 0 (r.s.withConfig cfg) t) :
    Held ⟨{ t with currentBufCount := t.totalBufCount }, r.out, r.enabled⟩ := by
  obtain ⟨hnone, -, hlaid⟩ := hstarts
  have hnil := h.out_eq_nil hnone
  have hlayout : SameLayout (r.s.withConfig cfg) { t with currentBufCount := t.totalBufCount } :=
    .of_config hmarked.config
  have hcount : t.totalBufCount.toNat = (r.s.withConfig cfg).numPkts := by
    rw [hmarked.count, Nat.sub_zero]
    change (r.s.totalBufCount + _).toNat = _
    rw [hnone, UInt32.zero_add, UInt32.toNat_ofNat', Nat.mod_eq_of_lt (numPkts_lt _)]
  have hall : ∀ k < (r.s.withConfig cfg).numPkts,
      ({ t with currentBufCount := t.totalBufCount } : Dls).available k = true := by
    intro k hk
    have hstate := hmarked.states k hk
    exact beq_iff_eq.mpr hstate
  refine { sound_of_counts ?_ ?_ with
    laid := hlayout.laid hlaid, out_iff := ?_, packets := ?_, codes := ⟨?_, ?_⟩ }
  · rw [hlayout.numPkts]
    exact hcount
  · rw [hlayout.numPkts]
    have hcountP : (range (r.s.withConfig cfg).numPkts).countP
        ({ t with currentBufCount := t.totalBufCount } : Dls).available =
          (range (r.s.withConfig cfg).numPkts).length :=
      countP_eq_length.mpr fun k hk => hall k (mem_range.mp hk)
    rw [hcountP, length_range]
    exact hcount
  · intro k hk
    rw [hlayout.numPkts] at hk
    rw [hall k hk]
    rw [hnil]
    simp
  · intro a ha
    rw [hnil] at ha
    exact absurd ha not_mem_nil
  · intro c hc
    rw [hmarked.codes] at hc
    exact h.codes.mem c hc
  · intro c
    rw [hmarked.codes]
    exact h.codes.once c

/-- Packet `k` is worked on: the books are in order again when the current count is, and the packet
is out exactly when it is not available. -/
lemma Held.rewrites (hk : k < r.s.numPkts) (hrewrites : Rewrites k r.s t)
    (htotal : t.totalBufCount = r.s.totalBufCount) (hcodes : t.logCode = r.s.logCode)
    {out : List UInt64}
    (hcurrent : t.currentBufCount.toNat = (range r.s.numPkts).countP t.available)
    (hself : r.s.pktAddr k ∈ out ↔ t.available k = false)
    (hothers : ∀ a, a ≠ r.s.pktAddr k → (a ∈ out ↔ a ∈ r.out)) : Held ⟨t, out, r.enabled⟩ := by
  have hlayout := hrewrites.toSameLayout
  refine { sound_of_counts ?_ ?_ with
    laid := hlayout.laid h.laid, out_iff := ?_, packets := ?_, codes := ⟨?_, ?_⟩ }
  · rw [htotal, hlayout.numPkts, h.total]
  · rw [hlayout.numPkts]
    exact hcurrent
  · intro j hj
    rw [hlayout.numPkts] at hj
    rw [hlayout.pktAddr]
    by_cases hjk : j = k
    · rw [hjk]
      exact hself
    · rw [hothers _ (mt (h.laid.pktAddr_inj hj hk) hjk), h.out_iff j hj, available, available,
        hrewrites.pktState (h.laid.header (by omega)) hjk]
  · intro a ha
    apply hlayout.isPacket.mpr
    by_cases hself : a = r.s.pktAddr k
    · exact ⟨k, hk, hself⟩
    · exact h.packets a ((hothers a hself).mp ha)
  · intro c hc
    rw [hcodes] at hc
    exact h.codes.mem c hc
  · intro c
    rw [hcodes]
    exact h.codes.once c

lemma Held.available_of_rewrites (hrewrites : Rewrites k r.s t) {j : ℕ} (hj : j < r.s.numPkts)
    (hjk : j ≠ k) : t.available j = r.s.available j := by
  rw [available, available, hrewrites.pktState (h.laid.header (by omega)) hjk]

end

section

variable {k : ℕ} (h : r.Held) (hk : k < r.s.numPkts)
include h hk

lemma Held.rewrites_same (hrewrites : Rewrites k r.s t)
    (htotal : t.totalBufCount = r.s.totalBufCount)
    (hcurrent : t.currentBufCount = r.s.currentBufCount) (hcodes : t.logCode = r.s.logCode)
    (hstate : t.available k = r.s.available k) : Held ⟨t, r.out, r.enabled⟩ := by
  refine h.rewrites hk hrewrites htotal hcodes ?_ ?_ fun a _ => Iff.rfl
  · rw [hcurrent, h.current]
    apply countP_congr
    intro j hj
    rw [mem_range] at hj
    by_cases hjk : j = k
    · rw [hjk, hstate]
    · rw [h.available_of_rewrites hrewrites hj hjk]
  · rw [h.out_iff k hk, hstate]

/-- A packet is handed out. -/
lemma Held.handsOut (hav : r.s.available k = true) (ht : HandsOut k r.s t) :
    Held ⟨t, r.s.pktAddr k :: r.out, r.enabled⟩ := by
  have hnot : t.available k = false := by
    rw [available, ht.state]
    rfl
  have hcount : (range r.s.numPkts).countP r.s.available =
      (range r.s.numPkts).countP t.available + 1 :=
    countP_range_succ_of_eq_except hk hnot hav
      fun j hj hjk => h.available_of_rewrites ht.toRewrites hj hjk
  have hcurrent := h.current
  refine h.rewrites hk ht.toRewrites ht.count ht.codes ?_ ?_ ?_
  · have hone : (1 : UInt32) ≤ r.s.currentBufCount := by
      rw [UInt32.le_iff_toNat_le, hcurrent, hcount]
      exact Nat.le_add_left 1 _
    rw [ht.current, UInt32.toNat_sub_of_le _ _ hone, hcurrent, hcount]
    exact Nat.add_sub_cancel _ 1
  · rw [hnot]
    simp
  · intro a ha
    rw [mem_cons]
    exact or_iff_right ha

/-- A packet comes back. -/
lemma Held.comesBack (hav : r.s.available k = false) :
    Held ⟨{ r.s.clearBuf (r.s.pktAddr k) with currentBufCount := r.s.currentBufCount + 1 },
      r.out.filter (· ≠ r.s.pktAddr k), r.enabled⟩ := by
  obtain ⟨hclear, hstate⟩ := h.laid.rewrites_clearBuf hk
  have hrewrites : Rewrites k r.s
      { r.s.clearBuf (r.s.pktAddr k) with currentBufCount := r.s.currentBufCount + 1 } :=
    ⟨⟨hclear.start, hclear.size, hclear.total⟩, hclear.mem⟩
  have hnow : ({ r.s.clearBuf (r.s.pktAddr k) with
      currentBufCount := r.s.currentBufCount + 1 } : Dls).available k = true :=
    beq_iff_eq.mpr hstate
  have hcount := countP_range_succ_of_eq_except hk hav hnow
    fun j hj hjk => (h.available_of_rewrites hrewrites hj hjk).symm
  refine h.rewrites hk hrewrites rfl rfl ?_ ?_ ?_
  · have hlt : r.s.currentBufCount.toNat + 1 < 2 ^ 32 := by
      have hle : (range r.s.numPkts).countP ({ r.s.clearBuf (r.s.pktAddr k) with
          currentBufCount := r.s.currentBufCount + 1 } : Dls).available ≤ r.s.numPkts := by
        calc _ ≤ (range r.s.numPkts).length := countP_le_length
          _ = r.s.numPkts := length_range
      have := numPkts_lt r.s
      rw [h.current]
      omega
    rw [UInt32.toNat_add, show (1 : UInt32).toNat = 1 from rfl, Nat.mod_eq_of_lt hlt, h.current,
      hcount]
  · rw [hnow]
    simp
  · intro a ha
    simp [mem_filter, ha]

end

/-! ## The step -/

lemma Held.not_mem_of_skips (h : r.Held) {a : UInt64} (hskips : r.s.Skips a) : a ∉ r.out := by
  intro ha
  obtain ⟨k, hk, rfl⟩ := h.packets a ha
  rcases hskips with ⟨hlt, -⟩ | hstate
  · have hle : r.s.memStart ≤ r.s.pktStart k := Nat.le_add_right _ _
    have hlt := UInt64.lt_iff_toNat_lt.mp hlt
    rw [h.laid.toNat_pktAddr hk] at hlt
    exact absurd hlt (not_lt.mpr hle)
  · have hout := (h.out_iff k hk).mp ha
    rw [h.laid.bufState_pktAddr hk] at hstate
    rw [available, hstate] at hout
    contradiction

/-- What the return of one address guarantees. -/
structure Returned (r : DlsRun) (a : UInt64) : Prop where
  held : Held ⟨r.s.returnBuf a, r.out.filter (· ≠ a), r.enabled⟩
  layout : SameLayout r.s (r.s.returnBuf a)
  inside : ∀ p, p < r.s.memStart ∨ r.s.memStart + r.s.memSize ≤ p →
    (r.s.returnBuf a).mem p = r.s.mem p
  alone : ¬r.s.IsPacket a → (r.s.returnBuf a).mem = r.s.mem

/-- A returned packet, or an address that the code leaves alone. -/
lemma Held.returnBuf (h : r.Held) {a : UInt64} (hfits : r.s.IsPacket a ∨ r.s.Skips a) :
    r.Returned a := by
  have hlayout : SameLayout r.s (r.s.returnBuf a) := .of_config (config_returnBuf r.s a)
  rcases returnBuf_eq r.s a with ⟨heq, hskips⟩ | ⟨heq, hnot⟩
  · have hfilter : r.out.filter (· ≠ a) = r.out := by
      apply filter_eq_self.mpr
      intro b hb
      apply decide_eq_true
      rintro rfl
      exact h.not_mem_of_skips hskips hb
    refine ⟨?_, hlayout, ?_, ?_⟩
    · rw [heq, hfilter]
      exact h
    · intro p _
      rw [heq]
    · intro _
      rw [heq]
  · obtain ⟨k, hk, rfl⟩ := hfits.resolve_right hnot
    have hav : r.s.available k = false := by
      apply beq_eq_false_iff_ne.mpr
      intro hstate
      apply hnot
      rw [← h.laid.bufState_pktAddr hk] at hstate
      exact .inr hstate
    refine ⟨?_, hlayout, ?_, ?_⟩
    · rw [heq]
      exact h.comesBack hk hav
    · intro p hp
      rw [heq]
      exact (h.laid.rewrites_clearBuf hk).1.outside hk hp
    · intro hno
      exact absurd ⟨k, hk, rfl⟩ hno

/-- The returns of a command, one after the other. -/
lemma Held.returnBufs (addrs : List UInt64) : ∀ {r : DlsRun}, r.Held →
    Meets Dls.returnBuf (fun s a => s.IsPacket a ∨ s.Skips a) r.s addrs →
      Held ⟨run Dls.returnBuf r.s addrs, r.out.filter (· ∉ addrs), r.enabled⟩ ∧
        SameLayout r.s (run Dls.returnBuf r.s addrs) ∧
        (∀ p, p < r.s.memStart ∨ r.s.memStart + r.s.memSize ≤ p →
          (run Dls.returnBuf r.s addrs).mem p = r.s.mem p) ∧
        Meets Dls.returnBuf (fun s a => ¬s.IsPacket a → (s.returnBuf a).mem = s.mem) r.s addrs := by
  induction addrs with
  | nil =>
    intro r h _
    refine ⟨?_, ⟨rfl, rfl, rfl⟩, fun _ _ => rfl, trivial⟩
    rw [filter_eq_self.mpr fun _ _ => decide_eq_true not_mem_nil]
    exact h
  | cons a addrs ih =>
    intro r h hfits
    have hone := h.returnBuf hfits.1
    obtain ⟨hheld, hlayout, hinside, halone⟩ := ih hone.held hfits.2
    refine ⟨?_, hone.layout.trans hlayout, ?_, hone.alone, halone⟩
    · have hfilter : r.out.filter (· ∉ a :: addrs) = (r.out.filter (· ≠ a)).filter (· ∉ addrs) := by
        rw [filter_filter]
        apply filter_congr
        intro b _
        simp [mem_cons, Bool.and_comm]
      rw [hfilter]
      exact hheld
    · intro p hp
      have hrest := hinside p (by
        rwa [hone.layout.memStart, hone.layout.memSize])
      rw [run_cons, hrest]
      exact hone.inside p hp

/-- A call that asks for a packet gets one that is available, for an enabled code, or none. -/
lemma Held.acquire_cases (h : r.Held) {percent : UInt32 → UInt32 → UInt32} {timestamp : UInt64}
    {logCode : UInt16} {logPacketSize : UInt32}
    (hfits : r.s.Fits (.acquire percent timestamp logCode logPacketSize)) :
    r.s.acquireBuffer dlsRounds percent timestamp logCode logPacketSize = some (0, r.s) ∨
      ∃ k < r.s.numPkts, r.s.available k = true ∧ ∃ t,
        r.s.acquireBuffer dlsRounds percent timestamp logCode logPacketSize =
          some (r.s.pktAddr k + UInt64.ofNat dlsBufHdrSize, t) ∧
        HandsOut k r.s t ∧ 12 < r.s.pktSize ∧ logCode.toUInt32 ∈ r.enabled := by
  by_cases hcode : (r.s.isLogCodeExists logCode.toUInt32).isNone = true
  · left
    simp only [acquireBuffer, hcode, if_true]
  by_cases hlong : r.s.configBufferInfo.maxLogPktSize < logPacketSize + UInt32.ofNat dlsBufHdrSize
  · left
    simp only [acquireBuffer, if_neg hcode, if_pos hlong]
  have hrest := (hfits.resolve_left hcode).resolve_left hlong
  rw [Bool.not_eq_true] at hcode
  rcases hrest with ⟨hnone, hpos⟩ | ⟨hne, hsize⟩
  · left
    have hcount := h.current
    rw [hnone] at hcount
    rcases h.laid.findBuf_eq hpos (numPkts_lt r.s) with ⟨k, hk, hav, -⟩ | ⟨-, hfind⟩
    · have hzero := countP_eq_zero.mp hcount.symm k (mem_range.mpr hk)
      exact absurd hav hzero
    · simp only [acquireBuffer, hcode, if_neg hlong]
      rw [show r.s.findBuf dlsRounds 0 = some none from hfind]
      rfl
  · rcases h.laid.acquireBuffer_cases hsize (numPkts_lt r.s) hcode hlong with
      ⟨k, hk, hav, t, hcall, ht⟩ | hcall
    · refine .inr ⟨k, hk, hav, t, hcall, ht, by omega, ?_⟩
      obtain ⟨i, hi⟩ := Option.isSome_iff_exists.mp (Option.isNone_eq_false_iff.mp hcode)
      obtain ⟨hlt, hmem⟩ := isLogCodeExists_eq_some hi
      refine h.codes.mem _ (hmem ▸ getElem_mem hlt) ?_
      intro hzero
      exact hne (UInt16.toNat_inj.mp (congrArg UInt32.toNat hzero))
    · exact .inl hcall

/-- A call keeps the invariant and guarantees what it should. -/
lemma Held.step (h : r.Held) {c : DlsCall} (hfits : r.s.Fits c) :
    (r.step c).Held ∧ r.Guarantees c := by
  cases c with
  | config translate cfg paramSize =>
    obtain ⟨e, t, hcall, ht⟩ := setParamConfigBuffer_cases hfits
    have hperform : r.s.perform (.config translate cfg paramSize) = some (0, t) := by
      rw [perform, hcall]
      rfl
    have hstep : r.step (.config translate cfg paramSize) = ⟨t, r.out, r.enabled⟩ := by
      rw [DlsRun.step, hperform]
      rfl
    have hboth : Held ⟨t, r.out, r.enabled⟩ ∧
        ∀ p, p < t.memStart ∨ t.memStart + t.memSize ≤ p → t.mem p = r.s.mem p := by
      rcases ht with rfl | ⟨cfg', hkeeps, rfl⟩ | ⟨cfg', t', hstarts, hmarked, rfl⟩
      · exact ⟨h, fun _ _ => rfl⟩
      · exact ⟨h.withConfig hkeeps, fun _ _ => rfl⟩
      · refine ⟨h.marked hstarts hmarked, ?_⟩
        have hlayout : SameLayout (r.s.withConfig cfg')
            { t' with currentBufCount := t'.totalBufCount } := .of_config hmarked.config
        intro p hp
        rw [hlayout.memStart, hlayout.memSize] at hp
        exact hmarked.outside p hp
    rw [hstep]
    exact ⟨hboth.1, ⟨by rw [hperform]; rfl, by rw [hstep]; exact hboth.2, trivial, trivial⟩⟩
  | logCodes abi m p paramSize =>
    obtain ⟨l, hcall, hcodes⟩ := setParamLogCode_table h.codes abi m p paramSize
    have hperform : r.s.perform (.logCodes abi m p paramSize) =
        some (0, { r.s with logCode := l }) := by
      rw [perform, hcall]
    have hstep : r.step (.logCodes abi m p paramSize) = ⟨{ r.s with logCode := l }, r.out,
        Dls.enabledAfter abi m p paramSize r.enabled⟩ := by
      rw [DlsRun.step, hperform]
      rfl
    rw [hstep]
    refine ⟨h.of_sameLayout (t := { r.s with logCode := l }) (.of_config rfl) rfl rfl rfl hcodes,
      ⟨by rw [hperform]; rfl, ?_, trivial, trivial⟩⟩
    rw [hstep]
    exact fun _ _ => rfl
  | acquire percent timestamp logCode logPacketSize =>
    rcases h.acquire_cases hfits with hcall | ⟨k, hk, hav, t, hcall, ht, hsize, henabled⟩
    · have hstep : r.step (.acquire percent timestamp logCode logPacketSize) = r := by
        rw [DlsRun.step, perform, hcall]
        rfl
      rw [hstep]
      refine ⟨h, ⟨by rw [perform, hcall]; rfl, by rw [hstep]; exact fun _ _ => rfl, ?_, trivial⟩⟩
      intro result t hresult hne
      rw [perform, hcall] at hresult
      cases hresult
      exact absurd rfl hne
    · have haddr := h.laid.toNat_pktAddr_add hk hsize
      have hne : r.s.pktAddr k + UInt64.ofNat dlsBufHdrSize ≠ 0 := by
        intro hzero
        rw [hzero] at haddr
        exact absurd haddr (by rw [show (0 : UInt64).toNat = 0 from rfl]; omega)
      have hback : r.s.pktAddr k + UInt64.ofNat dlsBufHdrSize - UInt64.ofNat dlsBufHdrSize =
          r.s.pktAddr k := UInt64.add_sub_cancel _ _
      have hstep : r.step (.acquire percent timestamp logCode logPacketSize) =
          ⟨t, r.s.pktAddr k :: r.out, r.enabled⟩ := by
        rw [DlsRun.step, perform, hcall]
        simp only [outAfter, if_pos hne, hback]
        rfl
      rw [hstep]
      refine ⟨h.handsOut hk hav ht, ⟨by rw [perform, hcall]; rfl, ?_, ?_, trivial⟩⟩
      · rw [hstep]
        intro p hp
        rw [ht.memStart, ht.memSize] at hp
        exact ht.outside hk hp
      · intro result t' hresult _
        rw [perform, hcall] at hresult
        cases hresult
        rw [hback]
        refine ⟨⟨k, hk, rfl⟩, ?_, henabled⟩
        intro hout
        rw [h.out_iff k hk, hav] at hout
        contradiction
  | commit logPkt =>
    obtain ⟨⟨k, hk, haddr⟩, hstate⟩ := hfits
    have hheader := h.laid.header (by omega)
    have hrewrites := h.laid.rewrites_storeField hk (show 4 + 4 ≤ _ by omega) dlsBufReady
    have hready := h.laid.pktState_storeField hk dlsBufReady
    rw [haddr, h.laid.bufState_pktAddr hk] at hstate
    have hstep : r.step (.commit logPkt) =
        ⟨r.s.storeField (r.s.pktAddr k) 4 dlsBufReady, r.out, r.enabled⟩ := by
      rw [DlsRun.step, perform, commitBuffer, haddr]
      rfl
    rw [hstep]
    refine ⟨h.rewrites_same hk hrewrites rfl rfl rfl ?_, ⟨rfl, ?_, trivial, trivial⟩⟩
    · rw [available, hready, available, beq_eq_false_iff_ne.mpr hstate]
      rfl
    · rw [hstep]
      intro p hp
      exact hrewrites.outside hk hp
  | free logPkt =>
    by_cases hnull : logPkt = 0
    · have hstep : r.step (.free logPkt) = r := by
        rw [DlsRun.step, perform, logBufFree, if_pos hnull]
        simp only [outAfter, if_pos hnull]
        rfl
      rw [hstep]
      exact ⟨h, ⟨rfl, by rw [hstep]; exact fun _ _ => rfl, trivial, trivial⟩⟩
    · obtain ⟨⟨k, hk, haddr⟩, hstate⟩ := hfits.resolve_left hnull
      obtain ⟨hrewrites, hnow⟩ := h.laid.rewrites_clearBuf hk
      rw [haddr] at hstate
      -- the packet was available before, so it is not out
      have hfilter : r.out.filter (· ≠ r.s.pktAddr k) = r.out := by
        apply filter_eq_self.mpr
        intro b hb
        apply decide_eq_true
        rintro rfl
        exact h.not_mem_of_skips (.inr hstate) hb
      have hstep : r.step (.free logPkt) = ⟨r.s.clearBuf (r.s.pktAddr k), r.out, r.enabled⟩ := by
        rw [DlsRun.step, perform, logBufFree, if_neg hnull, haddr]
        simp only [outAfter, if_neg hnull, haddr, hfilter]
        rfl
      rw [h.laid.bufState_pktAddr hk] at hstate
      rw [hstep]
      refine ⟨h.rewrites_same hk hrewrites rfl rfl rfl ?_, ⟨rfl, ?_, trivial, trivial⟩⟩
      · rw [available, hnow, available, hstate]
      · rw [hstep]
        intro p hp
        exact hrewrites.outside hk hp
  | bufferReturn translate pkt =>
    obtain ⟨hheld, hlayout, hinside, halone⟩ := h.returnBufs _ hfits
    have hperform : r.s.perform (.bufferReturn translate pkt) =
        some (0, run Dls.returnBuf r.s (r.s.returnedBufs translate pkt)) := by
      rw [perform, bufferReturn_eq]
    have hstep : r.step (.bufferReturn translate pkt) =
        ⟨run Dls.returnBuf r.s (r.s.returnedBufs translate pkt),
          r.out.filter (· ∉ r.s.returnedBufs translate pkt), r.enabled⟩ := by
      rw [DlsRun.step, hperform]
      rfl
    refine ⟨?_, ⟨by rw [hperform]; rfl, ?_, trivial, halone⟩⟩
    · rw [hstep]
      exact hheld
    · rw [hstep]
      intro p hp
      rw [hlayout.memStart, hlayout.memSize] at hp
      exact hinside p hp

/-- **The books of the packets are kept** along every run of calls whose arguments the code can
deal with. -/
theorem dls_keepsBooks (mem : ℕ → UInt8) (calls : List DlsCall)
    (hfits : Meets step (fun r c => r.s.Fits c) (init mem) calls) :
    Along step Sound (init mem) calls ∧ Meets step Guarantees (init mem) calls := by
  have hheld : Along step Held (init mem) calls :=
    along_of_meets (fun r c h hc => (h.step hc).1) (held_init mem) hfits
  exact ⟨hheld.mono fun r h => h.toSound,
    meets_of_along (fun r c h hc => (h.step hc).2) hheld hfits⟩

/-! ## Two runs -/

instance (s : Dls) : Decidable s.Laid :=
  decidable_of_iff ((0 < s.numPkts → 8 ≤ s.pktSize) ∧
      (0 < s.numPkts → s.memStart + s.memSize ≤ 2 ^ 64) ∧
      (0 < s.numPkts → (s.numPkts + 1) * s.pktSize < 2 ^ 32))
    ⟨fun h => ⟨h.1, h.2.1, h.2.2⟩, fun h => ⟨h.header, h.addresses, h.offsets⟩⟩

instance (s : Dls) (cfg : DlsConfigBuffer) : Decidable (s.Keeps cfg) :=
  inferInstanceAs (Decidable (_ ∧ _ ∨ SameLayout _ _))

instance (s : Dls) (cfg : DlsConfigBuffer) : Decidable (s.StartsWith cfg) :=
  inferInstanceAs (Decidable (_ ∧ _ ∧ Laid _))

instance (s : Dls) (cfg : DlsConfigBuffer) (a : Option UInt64) : Decidable (s.MappedFits cfg a) :=
  match a with
  | none => inferInstanceAs (Decidable (s.Keeps cfg))
  | some a =>
    inferInstanceAs (Decidable (if a = 0 ∨ a &&& 7 ≠ 0 then s.Keeps (located cfg a)
      else if cfg.isCfg = 1 then s.StartsWith (sized (located cfg a))
      else s.Keeps (located cfg a) ∧ s.currentBufCount = s.totalBufCount))

instance (s : Dls) (translate : DlsTranslate) (cfg : DlsConfigBuffer) (paramSize : UInt32) :
    Decidable (s.ConfigFits translate cfg paramSize) :=
  inferInstanceAs (Decidable (_ → _))

instance (s : Dls) (a : UInt64) : Decidable (s.IsPacket a) :=
  inferInstanceAs (Decidable (∃ k < s.numPkts, a = s.pktAddr k))

instance (s : Dls) (a : UInt64) : Decidable (s.Skips a) :=
  inferInstanceAs (Decidable (_ ∧ _ ∨ _))

instance (s : Dls) (c : DlsCall) : Decidable (s.Fits c) :=
  match c with
  | .config translate cfg paramSize =>
    inferInstanceAs (Decidable (s.ConfigFits translate cfg paramSize))
  | .logCodes _ _ _ _ => isTrue trivial
  | .acquire _ _ _ _ => inferInstanceAs (Decidable (_ ∨ _ ∨ _ ∧ _ ∨ _ ∧ _))
  | .commit _ => inferInstanceAs (Decidable (_ ∧ _))
  | .free _ => inferInstanceAs (Decidable (_ ∨ _ ∧ _))
  | .bufferReturn translate pkt =>
    inferInstanceAs (Decidable (Meets returnBuf (fun s a => s.IsPacket a ∨ s.Skips a) s
      (s.returnedBufs translate pkt)))

/-- The memory map gives every address back. -/
def identityMap : DlsTranslate := fun _ lsw msw _ => some ((msw.toUInt64 <<< 32) ||| lsw.toUInt64)

/-- Memory that holds the words `ws` from the start. -/
def wordsMem (ws : List UInt32) : ℕ → UInt8 := fun p => (ws.flatMap wordBytes).getD p 0

/-- A memory of 80 bytes for packets of 32 bytes. -/
def cfg80 : DlsConfigBuffer := ⟨0x1000, 0, 1, 80, 32, 1⟩

/-- The return of the packets at the addresses `as`. -/
def returnPkt (as : List UInt32) (h : 4 + 12 * as.length < 2 ^ 32) : DlsPkt :=
  ⟨dlsDataCmdBufferReturn, 0, 0, 0,
    wordsMem (UInt32.ofNat as.length :: as.flatMap fun a => [a, 0, 1]), 4 + 12 * as.length, h⟩

/-- Both packets are acquired, one is committed and returned, and is acquired again. -/
def acquireTwice : List DlsCall :=
  [.logCodes .bits32 (wordsMem [1, 2, 0x1375, 0x1376]) 0 16, .config identityMap cfg80 24,
    .acquire (fun _ _ => 50) 7 0x1375 20, .acquire (fun _ _ => 0) 8 0x1376 12, .commit 0x100C,
    .acquire (fun _ _ => 0) 9 0x1375 4,
    .bufferReturn identityMap (returnPkt [0x1000, 0x1000] (by decide)),
    .acquire (fun _ _ => 0) 10 0x1376 8, .logCodes .bits32 (wordsMem [0, 1, 0x1376]) 0 12,
    .acquire (fun _ _ => 0) 11 0x1376 8]

theorem dls_keepsBooks_acquireTwice : Along step Sound (init fun _ => 0xAA) acquireTwice ∧
      Meets step Guarantees (init fun _ => 0xAA) acquireTwice :=
  dls_keepsBooks (fun _ => 0xAA) acquireTwice (by decide +kernel)

/-- **The claim fails.** A second configuration of the same memory counts its two packets again. -/
theorem not_dls_keepsBooks : ¬ ∀ (mem : ℕ → UInt8) (calls : List DlsCall),
      Along step Sound (init mem) calls ∧ Meets step Guarantees (init mem) calls := by
  intro h
  have htotal := (h (fun _ => 0)
    [.config identityMap cfg80 24, .config identityMap cfg80 24]).1.last.total
  revert htotal
  decide +kernel

end DlsRun

end AudioReach
