import AudioReach.ArResult
import AudioReach.Library.Words

/-!
# The data logging service

`dls.c`, `dls_set_param_handler.c` and `dls_gpr_cmd_handler.c`.  A client gives the service a
stretch of shared memory, which is cut into packets of one size; each packet starts with a header
that holds its state.  The service hands packets out to be logged into, commits them to the client
and gets them back with a command.  The number of packets and of those that are available are kept
in two global counters.

The address space is a function from addresses to bytes.  The memory map service, the timer and
the percentage that is computed in floating point are arguments.  Of the packets of the router the
model has the fields and the bytes that the service reads; `events` are, in order, the accesses to
the packet of a command, the uses of the mutex and the calls that end the command.  A loop has
`fuel` rounds and gives `none` if it needs more.  Log messages are left out.
-/

namespace AudioReach

open Library List

/-! ## Data -/

/-- `dls_param_id_config_buffer_t`. -/
structure DlsConfigBuffer where
  bufStartAddrLsw : UInt32
  bufStartAddrMsw : UInt32
  memMapHandle : UInt32
  totalBufSize : UInt32
  maxLogPktSize : UInt32
  isCfg : UInt32
  deriving DecidableEq, Repr

/-- `dls_event_client_info_t`. -/
structure DlsEventClientInfo where
  eventId : UInt32
  gprDomain : UInt32
  gprPort : UInt32
  gprClientToken : UInt32
  deriving DecidableEq, Repr

/-- `dls_buf_start_addr_t`. -/
structure DlsBufStartAddr where
  bufAddrLsw : UInt32
  bufAddrMsw : UInt32
  memMapHandle : UInt32
  deriving DecidableEq, Repr

/-- `posal_memorymap_get_virtual_addr_from_shm_handle_v2` for the client of the service: the
address for a handle, the two halves of an offset or address, and a size. -/
abbrev DlsTranslate := UInt32 → UInt32 → UInt32 → UInt32 → Option UInt64

/-- The globals of the service, `client_info` of `g_dls_info` and the memory. -/
structure Dls where
  /-- `g_dls_config_buffer_info`. -/
  configBufferInfo : DlsConfigBuffer
  /-- `g_dls_total_buf_count`. -/
  totalBufCount : UInt32
  /-- `g_dls_current_buf_count`. -/
  currentBufCount : UInt32
  /-- `g_dls_log_code`. -/
  logCode : List UInt32
  clientInfo : List DlsEventClientInfo
  mem : ℕ → UInt8

/-- A packet of the router that carries a command. -/
structure DlsPkt where
  opcode : UInt32
  srcDomainId : UInt32
  srcPort : UInt32
  token : UInt32
  payload : ℕ → UInt8
  size : ℕ
  /-- The size of a packet is a `uint32_t`. -/
  size_lt : size < 2 ^ 32

/-- What the handling of a command does to its packet and to the mutex. -/
inductive DlsEvent
  /-- The packet is read. -/
  | touch
  /-- The walk over the parameters reads `n` bytes of the payload behind the command header. -/
  | payloadRead (off n : ℕ)
  /-- A parameter of `n` bytes is handed to its handler. -/
  | handParam (off n : ℕ)
  /-- `posal_mutex_lock`. -/
  | lock
  /-- `posal_mutex_unlock`. -/
  | unlock
  /-- `__gpr_cmd_end_command`. -/
  | endCommand (status : ArResult)
  deriving DecidableEq, Repr

/-- `APM_CMD_REGISTER_MODULE_EVENTS`. -/
def apmCmdRegisterModuleEvents : UInt32 := 0x0100100E

/-- `APM_CMD_SET_CFG`. -/
def apmCmdSetCfg : UInt32 := 0x01001006

/-- `DLS_DATA_CMD_BUFFER_RETURN`. -/
def dlsDataCmdBufferReturn : UInt32 := 0x0400100D

/-- `DLS_MODULE_INSTANCE_ID`. -/
def dlsModuleInstanceId : UInt32 := 0x0000000A

/-- `DLS_PARAM_ID_CONFIG_BUFFER`. -/
def dlsParamIdConfigBuffer : UInt32 := 0x08001A83

/-- `DLS_PARAM_ID_ENABLE_DISABLE_LOG_CODE`. -/
def dlsParamIdEnableDisableLogCode : UInt32 := 0x08001A84

/-- `DLS_MAX_NUM_LOG_CODES`. -/
def dlsMaxNumLogCodes : ℕ := 32

/-- `MAX_DLS_EVENT_CLIENTS`. -/
def maxDlsEventClients : ℕ := 4

/-- `DLS_SET_BUF_SIZE_TO_DEFAULT`. -/
def dlsSetBufSizeToDefault : UInt32 := 0xFFFFFFFF

/-- `DLS_DEFAULT_MAX_LOG_PKT_SIZE`. -/
def dlsDefaultMaxLogPktSize : UInt32 := 3360

/-- `sizeof(dls_buf_hdr_t)`. -/
def dlsBufHdrSize : ℕ := 12

/-- `DLS_BUF_AVAILABLE`. -/
def dlsBufAvailable : UInt32 := 1

/-- `DLS_BUF_ACQUIRED`. -/
def dlsBufAcquired : UInt32 := 2

/-- `DLS_BUF_READY`. -/
def dlsBufReady : UInt32 := 3

/-- `ALIGN_8_BYTES`. -/
def align8Bytes (a : UInt32) : UInt32 := (a + 7) &&& 0xFFFFFFF8

namespace Dls

/-- The service after the boot. -/
def init (mem : ℕ → UInt8) : Dls :=
  ⟨⟨0, 0, 0, 0, 0, 0⟩, 0, 0, replicate dlsMaxNumLogCodes 0,
    replicate maxDlsEventClients ⟨0, 0, 0, 0⟩, mem⟩

variable (s : Dls)

/-- The start of the configured memory, from its two halves. -/
def bufStartAddr : UInt64 :=
  (s.configBufferInfo.bufStartAddrMsw.toUInt64 <<< 32) |||
    s.configBufferInfo.bufStartAddrLsw.toUInt64

/-- A store to the field `buf_size`, `buf_state` or `buf_in_use` of a packet header. -/
def storeField (a : UInt64) (off : ℕ) (v : UInt32) : Dls :=
  { s with mem := putAt s.mem (a.toNat + off) (wordBytes v) }

/-- `buf_state` of the packet at `a`. -/
def bufState (a : UInt64) : UInt32 := wordAt s.mem (a.toNat + 4)

/-- The packet at `a` is zeroed out and marked as available. -/
def clearBuf (a : UInt64) : Dls :=
  let zeros := replicate s.configBufferInfo.maxLogPktSize.toNat 0
  storeField { s with mem := putAt s.mem a.toNat zeros } a 4 dlsBufAvailable

/-! ## Log codes -/

/-- `dls_is_log_code_exists`. -/
def isLogCodeExists (logCode : UInt32) : Option ℕ := s.logCode.findIdx? (· == logCode)

/-- The loop that puts a log code into an empty entry. -/
def addLogCode (logCode : UInt32) : Dls :=
  match s.isLogCodeExists 0 with
  | none => s
  | some i => { s with logCode := s.logCode.set i logCode }

/-- The loop of `dls_set_param_log_code` that enables log codes: gives the number of codes that
were read. -/
def enableLogCodes (s : Dls) : List UInt32 → ArResult × Dls × ℕ
  | [] => (.eok, s, 0)
  | c :: cs =>
    if c = 0 then (.ebadparam, s, 1)
    else
      let r := enableLogCodes (if (s.isLogCodeExists c).isSome then s else s.addLogCode c) cs
      (r.1, r.2.1, r.2.2 + 1)

/-- The loop of `dls_set_param_log_code` that disables log codes. -/
def disableLogCodes (s : Dls) : List UInt32 → Dls
  | [] => s
  | c :: cs =>
    match s.isLogCodeExists c with
    | none => disableLogCodes s cs
    | some i => disableLogCodes { s with logCode := s.logCode.set i 0 } cs

/-- The size of the parameter with `numLogCodes` codes, in the type of `sizeof`. -/
def logCodeParamSize (abi : Abi) (numLogCodes : UInt32) : ℕ :=
  (8 + 4 * numLogCodes.toNat) % 2 ^ (8 * abi.ptrSize)

/-- `dls_set_param_log_code`, with the parameter at `p` of the memory `m`. -/
def setParamLogCode (abi : Abi) (m : ℕ → UInt8) (p : ℕ) (paramSize : UInt32) :
    ArResult × Dls × List DlsEvent :=
  if paramSize.toNat < 8 then (.ebadparam, s, [])
  else
    let numLogCodes := wordAt m (p + 4)
    if paramSize.toNat < logCodeParamSize abi numLogCodes then (.eneedmore, s, [.payloadRead p 8])
    else
      let codes := (range numLogCodes.toNat).map fun i => wordAt m (p + 8 + 4 * i)
      if wordAt m p ≠ 0 then
        let r := s.enableLogCodes codes
        (r.1, r.2.1, .payloadRead p 8 :: (range r.2.2).map fun i => .payloadRead (p + 8 + 4 * i) 4)
      else
        (.eok, s.disableLogCodes codes, .payloadRead p 8 ::
          (range numLogCodes.toNat).map fun i => .payloadRead (p + 8 + 4 * i) 4)

/-! ## Configuration -/

/-- The loop of `dls_set_param_config_buffer` over the packets: marks them as available and counts
them. -/
def markBufs (s : Dls) (start : UInt64) : ℕ → UInt32 → Option Dls
  | 0, _ => none
  | fuel + 1, bufOffset =>
    if bufOffset + s.configBufferInfo.maxLogPktSize ≤ s.configBufferInfo.totalBufSize then
      let t := s.storeField (start + bufOffset.toUInt64) 4 dlsBufAvailable
      markBufs { t with totalBufCount := t.totalBufCount + 1 } start fuel
        (bufOffset + s.configBufferInfo.maxLogPktSize)
    else some s

/-- `dls_set_param_config_buffer`. -/
def setParamConfigBuffer (fuel : ℕ) (translate : DlsTranslate) (cfg : DlsConfigBuffer)
    (paramSize : UInt32) : Option (ArResult × Dls) :=
  if paramSize.toNat < 24 then some (.ebadparam, s)
  else
    let s := { s with configBufferInfo := cfg }
    match translate cfg.memMapHandle cfg.bufStartAddrLsw cfg.bufStartAddrMsw cfg.maxLogPktSize with
    | none => some (.efailed, s)
    | some a =>
      let cfg := { cfg with
        bufStartAddrLsw := (a &&& 0xFFFFFFFF).toUInt32
        bufStartAddrMsw := ((a &&& 0xFFFFFFFF00000000) >>> 32).toUInt32 }
      let s := { s with configBufferInfo := cfg }
      if a = 0 then some (.ebadparam, s)
      else if a &&& 7 ≠ 0 then some (.ebadparam, s)
      else if cfg.isCfg = 1 then
        let cfg := if cfg.maxLogPktSize = dlsSetBufSizeToDefault then
          { cfg with maxLogPktSize := dlsDefaultMaxLogPktSize } else cfg
        (markBufs { s with configBufferInfo := cfg } a fuel 0).map fun s =>
          (.eok, { s with currentBufCount := s.totalBufCount })
      else some (.eok, { s with currentBufCount := s.totalBufCount })

/-- A `dls_param_id_config_buffer_t` in memory. -/
def configBufferAt (m : ℕ → UInt8) (p : ℕ) : DlsConfigBuffer :=
  ⟨wordAt m p, wordAt m (p + 4), wordAt m (p + 8), wordAt m (p + 12), wordAt m (p + 16),
    wordAt m (p + 20)⟩

/-- `dls_handle_set_param`, for a parameter at `p` of the memory `m`. -/
def handleSetParam (abi : Abi) (fuel : ℕ) (translate : DlsTranslate) (paramId : UInt32)
    (m : ℕ → UInt8) (p : ℕ) (paramSize : UInt32) : Option (ArResult × Dls × List DlsEvent) :=
  if paramId = dlsParamIdConfigBuffer then
    (s.setParamConfigBuffer fuel translate (configBufferAt m p) paramSize).map fun r =>
      (r.1, r.2, if paramSize.toNat < 24 then [] else [.payloadRead p 24])
  else if paramId = dlsParamIdEnableDisableLogCode then
    some (s.setParamLogCode abi m p paramSize)
  else some (.eunsupported, s, [])

/-- The loop of `dls_handle_set_cfg_cmd`, over the payload in the memory `m`. -/
def setCfgLoop (abi : Abi) (fuel : ℕ) (translate : DlsTranslate) (m : ℕ → UInt8) :
    ℕ → ArResult → Dls → ℕ → UInt32 → Option (ArResult × Dls × List DlsEvent)
  | rounds, result, s, p, payloadLenCounter =>
    if payloadLenCounter.toNat < 16 then some (result, s, [])
    else
      match rounds with
      | 0 => none
      | rounds + 1 =>
        let paramSize := wordAt m (p + 8)
        let start := [.payloadRead (p + 4) 8, .handParam (p + 16) paramSize.toNat]
        (s.handleSetParam abi fuel translate (wordAt m (p + 4)) m (p + 16) paramSize).bind fun r =>
          if r.1 = .ebadparam then some (.ebadparam, r.2.1, start ++ r.2.2)
          else
            let curParamSize := 16 + align8Bytes paramSize
            (setCfgLoop abi fuel translate m rounds r.1 r.2.1 (p + curParamSize.toNat)
              (if curParamSize < payloadLenCounter then payloadLenCounter - curParamSize
                else 0)).map fun r' => (r'.1, r'.2.1, start ++ r.2.2 ++ r'.2.2)

/-! ## Commands -/

/-- The payload behind the `apm_cmd_header_t` of a packet. -/
def inbandPayload (pkt : DlsPkt) : ℕ → UInt8 := fun p => pkt.payload (16 + p)

/-- `payload_size` of the command header. -/
def payloadSize (pkt : DlsPkt) : UInt32 := wordAt pkt.payload 12

/-- `dls_handle_set_cfg_cmd`, for an in-band command. -/
def handleSetCfgCmd (abi : Abi) (fuel : ℕ) (translate : DlsTranslate) (pkt : DlsPkt) :
    Option (ArResult × Dls × List DlsEvent) :=
  if (payloadSize pkt).toNat < 16 then some (.ebadparam, s, [.touch])
  else
    (setCfgLoop abi fuel translate (inbandPayload pkt) fuel .eok s 0 (payloadSize pkt)).map
      fun r => (r.1, r.2.1, .touch :: r.2.2)

/-- The slot of `client_info` that `dls_event_register` takes: that of the event, or else the last
empty one. -/
def availIdx (eventId : UInt32) : Option ℕ :=
  match s.clientInfo.findIdx? (·.eventId == eventId) with
  | some i => some i
  | none => ((range s.clientInfo.length).filter fun i =>
      (s.clientInfo[i]?.map (·.eventId)) == some 0).getLast?

/-- `dls_event_register`. -/
def eventRegister (pkt : DlsPkt) : ArResult × Dls :=
  match s.availIdx (wordAt pkt.payload 20) with
  | none => (.efailed, s)
  | some i =>
    let info : DlsEventClientInfo :=
      if wordAt pkt.payload 24 ≠ 0 then
        ⟨wordAt pkt.payload 20, pkt.srcDomainId, pkt.srcPort, pkt.token⟩
      else ⟨0, 0, 0, 0⟩
    (.eok, { s with clientInfo := s.clientInfo.set i info })

/-- Entry `i` of `buf_start_addr` in the payload of a buffer return. -/
def returnedAddr (pkt : DlsPkt) (i : ℕ) : DlsBufStartAddr :=
  ⟨wordAt pkt.payload (4 + 12 * i), wordAt pkt.payload (4 + 12 * i + 4),
    wordAt pkt.payload (4 + 12 * i + 8)⟩

/-- The packet at the address `a` is returned. -/
def returnBuf (a : UInt64) : Dls :=
  let start := s.bufStartAddr
  let stop := start + s.configBufferInfo.totalBufSize.toUInt64
  if a < start ∧ stop < a + s.configBufferInfo.maxLogPktSize.toUInt64 then s
  else if s.bufState a = dlsBufAvailable then s
  else
    let t := s.clearBuf a
    { t with currentBufCount := t.currentBufCount + 1 }

/-- The loop of `dls_buffer_return`: `false` if it returns because of a translation that failed. -/
def returnBufs (translate : DlsTranslate) (s : Dls) : List DlsBufStartAddr → Bool × Dls
  | [] => (true, s)
  | b :: bs =>
    match translate b.memMapHandle b.bufAddrLsw b.bufAddrMsw s.configBufferInfo.maxLogPktSize with
    | none => (false, s)
    | some a => returnBufs translate (s.returnBuf a) bs

/-- `dls_buffer_return`. -/
def bufferReturn (translate : DlsTranslate) (pkt : DlsPkt) : Dls × List DlsEvent :=
  let numBufs := wordAt pkt.payload 0
  if s.totalBufCount < numBufs then (s, [.touch, .endCommand .ebadparam])
  else if numBufs = 0 then (s, [.touch, .endCommand .ebadparam])
  else
    let r := returnBufs translate s ((range numBufs.toNat).map (returnedAddr pkt))
    if r.1 then (r.2, [.touch, .lock, .touch, .unlock, .endCommand .eok])
    else (r.2, [.touch, .lock, .touch])

/-- The end of `dls_cmdq_gpr_cmd_handler`. -/
def bailOut (result : ArResult) : List DlsEvent :=
  if result ≠ .eok then [.endCommand result] else []

/-- `dls_cmdq_gpr_cmd_handler`, for a message with a packet. -/
def cmdqGprCmdHandler (abi : Abi) (fuel : ℕ) (translate : DlsTranslate) (pkt : DlsPkt) :
    Option (ArResult × Dls × List DlsEvent) :=
  if pkt.opcode = apmCmdRegisterModuleEvents then
    let r := s.eventRegister pkt
    some (r.1, r.2, [.touch, .touch, .endCommand r.1] ++ bailOut r.1)
  else if pkt.opcode = apmCmdSetCfg then
    if wordAt pkt.payload 8 ≠ 0 then
      some (.ebadparam, s, [.touch, .touch] ++ bailOut .ebadparam)
    else if payloadSize pkt = 0 then
      some (.ebadparam, s, [.touch, .touch] ++ bailOut .ebadparam)
    else if wordAt pkt.payload 16 ≠ dlsModuleInstanceId then
      some (.ebadparam, s, [.touch, .touch] ++ bailOut .ebadparam)
    else
      (s.handleSetCfgCmd abi fuel translate pkt).map fun r =>
        (r.1, r.2.1, [.touch, .touch] ++ r.2.2 ++ [.endCommand r.1] ++ bailOut r.1)
  else if pkt.opcode = dlsDataCmdBufferReturn then
    let r := s.bufferReturn translate pkt
    some (.eok, r.1, .touch :: r.2)
  else some (.eunsupported, s, .touch :: bailOut .eunsupported)

/-! ## Buffers -/

/-- The loop of `dls_acquire_buffer`: the first available packet. -/
def findBuf : ℕ → UInt32 → Option (Option UInt64)
  | 0, _ => none
  | fuel + 1, bufOffset =>
    if bufOffset + s.configBufferInfo.maxLogPktSize ≤ s.configBufferInfo.totalBufSize then
      let a := s.bufStartAddr + bufOffset.toUInt64
      if s.bufState a = dlsBufAvailable then some (some a)
      else findBuf fuel (bufOffset + s.configBufferInfo.maxLogPktSize)
    else some none

/-- The log header behind the packet header: length, code and time, whose halves the code stores
the other way around. -/
def logHdrBytes (logCode : UInt16) (len : UInt32) (timestamp : UInt64) : List UInt8 :=
  wordBytes ((len &&& (0xFFFF : UInt32)) ||| (logCode.toUInt32 <<< 16)) ++
    wordBytes (timestamp >>> 32).toUInt32 ++ wordBytes timestamp.toUInt32

/-- `dls_acquire_buffer`: the address behind the packet header, or 0.  `percent` is the share of
the available packets. -/
def acquireBuffer (fuel : ℕ) (percent : UInt32 → UInt32 → UInt32) (timestamp : UInt64)
    (logCode : UInt16) (logPacketSize : UInt32) : Option (UInt64 × Dls) :=
  let logPacketSize := logPacketSize + UInt32.ofNat dlsBufHdrSize
  if (s.isLogCodeExists logCode.toUInt32).isNone then some (0, s)
  else if s.configBufferInfo.maxLogPktSize < logPacketSize then some (0, s)
  else
    (s.findBuf fuel 0).map fun found =>
      match found with
      | none => (0, s)
      | some a =>
        let current := s.currentBufCount - 1
        let t := ((s.storeField a 0 logPacketSize).storeField a 4 dlsBufAcquired).storeField a 8
          (percent current s.totalBufCount)
        (a + UInt64.ofNat dlsBufHdrSize, { t with
          currentBufCount := current
          mem := putAt t.mem (a + UInt64.ofNat dlsBufHdrSize).toNat
            (logHdrBytes logCode (logPacketSize - UInt32.ofNat dlsBufHdrSize) timestamp) })

/-- `dls_commit_buffer`, without the event for the client. -/
def commitBuffer (logPkt : UInt64) : Dls :=
  s.storeField (logPkt - UInt64.ofNat dlsBufHdrSize) 4 dlsBufReady

/-- `dls_log_buf_free`. -/
def logBufFree (logPkt : UInt64) : Dls :=
  if logPkt = 0 then s else s.clearBuf (logPkt - UInt64.ofNat dlsBufHdrSize)

end Dls

end AudioReach
