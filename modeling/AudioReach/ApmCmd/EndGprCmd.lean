import AudioReach.Gpr.Packet

/-!
# The end of a GPR command

A GPR command that the APM has finished is ended by `apm_end_gpr_cmd`: the client gets one
response, the command packet goes back, the reference on the shared memory of an out-of-band
command is dropped, and the slot of the command is released.  There are four ways to respond, and
the failures on them lead to one label, from which the client is sent a basic response.

What the function does is recorded as a list of events.  The results of the allocations, of the
sends and of the cache flush are given from outside (`EndResults`), one for each attempt.  A packet
is handed over by a send that succeeds and stays with the APM when the send fails.
-/

namespace AudioReach

open GprCtxt (needsResponse)
open List

/-! ## Commands and events -/

/-- `APM_CMD_GET_CFG`. -/
def apmCmdGetCfg : UInt32 := 0x01001007

/-- `APM_CMD_CLOSE_ALL`. -/
def apmCmdCloseAll : UInt32 := 0x01001013

/-- The packets that are handled while a command ends. -/
inductive EndPacket
  /-- The packet of the command, `cmd_msg.payload_ptr`. -/
  | cmd
  /-- The response of an in-band `APM_CMD_GET_CFG`, `cmd_rsp_payload.payload_ptr`. -/
  | rsp
  /-- The packet that the given allocation gave, counted from `0`. -/
  | new (attempt : ℕ)
  deriving DecidableEq

/-- What a response says. -/
inductive EndRsp
  /-- `apm_cmd_rsp_get_cfg_t`. -/
  | getCfg (status : UInt32)
  /-- `gpr_ibasic_rsp_result_t`. -/
  | basic (opcode status : UInt32)
  deriving DecidableEq

/-- What happens while a command is received and ended. -/
inductive EndEvent
  /-- `__gpr_cmd_alloc_ext_v2` gives a packet. -/
  | allocated (p : EndPacket)
  /-- `__gpr_cmd_alloc_ext_v2` fails. -/
  | allocFailed
  /-- `__gpr_cmd_async_send`: the packet is handed over if it succeeds. -/
  | send (p : EndPacket) (rsp : EndRsp) (ok : Bool)
  /-- `__gpr_cmd_free`. -/
  | free (p : EndPacket)
  /-- `posal_cache_flush_v2`. -/
  | flush
  /-- `posal_memorymap_shm_incr_refcount`. -/
  | incrRefcount (handle : UInt32)
  /-- `posal_memorymap_shm_decr_refcount`. -/
  | decrRefcount (handle : UInt32)
  /-- `apm_pwr_mgr_devote_fptr`. -/
  | devote
  /-- `apm_deallocate_cmd_ctrl_obj`, on the slot of the given index. -/
  | release (listIdx : ℕ)
  deriving DecidableEq

/-- The results of the calls that can fail; `0` is `AR_EOK`. -/
structure EndResults where
  alloc : ℕ → UInt32
  send : EndPacket → UInt32
  flush : UInt32

/-- The fields of `apm_cmd_ctrl_t` that the end of the command reads, and the parts of its
packet. -/
structure ApmGprCmd where
  listIdx : ℕ
  cmdPending : Bool
  /-- `SPF_MSG_CMD_GPR == cmd_msg.msg_opcode`. -/
  isGpr : Bool
  cmdOpcode : UInt32
  cmdStatus : UInt32
  aggRspStatus : UInt32
  /-- `cmd_payload_ptr`. -/
  cmdPayload : Option Addr
  /-- `cmd_rsp_payload.payload_ptr` is not null. -/
  hasRsp : Bool
  /-- `opcode` of the packet. -/
  packetOpcode : UInt32
  /-- `mem_map_handle` of the command header in the packet. -/
  memMapHandle : UInt32

/-! ## The code -/

/-- The results of the calls that look for the payload of a command. -/
structure PayloadResults where
  /-- `spf_svc_alloc_rsp_payload`: its result, whether it leaves a response packet in
  `cmd_rsp_payload`, and the address in it. -/
  allocRsp : UInt32 × Bool × Addr
  /-- The address of an in-band payload, in the packet. -/
  inBand : Addr
  /-- The search for the address in the shared memory. -/
  outOfBand : UInt32 × Addr
  /-- `posal_memorymap_shm_incr_refcount`. -/
  incrRefcount : UInt32

/-- `spf_svc_get_cmd_payload_addr`: the result, the address, and the command. -/
def spfSvcGetCmdPayloadAddr (o : PayloadResults) (cmd : ApmGprCmd) : UInt32 × Addr × ApmGprCmd :=
  if cmd.memMapHandle = 0 then
    if cmd.packetOpcode = apmCmdGetCfg then
      (o.allocRsp.1, o.allocRsp.2.2, { cmd with hasRsp := o.allocRsp.2.1 })
    else (0, o.inBand, cmd)
  else (o.outOfBand.1, o.outOfBand.2, cmd)

/-- `apm_get_gpr_cmd_payload`: the result, the command, and the events. -/
def apmGetGprCmdPayload (o : PayloadResults) (cmd : ApmGprCmd) :
    UInt32 × ApmGprCmd × List EndEvent :=
  if cmd.packetOpcode = apmCmdCloseAll then (0, { cmd with cmdPayload := none }, [])
  else
    match spfSvcGetCmdPayloadAddr o cmd with
    | (result, addr, cmd) =>
      if result ≠ 0 then (result, cmd, [])
      else if o.incrRefcount ≠ 0 then (o.incrRefcount, cmd, [])
      else (0, { cmd with cmdPayload := some addr }, [.incrRefcount cmd.memMapHandle])

/-- The number of allocations that were tried. -/
def allocAttempts (t : List EndEvent) : ℕ :=
  t.countP fun
    | .allocated _ | .allocFailed => true
    | _ => false

/-- `__gpr_cmd_alloc_ext_v2`, and `apm_allocate_cmd_rsp_payload`: the result, the packet if there
is one, and the events. -/
def gprCmdAllocExt (o : EndResults) (t : List EndEvent) : UInt32 × EndPacket × List EndEvent :=
  let p := EndPacket.new (allocAttempts t)
  if o.alloc (allocAttempts t) = 0 then (0, p, t ++ [.allocated p])
  else (o.alloc (allocAttempts t), p, t ++ [.allocFailed])

/-- `__gpr_cmd_async_send`. -/
def gprCmdAsyncSend (o : EndResults) (p : EndPacket) (rsp : EndRsp) (t : List EndEvent) :
    UInt32 × List EndEvent :=
  (o.send p, t ++ [.send p rsp (o.send p == 0)])

/-- `__gpr_cmd_end_command`: the result and the events. -/
def gprCmdEndCommandEvents (o : EndResults) (cmd : ApmGprCmd) (status : UInt32)
    (t : List EndEvent) : UInt32 × List EndEvent :=
  if needsResponse cmd.packetOpcode then
    match gprCmdAllocExt o t with
    | (rc, p, t) =>
      if rc ≠ 0 then (rc, t ++ [.free .cmd])
      else
        match gprCmdAsyncSend o p (.basic cmd.packetOpcode status) t with
        | (rc, t) =>
          if rc ≠ 0 then (rc, t ++ [.free p] ++ [.free .cmd])
          else (rc, t ++ [.free .cmd])
  else (0, t ++ [.free .cmd])

/-- `apm_deallocate_cmd_hdlr_resources`. -/
def apmDeallocateCmdHdlrResources (cmd : ApmGprCmd) (hasPwrMgr : Bool) (t : List EndEvent) :
    List EndEvent :=
  (if hasPwrMgr then t ++ [.devote] else t) ++ [.release cmd.listIdx]

/-- The last lines of `apm_end_gpr_cmd`, with the result of the response. -/
def apmFinish (cmd : ApmGprCmd) (hasPwrMgr : Bool) (r : UInt32 × List EndEvent) :
    UInt32 × List EndEvent :=
  (r.1, apmDeallocateCmdHdlrResources cmd hasPwrMgr r.2)

/-- The label `__bailout` of `apm_end_gpr_cmd`. -/
def apmEndBailout (o : EndResults) (cmd : ApmGprCmd) (hasPwrMgr : Bool) (result : UInt32)
    (t : List EndEvent) : UInt32 × List EndEvent :=
  apmFinish cmd hasPwrMgr (gprCmdEndCommandEvents o cmd result t)

/-- The response to an in-band `APM_CMD_GET_CFG`. -/
def apmEndInBandGetCfg (o : EndResults) (cmd : ApmGprCmd) (hasPwrMgr : Bool)
    (t : List EndEvent) : UInt32 × List EndEvent :=
  if cmd.cmdStatus = 0 then
    match gprCmdAsyncSend o .rsp (.getCfg cmd.aggRspStatus) t with
    | (result, t) =>
      if result ≠ 0 then apmEndBailout o cmd hasPwrMgr result (t ++ [.free .rsp])
      else apmFinish cmd hasPwrMgr (result, t ++ [.free .cmd])
  else apmFinish cmd hasPwrMgr (gprCmdEndCommandEvents o cmd cmd.cmdStatus (t ++ [.free .rsp]))

/-- The flush of an out-of-band command and the drop of its reference: the result of the command
and the events. -/
def apmDropShmem (o : EndResults) (cmd : ApmGprCmd) (t : List EndEvent) : UInt32 × List EndEvent :=
  if cmd.memMapHandle ≠ 0 ∧ cmd.cmdPayload ≠ none then
    (cmd.cmdStatus ||| o.flush, t ++ [.flush, .decrRefcount cmd.memMapHandle])
  else (cmd.cmdStatus, t)

/-- The response to the other commands. -/
def apmEndOther (o : EndResults) (cmd : ApmGprCmd) (hasPwrMgr : Bool) (t : List EndEvent) :
    UInt32 × List EndEvent :=
  match apmDropShmem o cmd t with
  | (cmdResult, t) =>
    if cmd.cmdOpcode = apmCmdGetCfg ∧ cmdResult = 0 then
      match gprCmdAllocExt o t with
      | (result, p, t) =>
        if result ≠ 0 then apmEndBailout o cmd hasPwrMgr result t
        else
          match gprCmdAsyncSend o p (.getCfg cmd.aggRspStatus) t with
          | (result, t) =>
            if result ≠ 0 then apmEndBailout o cmd hasPwrMgr result (t ++ [.free p])
            else apmFinish cmd hasPwrMgr (result, t ++ [.free .cmd])
    else apmFinish cmd hasPwrMgr (gprCmdEndCommandEvents o cmd cmdResult t)

/-- `apm_end_gpr_cmd`: the result and the events. -/
def apmEndGprCmd (o : EndResults) (cmd : ApmGprCmd) (hasPwrMgr : Bool) : UInt32 × List EndEvent :=
  if !cmd.cmdPending && cmd.isGpr then
    if cmd.cmdOpcode = apmCmdGetCfg ∧ cmd.hasRsp then apmEndInBandGetCfg o cmd hasPwrMgr []
    else apmEndOther o cmd hasPwrMgr []
  else (0, [])

/-! ## What is to happen -/

/-- The opcode is that of a control or a data command. -/
def IsCommandOpcode (opcode : UInt32) : Prop :=
  (opcode &&& 0x0F000000) >>> 24 = 1 ∨ (opcode &&& 0x0F000000) >>> 24 = 4

/-- A GPR command that is finished. -/
structure ApmGprCmd.Finished (cmd : ApmGprCmd) : Prop where
  notPending : cmd.cmdPending = false
  isGpr : cmd.isGpr = true
  isCommand : IsCommandOpcode cmd.packetOpcode
  /-- Only an in-band `APM_CMD_GET_CFG` has a response packet. -/
  rsp : cmd.hasRsp = true → cmd.cmdOpcode = apmCmdGetCfg ∧ cmd.memMapHandle = 0

/-- The command has a reference on the shared memory of its handle. -/
def ApmGprCmd.HoldsReference (cmd : ApmGprCmd) : Prop :=
  cmd.memMapHandle ≠ 0 ∧ cmd.cmdPayload ≠ none

instance (cmd : ApmGprCmd) : Decidable cmd.HoldsReference :=
  inferInstanceAs (Decidable (_ ∧ _))

/-- How often a packet is handed over. -/
def handedOver (p : EndPacket) (t : List EndEvent) : ℕ :=
  t.countP fun
    | .send q _ ok => q = p && ok
    | _ => false

/-- How many responses are delivered. -/
def delivered (t : List EndEvent) : ℕ :=
  t.countP fun
    | .send _ _ ok => ok
    | _ => false

/-- An attempt to respond: a send, or an allocation for one that fails. -/
def EndEvent.isAttempt : EndEvent → Bool
  | .send _ _ _ | .allocFailed => true
  | _ => false

/-- **What ending a command is to do.** -/
structure EndsOnce (cmd : ApmGprCmd) (t : List EndEvent) : Prop where
  /-- The packet of the command is freed once, and not handed over. -/
  cmdPacket : t.count (.free .cmd) = 1 ∧ handedOver .cmd t = 0
  /-- The response of the command is freed or handed over once, if there is one. -/
  rspPacket : t.count (.free .rsp) + handedOver .rsp t = if cmd.hasRsp then 1 else 0
  /-- So is each packet that was allocated; an allocation gives a packet of its own. -/
  newPacket : ∀ n, t.count (.allocated (.new n)) ≤ 1 ∧
    t.count (.free (.new n)) + handedOver (.new n) t = t.count (.allocated (.new n))
  attempted : ∃ e ∈ t, e.isAttempt = true
  delivered : delivered t ≤ 1
  /-- The reference is dropped once, if there is one. -/
  reference : ∀ handle, t.count (.decrRefcount handle) =
    if cmd.HoldsReference ∧ handle = cmd.memMapHandle then 1 else 0
  slot : ∀ i, t.count (.release i) = if i = cmd.listIdx then 1 else 0

/-! ## What can happen -/

/-- The ways of responding with a packet that has to be allocated: those of
`__gpr_cmd_end_command`, and the first way to end an out-of-band `APM_CMD_GET_CFG`. -/
inductive PacketReply (p : EndPacket) : List EndEvent → Prop
  | noPacket : PacketReply p [.allocFailed, .free .cmd]
  | sent (rsp : EndRsp) : PacketReply p [.allocated p, .send p rsp true, .free .cmd]
  | notSent (rsp : EndRsp) : PacketReply p [.allocated p, .send p rsp false, .free p, .free .cmd]

/-- What is done about the shared memory. -/
def dropEvents (cmd : ApmGprCmd) : List EndEvent :=
  if cmd.HoldsReference then [.flush, .decrRefcount cmd.memMapHandle] else []

/-- What happens before the basic response. -/
inductive BeforeReply (cmd : ApmGprCmd) : List EndEvent → Prop
  | rspNotSent (rsp : EndRsp) (h : cmd.hasRsp = true) :
    BeforeReply cmd [.send .rsp rsp false, .free .rsp]
  | rspDropped (h : cmd.hasRsp = true) : BeforeReply cmd [.free .rsp]
  | other (h : cmd.hasRsp = false) : BeforeReply cmd (dropEvents cmd)
  | noPacket (h : cmd.hasRsp = false) : BeforeReply cmd (dropEvents cmd ++ [.allocFailed])
  | notSent (rsp : EndRsp) (h : cmd.hasRsp = false) : BeforeReply cmd (dropEvents cmd ++
      [.allocated (.new 0), .send (.new 0) rsp false, .free (.new 0)])

/-- The ways in which a response is given, with what happens before. -/
inductive Response (cmd : ApmGprCmd) : List EndEvent → Prop
  | inBand (rsp : EndRsp) (h : cmd.hasRsp = true) : Response cmd [.send .rsp rsp true, .free .cmd]
  | reply {before reply : List EndEvent} (h : BeforeReply cmd before)
    (hreply : PacketReply (.new (allocAttempts before)) reply) : Response cmd (before ++ reply)

lemma needsResponse_of_isCommandOpcode {opcode : UInt32} (h : IsCommandOpcode opcode) :
    needsResponse opcode = true := by
  unfold GprCtxt.needsResponse
  rcases h with h | h <;> rw [h] <;> decide

/-- **The basic response.** -/
lemma gprCmdEndCommandEvents_reply (o : EndResults) {cmd : ApmGprCmd}
    (h : IsCommandOpcode cmd.packetOpcode) (status : UInt32) (t : List EndEvent) :
    ∃ reply, (gprCmdEndCommandEvents o cmd status t).2 = t ++ reply ∧
      PacketReply (.new (allocAttempts t)) reply := by
  unfold gprCmdEndCommandEvents gprCmdAllocExt gprCmdAsyncSend
  rw [if_pos (needsResponse_of_isCommandOpcode h)]
  by_cases halloc : o.alloc (allocAttempts t) = 0
  · rw [if_pos halloc]
    by_cases hsend : o.send (.new (allocAttempts t)) = 0
    · exact ⟨_, by simp [hsend], .sent (.basic cmd.packetOpcode status)⟩
    · exact ⟨_, by simp [hsend], .notSent (.basic cmd.packetOpcode status)⟩
  · exact ⟨_, by simp [halloc], .noPacket⟩

variable {o : EndResults} {cmd : ApmGprCmd} {hasPwrMgr : Bool}

lemma Response.ofBasic {status : UInt32} {before : List EndEvent}
    (hcommand : IsCommandOpcode cmd.packetOpcode) (h : BeforeReply cmd before) :
    ∃ t, Response cmd t ∧ (apmFinish cmd hasPwrMgr (gprCmdEndCommandEvents o cmd status before)).2 =
        apmDeallocateCmdHdlrResources cmd hasPwrMgr t := by
  obtain ⟨reply, heq, hreply⟩ := gprCmdEndCommandEvents_reply o hcommand status before
  refine ⟨before ++ reply, .reply h hreply, ?_⟩
  rw [apmFinish, heq]

/-- An in-band `APM_CMD_GET_CFG`. -/
lemma apmEndInBandGetCfg_response (hcommand : IsCommandOpcode cmd.packetOpcode)
    (hrsp : cmd.hasRsp = true) :
    ∃ t, Response cmd t ∧ (apmEndInBandGetCfg o cmd hasPwrMgr []).2 =
      apmDeallocateCmdHdlrResources cmd hasPwrMgr t := by
  unfold apmEndInBandGetCfg gprCmdAsyncSend
  by_cases hstatus : cmd.cmdStatus = 0
  · rw [if_pos hstatus]
    by_cases hsend : o.send .rsp = 0
    · refine ⟨_, .inBand (.getCfg cmd.aggRspStatus) hrsp, ?_⟩
      simp [hsend, apmFinish]
    · dsimp only
      rw [if_pos hsend, beq_eq_false_iff_ne.mpr hsend]
      exact Response.ofBasic hcommand (.rspNotSent (.getCfg cmd.aggRspStatus) hrsp)
  · rw [if_neg hstatus]
    exact Response.ofBasic hcommand (.rspDropped hrsp)

lemma apmDropShmem_events (o : EndResults) (cmd : ApmGprCmd) :
    (apmDropShmem o cmd []).2 = dropEvents cmd := by
  unfold apmDropShmem dropEvents
  by_cases h : cmd.memMapHandle ≠ 0 ∧ cmd.cmdPayload ≠ none
  · rw [if_pos h]
    exact (if_pos h).symm
  · rw [if_neg h]
    exact (if_neg h).symm

lemma allocAttempts_dropEvents (cmd : ApmGprCmd) : allocAttempts (dropEvents cmd) = 0 := by
  unfold dropEvents
  split_ifs <;> rfl

/-- The other commands. -/
lemma apmEndOther_response (hcommand : IsCommandOpcode cmd.packetOpcode)
    (hrsp : cmd.hasRsp = false) :
    ∃ t, Response cmd t ∧ (apmEndOther o cmd hasPwrMgr []).2 =
      apmDeallocateCmdHdlrResources cmd hasPwrMgr t := by
  have hdrop := apmDropShmem_events o cmd
  unfold apmEndOther
  generalize apmDropShmem o cmd [] = r at hdrop
  obtain ⟨cmdResult, t⟩ := r
  obtain rfl : t = dropEvents cmd := hdrop
  dsimp only
  by_cases hget : cmd.cmdOpcode = apmCmdGetCfg ∧ cmdResult = 0
  · rw [if_pos hget]
    unfold gprCmdAllocExt gprCmdAsyncSend
    rw [allocAttempts_dropEvents]
    by_cases halloc : o.alloc 0 = 0
    · rw [if_pos halloc]
      by_cases hsend : o.send (.new 0) = 0
      · refine ⟨_, .reply (.other hrsp) (.sent (.getCfg cmd.aggRspStatus)), ?_⟩
        rw [allocAttempts_dropEvents]
        simp [hsend, apmFinish]
      · rw [if_neg (by simp), if_pos hsend, beq_eq_false_iff_ne.mpr hsend]
        have hsame : dropEvents cmd ++ [.allocated (.new 0)] ++
            [.send (.new 0) (.getCfg cmd.aggRspStatus) false] ++ [.free (.new 0)] =
          dropEvents cmd ++ [.allocated (.new 0),
            .send (.new 0) (.getCfg cmd.aggRspStatus) false, .free (.new 0)] := by simp
        rw [hsame]
        exact Response.ofBasic hcommand (.notSent (.getCfg cmd.aggRspStatus) hrsp)
    · rw [if_neg halloc]
      rw [if_pos halloc]
      exact Response.ofBasic hcommand (.noPacket hrsp)
  · rw [if_neg hget]
    exact Response.ofBasic hcommand (.other hrsp)

/-- **The end of a finished command.** -/
lemma apmEndGprCmd_response (o : EndResults) (hasPwrMgr : Bool) (h : cmd.Finished) :
    ∃ t, Response cmd t ∧ (apmEndGprCmd o cmd hasPwrMgr).2 =
      apmDeallocateCmdHdlrResources cmd hasPwrMgr t := by
  have hdone : (!cmd.cmdPending && cmd.isGpr) = true := by rw [h.notPending, h.isGpr]; rfl
  unfold apmEndGprCmd
  rw [if_pos hdone]
  by_cases hrsp : cmd.hasRsp = true
  · rw [if_pos ⟨(h.rsp hrsp).1, hrsp⟩]
    exact apmEndInBandGetCfg_response h.isCommand hrsp
  · rw [if_neg fun hboth => hrsp hboth.2]
    exact apmEndOther_response h.isCommand (by simpa using hrsp)

/-! ## The accounts -/

section

variable {p : EndPacket} {t t' : List EndEvent}

lemma handedOver_append : handedOver p (t ++ t') = handedOver p t + handedOver p t' :=
  countP_append

lemma delivered_append : delivered (t ++ t') = delivered t + delivered t' :=
  countP_append

end

/-- The accounts of what happens before the basic response: all packets that were taken are gone
again, except that of the command, and nothing was delivered. -/
structure AccountsBefore (cmd : ApmGprCmd) (t : List EndEvent) : Prop where
  cmdPacket : t.count (.free .cmd) = 0 ∧ handedOver .cmd t = 0
  rspPacket : t.count (.free .rsp) + handedOver .rsp t = if cmd.hasRsp then 1 else 0
  newPacket : ∀ n, t.count (.allocated (.new n)) ≤ (if n < allocAttempts t then 1 else 0) ∧
    t.count (.free (.new n)) + handedOver (.new n) t = t.count (.allocated (.new n))
  delivered : delivered t = 0
  reference : ∀ handle, t.count (.decrRefcount handle) =
    if cmd.HoldsReference ∧ handle = cmd.memMapHandle then 1 else 0
  slot : ∀ i, t.count (.release i) = 0

/-- The accounts of a reply: it takes at most packet `k`, and frees that of the command. -/
structure AccountsReply (k : ℕ) (t : List EndEvent) : Prop where
  cmdPacket : t.count (.free .cmd) = 1 ∧ handedOver .cmd t = 0
  rspPacket : t.count (.free .rsp) + handedOver .rsp t = 0
  newPacket : ∀ n, t.count (.allocated (.new n)) ≤ (if n = k then 1 else 0) ∧
    t.count (.free (.new n)) + handedOver (.new n) t = t.count (.allocated (.new n))
  attempted : ∃ e ∈ t, e.isAttempt = true
  delivered : delivered t ≤ 1
  reference : ∀ handle, t.count (.decrRefcount handle) = 0
  slot : ∀ i, t.count (.release i) = 0

lemma accountsBefore_dropEvents (hrsp : cmd.hasRsp = false) :
    AccountsBefore cmd (dropEvents cmd) := by
  unfold dropEvents
  by_cases h : cmd.HoldsReference
  · rw [if_pos h]
    refine ⟨⟨rfl, rfl⟩, by simp [hrsp, handedOver], fun n => ⟨by simp, by simp [handedOver]⟩, rfl,
      fun handle => ?_, fun i => by simp⟩
    by_cases heq : handle = cmd.memMapHandle
    · simp [h, heq]
    · simp [heq, Ne.symm heq]
  · rw [if_neg h]
    exact ⟨⟨rfl, rfl⟩, by simp [hrsp, handedOver], fun n => ⟨by simp, by simp [handedOver]⟩, rfl,
      fun handle => by simp [h], fun i => rfl⟩

variable {t : List EndEvent}

lemma accountsBefore_rsp (h : cmd.hasRsp = true) (hreference : ¬ cmd.HoldsReference)
    (ht : t = [.free .rsp] ∨ ∃ rsp, t = [.send .rsp rsp false, .free .rsp]) :
    AccountsBefore cmd t := by
  rcases ht with rfl | ⟨rsp, rfl⟩
  · exact ⟨by simp [handedOver], by simp [h, handedOver],
      fun n => ⟨by simp, by simp [handedOver]⟩, rfl, fun handle => by simp [hreference],
      fun i => by simp⟩
  · exact ⟨by simp [handedOver], by simp [h, handedOver],
      fun n => ⟨by simp, by simp [handedOver]⟩, rfl, fun handle => by simp [hreference],
      fun i => by simp⟩

/-- A packet that could not be had, or was not sent. -/
lemma accountsBefore_new {extra : List EndEvent} (hrsp : cmd.hasRsp = false)
    (h : extra = [.allocFailed] ∨
      ∃ rsp, extra = [.allocated (.new 0), .send (.new 0) rsp false, .free (.new 0)]) :
    AccountsBefore cmd (dropEvents cmd ++ extra) := by
  obtain ⟨hcmd, hrspPacket, hnew, hdelivered, hreference, hslot⟩ := accountsBefore_dropEvents hrsp
  have hattempts : allocAttempts (dropEvents cmd ++ extra) = 1 := by
    rw [allocAttempts, countP_append, ← allocAttempts, allocAttempts_dropEvents]
    rcases h with rfl | ⟨rsp, rfl⟩ <;> rfl
  have hnone : ∀ n, (dropEvents cmd).count (.allocated (.new n)) = 0 := fun n => by
    have hle := (hnew n).1
    rw [allocAttempts_dropEvents] at hle
    simpa using hle
  refine ⟨?_, ?_, fun n => ?_, ?_, fun handle => ?_, fun i => ?_⟩
  · rw [count_append, handedOver_append, hcmd.1, hcmd.2]
    rcases h with rfl | ⟨rsp, rfl⟩ <;> simp [handedOver]
  · rw [← hrspPacket, count_append, handedOver_append]
    rcases h with rfl | ⟨rsp, rfl⟩ <;> simp [handedOver]
  · have hgone := (hnew n).2
    rw [hattempts, count_append, count_append, handedOver_append, hnone]
    rw [hnone] at hgone
    rcases h with rfl | ⟨rsp, rfl⟩
    · simpa [handedOver] using hgone
    · by_cases hn : n = 0
      · subst hn
        have hextra : handedOver (.new 0)
            [.allocated (.new 0), .send (.new 0) rsp false, .free (.new 0)] = 0 := rfl
        simp
        omega
      · simpa [handedOver, hn, Ne.symm hn] using hgone
  · rw [delivered_append, hdelivered]
    rcases h with rfl | ⟨rsp, rfl⟩ <;> rfl
  · rw [← hreference, count_append]
    rcases h with rfl | ⟨rsp, rfl⟩ <;> simp
  · rw [count_append, hslot]
    rcases h with rfl | ⟨rsp, rfl⟩ <;> simp

lemma BeforeReply.accounts (h : BeforeReply cmd t)
    (hreference : cmd.hasRsp = true → ¬ cmd.HoldsReference) : AccountsBefore cmd t := by
  cases h with
  | rspNotSent rsp h => exact accountsBefore_rsp h (hreference h) (Or.inr ⟨rsp, rfl⟩)
  | rspDropped h => exact accountsBefore_rsp h (hreference h) (Or.inl rfl)
  | other h => exact accountsBefore_dropEvents h
  | noPacket h => exact accountsBefore_new h (Or.inl rfl)
  | notSent rsp h => exact accountsBefore_new h (Or.inr ⟨rsp, rfl⟩)

lemma PacketReply.accounts {k : ℕ} (h : PacketReply (.new k) t) : AccountsReply k t := by
  cases h with
  | noPacket =>
    exact ⟨⟨rfl, rfl⟩, rfl, fun n => ⟨by simp, by simp [handedOver]⟩,
      ⟨.allocFailed, by simp, rfl⟩, by simp [AudioReach.delivered], fun _ => by simp,
      fun _ => by simp⟩
  | sent rsp =>
    refine ⟨⟨by simp, by simp [handedOver]⟩, by simp [handedOver], fun n => ?_,
      ⟨.send (.new k) rsp true, by simp, rfl⟩, by simp [AudioReach.delivered], fun _ => by simp,
      fun _ => by simp⟩
    by_cases hn : n = k
    · subst hn
      simp [handedOver]
    · simp [handedOver, hn, Ne.symm hn]
  | notSent rsp =>
    refine ⟨⟨by simp, by simp [handedOver]⟩, by simp [handedOver], fun n => ?_,
      ⟨.send (.new k) rsp false, by simp, rfl⟩, by simp [AudioReach.delivered], fun _ => by simp,
      fun _ => by simp⟩
    by_cases hn : n = k
    · subst hn
      simp [handedOver]
    · simp [handedOver, hn, Ne.symm hn]

/-- The accounts of a whole response. -/
structure Accounts (cmd : ApmGprCmd) (t : List EndEvent) : Prop where
  cmdPacket : t.count (.free .cmd) = 1 ∧ handedOver .cmd t = 0
  rspPacket : t.count (.free .rsp) + handedOver .rsp t = if cmd.hasRsp then 1 else 0
  newPacket : ∀ n, t.count (.allocated (.new n)) ≤ 1 ∧
    t.count (.free (.new n)) + handedOver (.new n) t = t.count (.allocated (.new n))
  attempted : ∃ e ∈ t, e.isAttempt = true
  delivered : delivered t ≤ 1
  reference : ∀ handle, t.count (.decrRefcount handle) =
    if cmd.HoldsReference ∧ handle = cmd.memMapHandle then 1 else 0
  slot : ∀ i, t.count (.release i) = 0

/-- **Adding up.**  The packet of a reply is not one of those before it. -/
lemma AccountsBefore.reply {before reply : List EndEvent} (h : AccountsBefore cmd before)
    (hreply : AccountsReply (allocAttempts before) reply) : Accounts cmd (before ++ reply) := by
  refine ⟨?_, ?_, fun n => ?_, ?_, ?_, fun handle => ?_, fun i => ?_⟩
  · rw [count_append, handedOver_append, h.cmdPacket.1, h.cmdPacket.2, hreply.cmdPacket.1,
      hreply.cmdPacket.2]
    exact ⟨rfl, rfl⟩
  · rw [← h.rspPacket, count_append, handedOver_append]
    have hnone := hreply.rspPacket
    omega
  · obtain ⟨hle, hgone⟩ := h.newPacket n
    obtain ⟨hle', hgone'⟩ := hreply.newPacket n
    rw [count_append, count_append, handedOver_append]
    split_ifs at hle hle' <;> omega
  · obtain ⟨e, he, hattempt⟩ := hreply.attempted
    exact ⟨e, mem_append_right _ he, hattempt⟩
  · rw [delivered_append, h.delivered, Nat.zero_add]
    exact hreply.delivered
  · rw [count_append, h.reference, hreply.reference, Nat.add_zero]
  · rw [count_append, h.slot, hreply.slot]

lemma Response.accounts (h : Response cmd t) (hreference : cmd.hasRsp = true → ¬ cmd.HoldsReference)
    : Accounts cmd t := by
  cases h with
  | inBand rsp h =>
    exact ⟨by simp [handedOver], by simp [h, handedOver], fun n => by simp [handedOver],
      ⟨.send .rsp rsp true, by simp, rfl⟩, by simp [AudioReach.delivered],
      fun handle => by simp [hreference h], fun i => by simp⟩
  | reply h hreply => exact (h.accounts hreference).reply hreply.accounts

/-- The slot is released last. -/
lemma Accounts.finish (h : Accounts cmd t) (hasPwrMgr : Bool) :
    EndsOnce cmd (apmDeallocateCmdHdlrResources cmd hasPwrMgr t) := by
  have heq : apmDeallocateCmdHdlrResources cmd hasPwrMgr t =
      t ++ ((if hasPwrMgr then [.devote] else []) ++ [.release cmd.listIdx]) := by
    unfold apmDeallocateCmdHdlrResources
    split_ifs <;> simp
  rw [heq]
  refine ⟨?_, ?_, fun n => ?_, ?_, ?_, fun handle => ?_, fun i => ?_⟩
  · rw [count_append, handedOver_append, h.cmdPacket.1, h.cmdPacket.2]
    cases hasPwrMgr <;> simp [handedOver]
  · rw [← h.rspPacket, count_append, handedOver_append]
    cases hasPwrMgr <;> simp [handedOver]
  · have hnew := h.newPacket n
    cases hasPwrMgr <;> simpa [handedOver] using hnew
  · obtain ⟨e, he, hattempt⟩ := h.attempted
    exact ⟨e, mem_append_left _ he, hattempt⟩
  · have hle := h.delivered
    cases hasPwrMgr <;> simpa [AudioReach.delivered] using hle
  · rw [← h.reference, count_append]
    cases hasPwrMgr <;> simp
  · rw [count_append, h.slot]
    by_cases hi : i = cmd.listIdx
    · subst hi
      cases hasPwrMgr <;> simp
    · cases hasPwrMgr <;> simp [hi, Ne.symm hi]

/-! ## Every finished command -/

/-- **Every finished command ends once.**  Whatever the opcode, the results of the command and
the failures of allocations, sends and the flush, `apm_end_gpr_cmd` frees the packet of the command
once, frees or hands over each response packet once, tries to respond and delivers at most one
response, drops the reference on shared memory once if the command has one, and releases its slot
once. -/
theorem apmEndGprCmd_endsOnce (o : EndResults) (cmd : ApmGprCmd) (hasPwrMgr : Bool)
    (h : cmd.Finished) : EndsOnce cmd (apmEndGprCmd o cmd hasPwrMgr).2 := by
  obtain ⟨t, hresponse, heq⟩ := apmEndGprCmd_response o hasPwrMgr h
  rw [heq]
  exact (hresponse.accounts fun hrsp hholds => hholds.1 (h.rsp hrsp).2).finish hasPwrMgr

/-- An out-of-band `APM_CMD_GET_CFG` for which no response packet can be allocated at first. -/
theorem apmEndGprCmd_endsOnce_getCfg :
    EndsOnce ⟨0, false, true, apmCmdGetCfg, 0, 0, some 8, false, apmCmdGetCfg, 5⟩
      (apmEndGprCmd ⟨fun n => if n = 0 then 7 else 0, fun _ => 0, 0⟩
        ⟨0, false, true, apmCmdGetCfg, 0, 0, some 8, false, apmCmdGetCfg, 5⟩ true).2 :=
  apmEndGprCmd_endsOnce _ _ true ⟨rfl, rfl, Or.inl (by decide), fun h => absurd h (by decide)⟩

/-! ## From the reception to the end -/

/-- A GPR command that was just given its slot. -/
structure ApmGprCmd.Fresh (cmd : ApmGprCmd) : Prop where
  hasRsp : cmd.hasRsp = false
  cmdPayload : cmd.cmdPayload = none
  /-- `cmd_opcode` is that of the packet. -/
  cmdOpcode : cmd.cmdOpcode = cmd.packetOpcode
  isGpr : cmd.isGpr = true
  isCommand : IsCommandOpcode cmd.packetOpcode

/-- A command whose payload was looked for. -/
structure ApmGprCmd.Received (cmd : ApmGprCmd) : Prop where
  isGpr : cmd.isGpr = true
  isCommand : IsCommandOpcode cmd.packetOpcode
  /-- Only an in-band `APM_CMD_GET_CFG` has a response packet. -/
  rsp : cmd.hasRsp = true → cmd.cmdOpcode = apmCmdGetCfg ∧ cmd.memMapHandle = 0

/-- The search for the payload allocates a response only for an in-band `APM_CMD_GET_CFG`. -/
lemma ApmGprCmd.Fresh.payloadAddr (h : cmd.Fresh) (o : PayloadResults) :
    (spfSvcGetCmdPayloadAddr o cmd).2.2.Received ∧
      (spfSvcGetCmdPayloadAddr o cmd).2.2.cmdPayload = none := by
  obtain ⟨hrsp, hpayload, hopcode, hgpr, hcommand⟩ := h
  have hno : cmd.hasRsp ≠ true := by simp [hrsp]
  unfold spfSvcGetCmdPayloadAddr
  split_ifs with hinband hget
  · exact ⟨⟨hgpr, hcommand, fun _ => ⟨hopcode.trans hget, hinband⟩⟩, hpayload⟩
  · exact ⟨⟨hgpr, hcommand, fun hsome => absurd hsome hno⟩, hpayload⟩
  · exact ⟨⟨hgpr, hcommand, fun hsome => absurd hsome hno⟩, hpayload⟩

/-- **The reception.**  A reference on shared memory is taken exactly when the command holds one
afterwards. -/
lemma ApmGprCmd.Fresh.received (h : cmd.Fresh) (o : PayloadResults) :
    (apmGetGprCmdPayload o cmd).2.1.Received ∧
      ∀ handle ≠ 0, (apmGetGprCmdPayload o cmd).2.2.count (.incrRefcount handle) =
        if (apmGetGprCmdPayload o cmd).2.1.HoldsReference ∧
          handle = (apmGetGprCmdPayload o cmd).2.1.memMapHandle then 1 else 0 := by
  obtain ⟨hreceived, hnone⟩ := h.payloadAddr o
  have hfree : ∀ c : ApmGprCmd, c.cmdPayload = none → ∀ handle ≠ 0,
      ([] : List EndEvent).count (.incrRefcount handle) =
        if c.HoldsReference ∧ handle = c.memMapHandle then 1 else 0 :=
    fun c hc handle _ => (if_neg fun hboth => hboth.1.2 hc).symm
  unfold apmGetGprCmdPayload
  by_cases hclose : cmd.packetOpcode = apmCmdCloseAll
  · rw [if_pos hclose]
    have hno : cmd.hasRsp ≠ true := by simp [h.hasRsp]
    exact ⟨⟨h.isGpr, h.isCommand, fun hsome => absurd hsome hno⟩, hfree _ rfl⟩
  generalize spfSvcGetCmdPayloadAddr o cmd = found at hreceived hnone
  obtain ⟨result, addr, c⟩ := found
  dsimp only at hreceived hnone ⊢
  split_ifs
  · exact ⟨hreceived, hfree c hnone⟩
  · exact ⟨hreceived, hfree c hnone⟩
  · refine ⟨⟨hreceived.isGpr, hreceived.isCommand, hreceived.rsp⟩, fun handle hne => ?_⟩
    by_cases heq : handle = c.memMapHandle
    · subst heq
      simp [HoldsReference, hne]
    · simp [heq, Ne.symm heq]

/-- **Each reference is given back.**  Between the reception of a command and its end, the
reference on shared memory that is taken for it, if one is taken, is dropped once, whatever the
results of the command. -/
theorem apmCmd_reference_balanced (payload : PayloadResults) (o : EndResults) (hasPwrMgr : Bool)
    (cmdStatus aggRspStatus : UInt32) (h : cmd.Fresh) (handle : UInt32) (hhandle : handle ≠ 0) :
    (apmEndGprCmd o { (apmGetGprCmdPayload payload cmd).2.1 with
        cmdPending := false
        cmdStatus := cmdStatus
        aggRspStatus := aggRspStatus } hasPwrMgr).2.count (.decrRefcount handle) =
      (apmGetGprCmdPayload payload cmd).2.2.count (.incrRefcount handle) := by
  obtain ⟨hreceived, htaken⟩ := h.received payload
  rw [htaken handle hhandle]
  generalize (apmGetGprCmdPayload payload cmd).2.1 = c at hreceived ⊢
  have hfinished : ApmGprCmd.Finished { c with
      cmdPending := false
      cmdStatus := cmdStatus
      aggRspStatus := aggRspStatus } :=
    ⟨rfl, hreceived.isGpr, hreceived.isCommand, hreceived.rsp⟩
  obtain ⟨t, hresponse, heq⟩ := apmEndGprCmd_response o hasPwrMgr hfinished
  rw [heq]
  exact ((hresponse.accounts fun hrsp hholds =>
    hholds.1 (hreceived.rsp hrsp).2).finish hasPwrMgr).reference handle

/-- An out-of-band command for whose response no packet can be allocated. -/
theorem apmCmd_reference_balanced_outOfBand :
    let cmd : ApmGprCmd := ⟨0, true, true, apmCmdGetCfg, 0, 0, none, false, apmCmdGetCfg, 5⟩
    (apmEndGprCmd ⟨fun _ => 1, fun _ => 1, 0⟩
      { (apmGetGprCmdPayload ⟨(0, false, 0), 0, (0, 64), 0⟩ cmd).2.1 with
        cmdPending := false
        cmdStatus := 0
        aggRspStatus := 0 } false).2.count (.decrRefcount 5) = 1 :=
  apmCmd_reference_balanced ⟨(0, false, 0), 0, (0, 64), 0⟩ _ false 0 0
    ⟨rfl, rfl, rfl, rfl, Or.inl (by decide)⟩ 5 (by decide)

end AudioReach
