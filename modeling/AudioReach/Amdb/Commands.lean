import AudioReach.Library.Runs

/-!
# The commands of the module database

The module database runs a command itself or, on the master, passes it on to a satellite.  A
command that was passed on waits in `cmd_ctrl_list` for the response with its token, a load that
was started waits for the callback of the loader; every other command is answered at once.

The state is the list together with an account of what the handlers own: the command packets
received, the packets they received or allocated for an answer or for a satellite, and the blocks of
loaned memory.  Each is named by the number of those there were before it, and what was done with it
is written down.  What the allocations, the sends and the checks of the payload give is an input of
each call.
-/

namespace AudioReach

/-- The opcodes of the commands. -/
inductive AmdbOpcode
  | registerModules
  | deregisterModules
  | loadModules
  | unloadModules
  | getCfg
  /-- Any other. -/
  | other
  deriving DecidableEq, Repr

/-- The opcodes of the responses. -/
inductive AmdbRspOpcode
  /-- `AMDB_CMD_RSP_LOAD_MODULES`. -/
  | loadModules
  /-- `GPR_IBASIC_RSP_RESULT`. -/
  | basic
  /-- Any other, that of a get-config among them. -/
  | other
  deriving DecidableEq, Repr

/-- How `spf_svc_alloc_rsp_payload` goes. -/
inductive RspAlloc
  | ok
  /-- There is no packet. -/
  | noMemory
  /-- The parameters of a get-config do not fit: the packet is freed again. -/
  | malformed
  deriving DecidableEq, Repr

/-- `amdb_cmd_ctrl_t`, with the address it is allocated at. -/
structure AmdbCmdCtrl where
  ptr : ℕ
  token : UInt32
  cmdOpcode : AmdbOpcode
  cmdMsg : ℕ
  dstDomainId : UInt32
  isOutOfBand : Bool
  loanedMem : Option ℕ
  deriving DecidableEq, Repr

/-- `amdb_context_t`: a load that waits for its callback. -/
structure AmdbContext where
  gprRspPkt : Option ℕ
  gprPkt : ℕ
  deriving DecidableEq, Repr

/-- A command as it is received, with what happens on its way. -/
structure AmdbCmd where
  opcode : AmdbOpcode
  isOutOfBand : Bool
  /-- `proc_domain` of the payload. -/
  procDomain : UInt32
  isSatPd : Bool
  /-- The memory of an out-of-band payload is mapped. -/
  mapped : Bool
  rsp : RspAlloc
  ctrl : Bool
  node : Bool
  packet : Bool
  loan : Bool
  routed : Bool
  /-- The modules of a load are requested: the payload is well formed and there is memory. -/
  requested : Bool
  sent : Bool
  deriving DecidableEq, Repr

/-- The processor a command is for, the first switch of `amdb_cmdq_gpr_cmd_handler`. -/
def AmdbCmd.destDomainId (c : AmdbCmd) : UInt32 :=
  if c.opcode = .other then 0xFFFFFFFF else c.procDomain

/-- A response of a satellite, with what happens on its way. -/
structure AmdbRsp where
  opcode : AmdbRspOpcode
  token : UInt32
  packet : Bool
  sent : Bool
  deriving DecidableEq, Repr

/-- The thread of the module database and the account of what it owns. -/
structure AmdbThread where
  cmdCtrlList : List AmdbCmdCtrl
  amdbToken : UInt32
  loading : List AmdbContext
  nextPtr : ℕ
  nextCmd : ℕ
  /-- The number of packets received from satellites or allocated. -/
  nextPkt : ℕ
  nextLoan : ℕ
  answered : List ℕ
  freed : List ℕ
  /-- The commands that were passed on to a satellite. -/
  forwarded : List ℕ
  gone : List ℕ
  returned : List ℕ
  /-- A packet was used after it was freed, or one that was not there. -/
  fault : Bool

/-- What happens to the thread. -/
inductive AmdbEvent
  /-- A command is taken from the command queue. -/
  | cmd (c : AmdbCmd)
  /-- A response is taken from the response queue. -/
  | rsp (r : AmdbRsp)
  /-- A satellite goes down. -/
  | satelliteDown (procDomainId : UInt32)
  /-- The loader calls back for a load; whether the response is sent. -/
  | loaded (ctx : AmdbContext) (sent : Bool)
  deriving DecidableEq, Repr

namespace AmdbThread

/-- The thread when it starts. -/
def init : AmdbThread where
  cmdCtrlList := []
  amdbToken := 0
  loading := []
  nextPtr := 0
  nextCmd := 0
  nextPkt := 0
  nextLoan := 0
  answered := []
  freed := []
  forwarded := []
  gone := []
  returned := []
  fault := false

variable (s : AmdbThread)

/-! ## Packets and memory -/

/-- The packet of a command is answered. -/
def answer (c : ℕ) : AmdbThread :=
  { s with answered := c :: s.answered, fault := s.fault || s.freed.contains c }

/-- The packet of a command is freed. -/
def freeCmd (c : ℕ) : AmdbThread :=
  { s with freed := c :: s.freed, fault := s.fault || s.freed.contains c }

/-- `__gpr_cmd_end_command`: the command is answered and its packet freed. -/
def endCommand (c : ℕ) : AmdbThread :=
  (s.answer c).freeCmd c

/-- A packet of the thread is sent or freed. -/
def finishPkt (p : ℕ) : AmdbThread :=
  { s with gone := p :: s.gone, fault := s.fault || s.gone.contains p }

/-- A packet is received or allocated; its number is `nextPkt`. -/
def newPkt : AmdbThread :=
  { s with nextPkt := s.nextPkt + 1 }

/-- A packet is written or read. -/
def usePkt (p : Option ℕ) : AmdbThread :=
  match p with
  | none => { s with fault := true }
  | some p => { s with fault := s.fault || s.gone.contains p }

/-- `apm_offload_memory_free`, if there is loaned memory. -/
def freeLoaned (l : Option ℕ) : AmdbThread :=
  { s with returned := l.toList ++ s.returned }

/-- `spf_svc_alloc_rsp_payload`. -/
def allocRspPayload (opcode : AmdbOpcode) (rsp : RspAlloc) : Option ℕ × AmdbThread :=
  match opcode, rsp with
  | .getCfg, .malformed => (some s.nextPkt, s.newPkt.finishPkt s.nextPkt)
  | .getCfg, .ok | .loadModules, .ok | .loadModules, .malformed => (some s.nextPkt, s.newPkt)
  | _, _ => (none, s)

/-- `spf_svc_get_cmd_payload_addr`: whether there is a payload, and the response. -/
def getCmdPayloadAddr (c : AmdbCmd) : Bool × Option ℕ × AmdbThread :=
  if c.isOutOfBand then
    (c.mapped, none, s)
  else if c.opcode = .getCfg then
    (true, s.allocRspPayload .getCfg c.rsp)
  else
    (true, none, s)

/-! ## The command control -/

/-- `amdb_set_cmd_ctrl`: the list node may be missing. -/
def setCmdCtrl (c : AmdbCmd) (cmdMsg : ℕ) (dstDomainId : UInt32) :
    Option AmdbCmdCtrl × AmdbThread :=
  if c.ctrl then
    let e : AmdbCmdCtrl :=
      { ptr := s.nextPtr
        token := s.amdbToken
        cmdOpcode := c.opcode
        cmdMsg := cmdMsg
        dstDomainId := dstDomainId
        isOutOfBand := false
        loanedMem := none }
    (some e,
      { s with
        cmdCtrlList := if c.node then s.cmdCtrlList ++ [e] else s.cmdCtrlList
        amdbToken := s.amdbToken + 1
        nextPtr := s.nextPtr + 1 })
  else
    (none, s)

/-- `amdb_clear_cmd_ctrl`. -/
def clearCmdCtrl (ptr : ℕ) : AmdbThread :=
  { s with cmdCtrlList := s.cmdCtrlList.eraseP fun e => e.ptr = ptr }

/-- `amdb_get_cmd_ctrl_obj`. -/
def getCmdCtrlObj (token : UInt32) : Option AmdbCmdCtrl :=
  s.cmdCtrlList.find? fun e => e.token = token

/-- The command control is written. -/
def writeCmdCtrl (e : AmdbCmdCtrl) : AmdbThread :=
  { s with cmdCtrlList := s.cmdCtrlList.map fun e' => if e'.ptr = e.ptr then e else e' }

/-! ## Commands -/

/-- `amdb_route_cmd_to_satellite`: whether it is successful. -/
def routeCmdToSatellite (c : AmdbCmd) (cmdMsg : ℕ) (dstDomainId : UInt32) : Bool × AmdbThread :=
  match s.setCmdCtrl c cmdMsg dstDomainId with
  | (none, s) => (false, s)
  | (some e, s) =>
    if c.packet then
      let newCmd := s.nextPkt
      let s := s.newPkt
      if c.isOutOfBand && !c.loan then
        -- the command control and the new packet stay
        (false, s)
      else
        let e := if c.isOutOfBand then
          { e with loanedMem := some s.nextLoan, isOutOfBand := true } else e
        let s := if c.isOutOfBand then
          { s.writeCmdCtrl e with nextLoan := s.nextLoan + 1 } else s
        if c.routed then
          (true, { s.finishPkt newCmd with forwarded := cmdMsg :: s.forwarded })
        else
          (false, ((s.finishPkt newCmd).freeLoaned e.loanedMem).clearCmdCtrl e.ptr)
    else
      (false, s.clearCmdCtrl e.ptr)

/-- `amdb_load_unload_send_rsp` for a load, after which the command is freed. -/
def loadSendRsp (ctx : AmdbContext) (sent : Bool) : AmdbThread :=
  let s := match ctx.gprRspPkt with
    | some p => s.finishPkt p
    | none => s
  let s := if sent then s.answer ctx.gprPkt else s
  s.freeCmd ctx.gprPkt

/-- `amdb_load_unload_modules` for a load. -/
def loadModules (c : AmdbCmd) (ctx : AmdbContext) : AmdbThread :=
  if c.requested then
    { s with loading := ctx :: s.loading }
  else
    s.loadSendRsp ctx c.sent

/-- A command for this processor, the second switch of `amdb_cmdq_gpr_cmd_handler`. -/
def runCmd (c : AmdbCmd) (cmdMsg : ℕ) (rsp : Option ℕ) : AmdbThread :=
  match c.opcode with
  | .registerModules | .deregisterModules | .unloadModules => s.endCommand cmdMsg
  | .loadModules =>
    if c.isOutOfBand then
      s.loadModules c ⟨none, cmdMsg⟩
    else
      match s.allocRspPayload .loadModules c.rsp with
      | (none, s) => s
      | (some p, s) => s.loadModules c ⟨some p, cmdMsg⟩
  | .getCfg =>
    let s := if c.isOutOfBand then s else s.usePkt rsp
    let s := match rsp with
      | some p => s.finishPkt p
      | none => s
    let s := if c.sent then s.answer cmdMsg else s
    s.freeCmd cmdMsg
  | .other => s

/-- `amdb_cmdq_gpr_cmd_handler` once it has the payload: a command for another processor is passed
on. -/
def dispatchCmd (hostDomainId : UInt32) (c : AmdbCmd) (cmdMsg : ℕ) (rsp : Option ℕ) : AmdbThread :=
  -- the destination of a get-config is read from the response, if there is one
  let s := if rsp.isSome then s.usePkt rsp else s
  if hostDomainId ≠ c.destDomainId then
    if c.isSatPd then
      match s.routeCmdToSatellite c cmdMsg c.destDomainId with
      | (true, s) => s
      | (false, s) => s.endCommand cmdMsg
    else
      s.endCommand cmdMsg
  else
    s.runCmd c cmdMsg rsp

/-- `amdb_cmdq_gpr_cmd_handler`, for the command that is received as number `nextCmd`. -/
def cmdqGprCmdHandler (hostDomainId : UInt32) (c : AmdbCmd) : AmdbThread :=
  match { s with nextCmd := s.nextCmd + 1 }.getCmdPayloadAddr c with
  | (false, _, s') => s'.endCommand s.nextCmd
  | (true, rsp, s') => s'.dispatchCmd hostDomainId c s.nextCmd rsp

/-! ## Responses -/

/-- `amdb_route_basic_rsp_to_client`, for the response with the number `p`. -/
def routeBasicRspToClient (p : ℕ) (r : AmdbRsp) : AmdbThread :=
  match s.getCmdCtrlObj r.token with
  | none => s.finishPkt p
  | some e =>
    (((s.finishPkt p).endCommand e.cmdMsg).freeLoaned e.loanedMem).clearCmdCtrl e.ptr

/-- `amdb_route_load_rsp_to_client`, for the response with the number `p`. -/
def routeLoadRspToClient (p : ℕ) (r : AmdbRsp) : AmdbThread :=
  match s.getCmdCtrlObj r.token with
  | none => s.finishPkt p
  | some e =>
    if e.cmdOpcode ≠ .loadModules then
      -- the command is not ended, its packet is not known yet
      ((s.finishPkt p).freeLoaned e.loanedMem).clearCmdCtrl e.ptr
    else if r.packet then
      let newRsp := s.nextPkt
      let s := s.newPkt.finishPkt newRsp
      let s := s.finishPkt p
      let s := if r.sent then (s.answer e.cmdMsg).freeCmd e.cmdMsg else s.endCommand e.cmdMsg
      (s.freeLoaned e.loanedMem).clearCmdCtrl e.ptr
    else
      (((s.finishPkt p).endCommand e.cmdMsg).freeLoaned e.loanedMem).clearCmdCtrl e.ptr

/-- `amdb_rspq_gpr_rsp_handler`, for the response that is received as number `nextPkt`. -/
def rspqGprRspHandler (r : AmdbRsp) : AmdbThread :=
  let p := s.nextPkt
  let s := s.newPkt
  match r.opcode with
  | .loadModules => s.routeLoadRspToClient p r
  | .basic => s.routeBasicRspToClient p r
  | .other => s

/-! ## Satellites and the loader -/

/-- `amdb_clean_up_proc_id_cmd_ctrl`, for the nodes of the list in order. -/
def cleanUpProcIdCmdCtrl (procDomainId : UInt32) : AmdbThread :=
  s.cmdCtrlList.foldl (fun s e =>
      if e.dstDomainId = procDomainId then
        ((s.endCommand e.cmdMsg).freeLoaned e.loanedMem).clearCmdCtrl e.ptr
      else
        s) s

/-- `amdb_load_callback`. -/
def loadCallback (ctx : AmdbContext) (sent : Bool) : AmdbThread :=
  if ctx ∈ s.loading then
    { s with loading := s.loading.erase ctx }.loadSendRsp ctx sent
  else
    s

/-- One event. -/
def step (hostDomainId : UInt32) (s : AmdbThread) : AmdbEvent → AmdbThread
  | .cmd c => s.cmdqGprCmdHandler hostDomainId c
  | .rsp r => s.rspqGprRspHandler r
  | .satelliteDown procDomainId => s.cleanUpProcIdCmdCtrl procDomainId
  | .loaded ctx sent => s.loadCallback ctx sent

end AmdbThread

end AudioReach
