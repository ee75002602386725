import AudioReach.ArResult
import AudioReach.Library.Bitmask

/-!
# Parallel graph-management commands

The APM works on several commands at once.  Each of them owns a slot of the command list
and a bit of the active mask.  A graph-management command whose sub-graphs overlap with
those of a pending command is deferred, and each command that ends makes the APM look for
a deferred one to resume.

The model follows `apm_parallel_cmd_utils.c` and the slot functions of `apm_cmd_utils.c`.
Of a command it keeps what these read: the opcode, the pending flag, the status, the slot
index and the two lists of sub-graph ids.  The number of slots, which a chip may override,
is a parameter.  The sequencer that works on an active command appears only through the
calls it ends with: a command that is neither deferred nor ended is active.
-/

namespace AudioReach

open AudioReach.Library

/-! ## Commands -/

/-- The command opcodes that the deferral logic tells apart. -/
inductive CmdOpcode
  | graphOpen
  | graphPrepare
  | graphStart
  | graphStop
  | graphFlush
  | graphClose
  | closeAll
  | graphSuspend
  | proxyGraphStart
  | proxyGraphStop
  | proxyGraphPrepare
  | spfMsgSetCfg
  /-- Any opcode that is not a graph-management one; also that of a cleared slot. -/
  | other
  deriving DecidableEq, Repr

/-- `apm_is_graph_mgmt_cmd_opcode`. -/
def CmdOpcode.isGraphMgmt : CmdOpcode → Bool
  | .other => false
  | _ => true

/-- `apm_is_proxy_graph_mgmt_cmd_opcode`. -/
def CmdOpcode.isProxyGraphMgmt : CmdOpcode → Bool
  | .proxyGraphStart | .proxyGraphStop | .proxyGraphPrepare => true
  | _ => false

/-- `apm_cmd_ctrl_t`: a slot of the command list. -/
structure CmdCtrl where
  listIdx : ℕ
  cmdOpcode : CmdOpcode
  cmdStatus : ArResult
  cmdPending : Bool
  /-- `cmd_sg_id_list_ptr`: the sub-graph ids that the command addresses directly. -/
  cmdSgIdList : List ℕ
  /-- The ids in `cont_port_hdl_sg_list_ptr`: the sub-graphs reached through links. -/
  contPortHdlSgList : List ℕ
  deriving DecidableEq, Repr

/-- A slot after the `memset` of `apm_deallocate_cmd_ctrl_obj`. -/
def CmdCtrl.cleared : CmdCtrl :=
  { listIdx := 0
    cmdOpcode := .other
    cmdStatus := .eok
    cmdPending := false
    cmdSgIdList := []
    contPortHdlSgList := [] }

/-- An entry of `sub_graph_conn_list_ptr`; a null sub-graph pointer is `none`. -/
structure SgConn where
  /-- The id behind `self_sg_obj_ptr`. -/
  selfSg : Option ℕ
  /-- The id behind `peer_sg_obj_ptr`. -/
  peerSg : Option ℕ
  deriving DecidableEq, Repr

/-! ## Overlap of two commands

The functions write their answer through a pointer and may leave it untouched, so they take
the flag and return it next to the result. -/

/-- `apm_gm_cmd_check_overlap_for_single_sg_id`. -/
def checkOverlapForSingleSgId (list : CmdCtrl) (tgtSgId : ℕ) (overlap : Bool) : ArResult × Bool :=
  if tgtSgId = 0 then (.efailed, overlap)
  else if tgtSgId ∈ list.cmdSgIdList then (.eok, true)
  else if tgtSgId ∈ list.contPortHdlSgList then (.eok, true)
  else (.eok, overlap)

/-- The inner loop of `apm_gm_cmd_check_sg_list_overlap`: the peers of one sub-graph. -/
def checkPeers (list : CmdCtrl) (tgtSgId : ℕ) : List SgConn → Bool → ArResult × Bool
  | [], overlap => (.eok, overlap)
  | conn :: conns, overlap =>
    match conn.selfSg, conn.peerSg with
    | some self, some peer =>
      if tgtSgId = self then
        let answer := checkOverlapForSingleSgId list peer overlap
        if answer.1 ≠ .eok then answer
        else if answer.2 then (.eok, true)
        else checkPeers list tgtSgId conns answer.2
      else if overlap then (.eok, true)
      else checkPeers list tgtSgId conns overlap
    | _, _ => if overlap then (.eok, true) else checkPeers list tgtSgId conns overlap

/-- The outer loop: the sub-graphs that the current command addresses directly. -/
def checkDirect (conns : List SgConn) (list : CmdCtrl) : List ℕ → Bool → ArResult × Bool
  | [], overlap => (.eok, overlap)
  | sgId :: sgIds, overlap =>
    let self := checkOverlapForSingleSgId list sgId overlap
    if self.1 ≠ .eok then self
    else if self.2 then (.eok, true)
    else
      let peers := checkPeers list sgId conns self.2
      if peers.1 ≠ .eok then peers
      else if peers.2 then (.eok, true)
      else checkDirect conns list sgIds peers.2

/-- The last loop: the sub-graphs that the current command reaches through links.  It does
not stop at an overlap, and does not look at the peers. -/
def checkLinked (list : CmdCtrl) : List ℕ → Bool → ArResult × Bool
  | [], overlap => (.eok, overlap)
  | sgId :: sgIds, overlap =>
    let self := checkOverlapForSingleSgId list sgId overlap
    if self.1 ≠ .eok then self else checkLinked list sgIds self.2

/-- `apm_gm_cmd_check_sg_list_overlap`. -/
def checkSgListOverlap (conns : List SgConn) (curr list : CmdCtrl) : ArResult × Bool :=
  let direct := checkDirect conns list curr.cmdSgIdList false
  if direct.1 ≠ .eok then direct
  else if direct.2 then direct
  else checkLinked list curr.contPortHdlSgList direct.2

/-! ## The command list -/

/-- `APM_NUM_MAX_PARALLEL_CMD`: the number of slots, at most the width of the mask. -/
abbrev NumMaxParallelCmd := { n : ℕ // 0 < n ∧ n ≤ 32 }

/-- The default of `apm_graph_db.h`. -/
def defaultNumMaxParallelCmd : NumMaxParallelCmd := ⟨4, by decide⟩

/-- The part of `apm_t` that keeps the commands. -/
structure ApmCmds where
  cmdCtrlList : ℕ → CmdCtrl
  activeCmdMask : ℕ
  /-- `APM_CMD_Q_MASK` is in `curr_wait_mask`. -/
  cmdQListened : Bool
  /-- The slots of the commands in `deferred_cmd_list`. -/
  deferredCmdList : List ℕ
  /-- `deferred_cmd_list.num_nodes`. -/
  numDeferred : ℕ
  closeAllDeferred : Bool

namespace ApmCmds

variable (n : NumMaxParallelCmd) (conns : List SgConn)

/-- The commands of a new APM. -/
def init : ApmCmds :=
  { cmdCtrlList := fun _ => CmdCtrl.cleared
    activeCmdMask := 0
    cmdQListened := true
    deferredCmdList := []
    numDeferred := 0
    closeAllDeferred := false }

/-- `APM_CMD_LIST_FULL_MASK`. -/
def fullMask : ℕ := lowMask n.val

/-- The slot that the next command gets: `s32_ct1_s32` of the mask. -/
def freeSlot (s : ApmCmds) : ℕ := trailingOnes 32 s.activeCmdMask

/-- Store a command in its slot. -/
def setCmd (s : ApmCmds) (i : ℕ) (cmd : CmdCtrl) : ApmCmds :=
  { s with cmdCtrlList := Function.update s.cmdCtrlList i cmd }

/-- What a command brings along: its opcode and, once the payload is parsed, its lists. -/
structure NewCmd where
  cmdOpcode : CmdOpcode
  cmdSgIdList : List ℕ
  contPortHdlSgList : List ℕ
  deriving DecidableEq, Repr

/-- The slot of a command just accepted. -/
def NewCmd.toCtrl (cmd : NewCmd) (i : ℕ) : CmdCtrl :=
  { listIdx := i
    cmdOpcode := cmd.cmdOpcode
    cmdStatus := .eok
    cmdPending := true
    cmdSgIdList := cmd.cmdSgIdList
    contPortHdlSgList := cmd.contPortHdlSgList }

/-- `apm_allocate_cmd_ctrl_obj`, and the lists that parsing adds; `none` is the failure when
all slots are taken. -/
def allocateCmdCtrlObj (s : ApmCmds) (cmd : NewCmd) : Option ApmCmds :=
  if s.activeCmdMask = fullMask n then none
  else
    let i := s.freeSlot
    let mask := s.activeCmdMask ||| 2 ^ i
    some { s.setCmd i (cmd.toCtrl i) with
      activeCmdMask := mask
      cmdQListened := if mask = fullMask n then false else s.cmdQListened }

/-- `apm_deallocate_cmd_ctrl_obj`. -/
def deallocateCmdCtrlObj (s : ApmCmds) (i : ℕ) : ApmCmds :=
  { s.setCmd i CmdCtrl.cleared with
    activeCmdMask := Nat.ldiff s.activeCmdMask (2 ^ (s.cmdCtrlList i).listIdx)
    cmdQListened := true }

/-! ### Overlap with the other commands -/

/-- What `apm_check_sg_id_overlap_across_parallel_cmds` finds. -/
structure AcrossCheck where
  result : ArResult
  /-- `*sg_list_overlap_ptr`. -/
  overlap : Bool
  busy : Bool
  deriving DecidableEq, Repr

/-- The loop over the slots `idxs`. -/
def acrossLoop (slots : ℕ → CmdCtrl) (curr : ℕ) : List ℕ → AcrossCheck → AcrossCheck
  | [], check => check
  | idx :: idxs, check =>
    if (slots idx).cmdPending && idx ≠ curr then
      if (slots curr).cmdOpcode = .closeAll then { check with overlap := true }
      else
        let pair := checkSgListOverlap conns (slots curr) (slots idx)
        if (slots curr).cmdOpcode.isProxyGraphMgmt && (slots idx).cmdOpcode = .closeAll then
          { result := .ebusy, overlap := pair.2, busy := true }
        else if pair.2 then { check with result := pair.1, overlap := true }
        else acrossLoop slots curr idxs { check with result := pair.1, overlap := pair.2 }
    else acrossLoop slots curr idxs check

/-- `apm_check_sg_id_overlap_across_parallel_cmds`, without the update of the command. -/
def checkAcross (s : ApmCmds) (curr : ℕ) : AcrossCheck :=
  acrossLoop conns s.cmdCtrlList curr (List.range n.val)
    { result := .eok, overlap := false, busy := false }

/-- The update: a busy command is no longer pending. -/
def noteBusy (s : ApmCmds) (curr : ℕ) (check : AcrossCheck) : ApmCmds :=
  if check.busy then
    s.setCmd curr { s.cmdCtrlList curr with cmdStatus := .ebusy, cmdPending := false }
  else s

/-! ### Resuming -/

/-- `apm_resume_deferred_cmd_proc`: the command leaves the deferred list. -/
def resumeDeferredCmdProc (s : ApmCmds) (i : ℕ) : ApmCmds :=
  { s with
    deferredCmdList := s.deferredCmdList.erase i
    numDeferred := s.numDeferred - 1
    closeAllDeferred := false }

/-- `apm_get_num_available_cmd`. -/
def getNumAvailableCmd (s : ApmCmds) : ℕ :=
  ((List.range n.val).filter fun i => (s.cmdCtrlList i).cmdPending).length

/-- The loop of `apm_check_def_cmd_is_ready_to_process` over the deferred commands. -/
def resumeLoop (s : ApmCmds) : List ℕ → ApmCmds
  | [] => s
  | i :: rest =>
    let check := s.checkAcross n conns i
    if check.result ≠ .eok then s.noteBusy i check
    else if check.overlap then resumeLoop s rest
    else s.resumeDeferredCmdProc i

/-- `apm_check_def_cmd_is_ready_to_process`. -/
def checkDefCmdIsReadyToProcess (s : ApmCmds) : ApmCmds :=
  if s.numDeferred = 0 then s
  else if s.numDeferred = s.getNumAvailableCmd n then
    match s.deferredCmdList with
    | [] => s
    | i :: _ => s.resumeDeferredCmdProc i
  else s.resumeLoop n conns s.deferredCmdList

/-- `apm_end_cmd` for the command in slot `i`, whose pending flag was cleared. -/
def endCmd (s : ApmCmds) (i : ℕ) : ApmCmds :=
  (s.deallocateCmdCtrlObj i).checkDefCmdIsReadyToProcess n conns

/-! ### Deferring -/

/-- `apm_check_if_multiple_cmds_executing`. -/
def multipleCmdsExecuting (mask : ℕ) : Bool :=
  decide (1 < mask) && decide (mask &&& (mask - 1) ≠ 0)

/-- `apm_check_if_graph_close_cmd_active`. -/
def graphCloseCmdActive (s : ApmCmds) : Bool :=
  (List.range n.val).any fun i =>
    (s.cmdCtrlList i).cmdPending && (s.cmdCtrlList i).cmdOpcode = .graphClose

/-- `apm_defer_close_all_cmd`. -/
def deferCloseAllCmd (s : ApmCmds) (i : ℕ) : Bool :=
  s.activeCmdMask ≠ 0 && (s.cmdCtrlList i).cmdOpcode = .closeAll

/-- Append the command to the deferred list. -/
def deferCmd (s : ApmCmds) (i : ℕ) : ApmCmds :=
  { s with
    deferredCmdList := s.deferredCmdList ++ [i]
    numDeferred := s.numDeferred + 1
    closeAllDeferred :=
      if (s.cmdCtrlList i).cmdOpcode = .closeAll then true else s.closeAllDeferred }

/-- Take a proxy command back from the deferred list. -/
def revertDeferral (s : ApmCmds) (i : ℕ) : ApmCmds :=
  { s with
    deferredCmdList := s.deferredCmdList.erase i
    numDeferred := s.numDeferred - 1 }

/-- How `apm_check_and_defer_cmd_processing` leaves a command. -/
inductive Admission
  /-- Nothing stands against the command. -/
  | active
  /-- The command waits in the deferred list. -/
  | deferred
  /-- A proxy command that overlaps, but with no close in parallel. -/
  | reverted
  /-- The check failed; the sequencer is set up for error handling. -/
  | failed
  /-- A proxy command that met a `CLOSE_ALL`. -/
  | busy
  deriving DecidableEq, Repr

/-- `apm_check_and_defer_cmd_processing` for the command in slot `i`; `allocated` tells
whether a list node can be allocated. -/
def checkAndDeferCmdProcessing (s : ApmCmds) (i : ℕ) (allocated : Bool) : Admission × ApmCmds :=
  let cmd := s.cmdCtrlList i
  if !cmd.cmdOpcode.isGraphMgmt || !multipleCmdsExecuting s.activeCmdMask then (.active, s)
  else
    let check :=
      if cmd.cmdOpcode ≠ .closeAll then s.checkAcross n conns i
      else { result := .eok, overlap := false, busy := false }
    if check.result = .ebusy then (.busy, s.noteBusy i check)
    else if check.result ≠ .eok then (.failed, s)
    else if s.deferCloseAllCmd i || check.overlap then
      if !allocated then (.failed, s)
      else if cmd.cmdOpcode.isProxyGraphMgmt && !s.graphCloseCmdActive n then
        (.reverted, (s.deferCmd i).revertDeferral i)
      else (.deferred, s.deferCmd i)
    else (.active, s)

end ApmCmds

end AudioReach
