import AudioReach.ArResult
import AudioReach.Library.FirstMatch
import Mathlib.Order.MinMax

/-!
# Multi-client graph management

Several clients can open the same sub-graph.  The extension `apm_multi_client.c` keeps, in
each sub-graph and in each link between sub-graphs, one context a client: who it is and, in
a sub-graph, the state the client asked for last.  A graph-management command goes to the
sequencer only when the states the other clients asked for allow it.

A list of pointers to contexts is the list of the contexts; the code always works on the
first context that matches the sender of the command.  A sub-graph node is named by its id,
as `apm_db_get_sub_graph_node` finds it.  Counters are natural numbers: they count heap
nodes.
-/

namespace AudioReach

open AudioReach.Library

/-! ## States and commands -/

/-- The states of a sub-graph, `APM_SG_STATE_*`. -/
inductive SgState
  | invalid
  | stopped
  | suspended
  | prepared
  | started
  deriving DecidableEq, Repr

/-- The value of the state in `apm_debug_info.h`; states are compared by it. -/
def SgState.value : SgState → ℕ
  | .invalid => 0
  | .stopped => 1
  | .suspended => 2
  | .prepared => 3
  | .started => 4

lemma SgState.value_injective : Function.Injective SgState.value := by
  intro a b h
  cases a <;> cases b <;> first | rfl | cases h

instance : LinearOrder SgState :=
  LinearOrder.lift' SgState.value SgState.value_injective

lemma SgState.invalid_le (s : SgState) : SgState.invalid ≤ s :=
  Nat.zero_le s.value

/-- The graph-management commands that reach the sub-graph list, `APM_CMD_GRAPH_*`. -/
inductive GmOpcode
  | prepare
  | start
  | stop
  | suspend
  | flush
  | close
  | closeAll
  deriving DecidableEq, Repr

/-- `apm_multi_client_get_translated_apm_sg_state`. -/
def GmOpcode.translatedSgState : GmOpcode → SgState
  | .prepare => .prepared
  | .stop => .stopped
  | .start => .started
  | .suspend => .suspended
  | .close => .invalid
  | .closeAll => .invalid
  | .flush => .invalid

/-! ## Clients -/

/-- The sender of a command, as the GPR packet names it. -/
structure Client where
  srcPort : ℕ
  srcDomainId : ℕ
  deriving DecidableEq, Repr

/-- `apm_client_context_t`. -/
structure ClientContext where
  clientDomainId : ℕ
  clientPortId : ℕ
  /-- The state the client asked for before its last command. -/
  prevState : SgState
  currState : SgState
  deriving DecidableEq, Repr

/-- The context takes the commanded state; the old one is kept as `prev_state`. -/
def ClientContext.ask (state : SgState) (ctx : ClientContext) : ClientContext :=
  { ctx with prevState := ctx.currState, currState := state }

/-- The macro `CHECK_CLIENT_AND_DOMAIN`.  Only a build with `SIM` compares the ports. -/
def checkClientAndDomain (sim : Bool) (client : Client) (ctx : ClientContext) : Bool :=
  if sim then ctx.clientPortId == client.srcPort && ctx.clientDomainId == client.srcDomainId
  else ctx.clientDomainId == client.srcDomainId

/-- A list of client contexts with its counter. -/
structure ClientList where
  /-- `client_list_ptr`. -/
  contexts : List ClientContext
  numClient : ℕ
  deriving DecidableEq, Repr

namespace ClientList

/-- `apm_multi_client_get_client_node`: the context of the sender. -/
def getClientNode (sim : Bool) (client : Client) (l : ClientList) : Option ClientContext :=
  l.contexts.find? (checkClientAndDomain sim client)

/-- `apm_multi_client_check_duplicate_client`. -/
def checkDuplicateClient (sim : Bool) (client : Client) (l : ClientList) : ArResult :=
  if l.contexts.any (checkClientAndDomain sim client) then .eduplicate else .eok

/-- The context of a client that has just opened the sub-graph. -/
def openedContext (client : Client) : ClientContext :=
  { clientDomainId := client.srcDomainId
    clientPortId := client.srcPort
    prevState := .invalid
    currState := .stopped }

/-- `apm_db_add_node_to_list` on a client list. -/
def addContext (ctx : ClientContext) (l : ClientList) : ClientList :=
  { contexts := l.contexts ++ [ctx], numClient := l.numClient + 1 }

/-- `apm_multi_client_free_client_context`: the first context of the sender is taken out. -/
def freeClientContext (sim : Bool) (client : Client) (l : ClientList) : ClientList :=
  if l.contexts.any (checkClientAndDomain sim client) then
    { contexts := l.contexts.eraseP (checkClientAndDomain sim client)
      numClient := l.numClient - 1 }
  else l

/-- The sender's context takes the commanded state. -/
def setState (sim : Bool) (client : Client) (state : SgState) (l : ClientList) : ClientList :=
  { l with
    contexts := updateFirst (checkClientAndDomain sim client) (ClientContext.ask state)
      l.contexts }

/-- `apm_multi_client_aggregate_state`: the largest state of the contexts whose port is not
the one of `node`. -/
def aggregateState (node : ClientContext) (l : ClientList) : SgState :=
  l.contexts.foldl (fun state ctx =>
      if ctx.clientPortId ≠ node.clientPortId then max state ctx.currState else state)
    .invalid

end ClientList

/-! ## Sub-graphs and links -/

/-- `apm_sub_graph_t`, as far as the multi-client extension reads it. -/
structure SubGraph where
  subGraphId : ℕ
  /-- Whether `prop.scenario_id` is `APM_SUB_GRAPH_SID_VOICE_CALL`. -/
  voiceCall : Bool
  state : SgState
  /-- `client_list_ptr` with `num_client`. -/
  clients : ClientList
  deriving DecidableEq, Repr

/-- `apm_module_data_port_conn_t` and `apm_module_ctrl_port_conn_t`: a link with its two
ends and the clients that hold it.  For a control link the source is peer 1. -/
structure LinkNode where
  /-- `src_mod_inst_id`, `peer_1_mod_iid`. -/
  srcModInstId : ℕ
  /-- `src_mod_op_port_id`, `peer_1_mod_ctrl_port_id`. -/
  srcPortId : ℕ
  /-- `dst_mod_inst_id`, `peer_2_mod_iid`. -/
  dstModInstId : ℕ
  /-- `dst_mod_ip_port_id`, `peer_2_mod_ctrl_port_id`. -/
  dstPortId : ℕ
  /-- `src_host_sub_graph_id`, `peer_1_sub_graph_id`. -/
  srcHostSubGraphId : ℕ
  /-- `dst_host_sub_graph_id`, `peer_2_sub_graph_id`. -/
  dstHostSubGraphId : ℕ
  /-- `client_list_ptr` with `num_client`. -/
  clients : ClientList
  deriving DecidableEq, Repr

/-- The link begins or ends in the sub-graph. -/
def LinkNode.touches (subGraphId : ℕ) (link : LinkNode) : Bool :=
  subGraphId == link.srcHostSubGraphId || subGraphId == link.dstHostSubGraphId

/-- `apm_multi_client_free_all_conn_client_context` and
`apm_multi_client_free_all_ctrl_link_client_context`: every link of the sub-graph loses the
sender's context. -/
def freeAllLinkClientContext (sim : Bool) (client : Client) (subGraphId : ℕ)
    (links : List LinkNode) : List LinkNode :=
  links.map fun link =>
    if link.touches subGraphId then
      { link with clients := link.clients.freeClientContext sim client }
    else link

/-- The part of `apm_graph_info_t` that carries client contexts. -/
structure ApmGraphInfo where
  /-- `sub_graph_list_ptr`. -/
  subGraphs : List SubGraph
  /-- `conn_cfg_list_ptr`. -/
  conns : List LinkNode
  /-- `ctrl_link_cfg_list_ptr`. -/
  ctrlLinks : List LinkNode
  deriving DecidableEq, Repr

/-- `apm_db_get_sub_graph_node` with `APM_DB_OBJ_QUERY`: `none` is the null pointer that
comes with `AR_EFAILED`. -/
def ApmGraphInfo.getSubGraphNode (subGraphId : ℕ) (info : ApmGraphInfo) : Option SubGraph :=
  info.subGraphs.find? (·.subGraphId == subGraphId)

/-- The node of the sub-graph is overwritten in place. -/
def ApmGraphInfo.setSubGraphNode (sg : SubGraph) (info : ApmGraphInfo) : ApmGraphInfo :=
  { info with
    subGraphs := updateFirst (·.subGraphId == sg.subGraphId) (fun _ => sg) info.subGraphs }

/-! ## The decision about one sub-graph -/

/-- What `apm_multi_client_check_sg_state_and_update_send_to_seqncr` decides when it does not
fail. -/
structure SgCheck where
  /-- `*seq_entry_reqd`: the sub-graph goes to the sequencer. -/
  seqEntryReqd : Bool
  /-- The sub-graph with the sender's context brought up to date. -/
  subGraph : SubGraph
  /-- The sender's contexts on the links of the sub-graph are freed. -/
  linksFreed : Bool
  deriving DecidableEq, Repr

/-- The end of the check: a close that is not let through ends the sender's part in the
sub-graph at once. -/
def settleCheck (sim : Bool) (client : Client) (op : GmOpcode) (seq : Bool) (sg : SubGraph) :
    SgCheck :=
  if seq = false ∧ op = .close then
    { seqEntryReqd := false
      subGraph := { sg with clients := sg.clients.freeClientContext sim client }
      linksFreed := true }
  else { seqEntryReqd := seq, subGraph := sg, linksFreed := false }

/-- `apm_multi_client_check_sg_state_and_update_send_to_seqncr`.  An error leaves everything
as it was. -/
def checkSgStateAndUpdateSendToSeqncr (sim : Bool) (client : Client) (op : GmOpcode) :
    Option SubGraph → Except ArResult SgCheck
  | none => .error .efailed
  | some sg =>
    if sg.voiceCall then .ok { seqEntryReqd := true, subGraph := sg, linksFreed := false }
    else if op = .flush then
      .ok { seqEntryReqd := true, subGraph := sg, linksFreed := false }
    else
      let newCmdState := op.translatedSgState
      let updated := { sg with clients := sg.clients.setState sim client newCmdState }
      match sg.clients.getClientNode sim client with
      | none => .error .efailed
      | some node =>
        if sg.state < newCmdState then .ok (settleCheck sim client op true updated)
        else if newCmdState < sg.state then
          -- the states of the other clients decide
          let aggregated := sg.clients.aggregateState node
          .ok (settleCheck sim client op (decide (aggregated ≤ newCmdState)) updated)
        else if node.currState = newCmdState then .error .efailed
        else .ok (settleCheck sim client op false updated)

/-! ## The sub-graph list of a command -/

/-- One id of the sub-graph list.  The second field is the answer to the allocation of a list
node, should one be made for the sub-graph. -/
structure SgEntry where
  subGraphId : ℕ
  /-- A node for `reg_sg_list_ptr` could be allocated. -/
  nodeAllocated : Bool
  deriving DecidableEq, Repr

/-- What `apm_gm_cmd_validate_sg_list` works on. -/
structure GmCmdState where
  info : ApmGraphInfo
  /-- `reg_sg_list_ptr` of the command control, by sub-graph id; `num_reg_sub_graphs` is its
  length. -/
  regSgList : List ℕ
  deriving DecidableEq, Repr

namespace GmCmdState

/-- The writes of the multi-client check. -/
def applyCheck (sim : Bool) (client : Client) (check : SgCheck) (st : GmCmdState) : GmCmdState :=
  let info := st.info.setSubGraphNode check.subGraph
  let id := check.subGraph.subGraphId
  if check.linksFreed then
    { st with
      info := { info with
        conns := freeAllLinkClientContext sim client id info.conns
        ctrlLinks := freeAllLinkClientContext sim client id info.ctrlLinks } }
  else { st with info := info }

/-- `apm_db_search_and_add_node_to_list` on `reg_sg_list_ptr`. -/
def searchAndAddReg (entry : SgEntry) (st : GmCmdState) : Option GmCmdState :=
  if entry.subGraphId ∈ st.regSgList then some st
  else if entry.nodeAllocated then
    some { st with regSgList := st.regSgList ++ [entry.subGraphId] }
  else none

/-- The loop of `apm_gm_cmd_validate_sg_list` over the remaining ids, with the check after
it. -/
def validateSgLoop (sim : Bool) (client : Client) (op : GmOpcode) :
    List SgEntry → Bool → ArResult → GmCmdState → ArResult × GmCmdState
  | [], foundSgNode, result, st =>
    if st.regSgList.length = 0 ∧ op = .close ∧ foundSgNode = false then (.efailed, st)
    else (result, st)
  | entry :: entries, foundSgNode, _, st =>
    let node := st.info.getSubGraphNode entry.subGraphId
    let result := if node = none then ArResult.efailed else .eok
    if result ≠ .eok ∧ op ≠ .close then (result, st)
    else
      match checkSgStateAndUpdateSendToSeqncr sim client op node with
      | .error _ => (.efailed, st)
      | .ok check =>
        let checked := st.applyCheck sim client check
        if node = none then validateSgLoop sim client op entries foundSgNode result checked
        else if check.seqEntryReqd then
          match checked.searchAndAddReg entry with
          | none => (.enomemory, checked)
          | some listed => validateSgLoop sim client op entries foundSgNode .eok listed
        else validateSgLoop sim client op entries true result checked

/-- `apm_gm_cmd_validate_sg_list`; `none` is a null list pointer. -/
def gmCmdValidateSgList (sim : Bool) (client : Client) (op : GmOpcode) (st : GmCmdState) :
    Option (List SgEntry) → ArResult × GmCmdState
  | none => (.efailed, st)
  | some [] => (.efailed, st)
  | some (entry :: entries) => validateSgLoop sim client op (entry :: entries) false .eok st

end GmCmdState

end AudioReach
