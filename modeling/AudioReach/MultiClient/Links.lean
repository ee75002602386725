import AudioReach.MultiClient.Aggregate

/-!
# Links held by several clients

`apm_parse_module_conn_list` and `apm_parse_module_ctrl_link_cfg_list` walk through the links
of a GRAPH_OPEN or GRAPH_CLOSE command.  Before a link is handled, the multi-client extension
looks it up in the list of links between sub-graphs and keeps the references of the clients:
one body for data links and one for control links, which differ in a few places
(`LinkKind`).

What the references are for is stated on its own: `LinkRef`s are taken by opens and given
back by closes.  The lists of the code agree with the references at all times.  The tear-down
does not: a close is always passed on to the containers.
-/

namespace AudioReach

open AudioReach.Library
open List

/-! ## Links of a command -/

/-- Data links and control links. -/
inductive LinkKind
  | data
  | ctrl
  deriving DecidableEq, Repr

/-- `apm_module_conn_cfg_t` and `apm_module_ctrl_link_cfg_t`: the two ends of a link. -/
structure LinkCfg where
  /-- `src_mod_inst_id`, `peer_1_mod_iid`. -/
  srcModInstId : ℕ
  /-- `src_mod_op_port_id`, `peer_1_mod_ctrl_port_id`. -/
  srcPortId : ℕ
  /-- `dst_mod_inst_id`, `peer_2_mod_iid`. -/
  dstModInstId : ℕ
  /-- `dst_mod_ip_port_id`, `peer_2_mod_ctrl_port_id`. -/
  dstPortId : ℕ
  deriving DecidableEq, Repr

/-- An open module, with the sub-graph and the container that host it. -/
structure ApmModule where
  /-- `host_sub_graph_ptr->sub_graph_id`. -/
  hostSubGraphId : ℕ
  /-- `host_cont_ptr->container_id`. -/
  hostContId : ℕ
  deriving DecidableEq, Repr

/-- The answer of the search for a container port handle. -/
inductive PortAnswer
  /-- The handle is on the list for the container. -/
  | cached
  /-- It is not, and the search returns `result`. -/
  | absent (result : ArResult)
  deriving DecidableEq, Repr

/-- A link of a command, with the answers its handling gets from the rest of the APM. -/
structure LinkItem where
  cfg : LinkCfg
  /-- The nodes for the link and the client context can be allocated. -/
  allocated : Bool
  /-- At a close: the sub-graphs and the link can be put on the lists of the command. -/
  listed : Bool
  /-- At a close across two containers: the port handle of the source, of peer 1. -/
  srcHdl : PortAnswer
  /-- At a close across two containers: the port handle of the destination, of peer 2. -/
  dstHdl : PortAnswer
  deriving DecidableEq, Repr

/-- The context of a client on a link: the states are not used there. -/
def linkContext (client : Client) : ClientContext :=
  { clientDomainId := client.srcDomainId
    clientPortId := client.srcPort
    prevState := .invalid
    currState := .invalid }

/-- The node is the one of the link. -/
def LinkNode.isFor (cfg : LinkCfg) (node : LinkNode) : Bool :=
  node.srcModInstId == cfg.srcModInstId && node.srcPortId == cfg.srcPortId &&
    node.dstModInstId == cfg.dstModInstId && node.dstPortId == cfg.dstPortId

/-- The node with other clients. -/
def LinkNode.setClients (clients : ClientList) (node : LinkNode) : LinkNode :=
  { node with clients := clients }

/-- `apm_db_get_mod_connection`, `apm_db_get_mod_ctrl_link`. -/
def getModConnection (cfg : LinkCfg) (conns : List LinkNode) : Option LinkNode :=
  conns.find? (LinkNode.isFor cfg)

/-- What the multi-client extension answers about a link. -/
structure LinkCheck where
  result : ArResult
  conns : List LinkNode
  /-- `*conn_parse_req`: the link is parsed further. -/
  connParseReq : Bool
  deriving DecidableEq, Repr

/-- `apm_multi_client_parse_mod_conn_list` and `apm_multi_client_parse_mod_ctrl_link_cfg`. -/
def multiClientParseLink (sim : Bool) (client : Client) (close : Bool) (item : LinkItem)
    (conns : List LinkNode) : LinkCheck :=
  match getModConnection item.cfg conns with
  | none => { result := .eok, conns := conns, connParseReq := true }
  | some node =>
    let setClients (clients : ClientList) : List LinkNode :=
      updateFirst (LinkNode.isFor item.cfg) (LinkNode.setClients clients) conns
    if close then
      let clients := node.clients.freeClientContext sim client
      { result := .eok
        conns :=
          if clients.numClient = 0 then conns.eraseP (LinkNode.isFor item.cfg)
          else setClients clients
        connParseReq := true }
    else if node.clients.checkDuplicateClient sim client ≠ .eok then
      { result := .eduplicate, conns := conns, connParseReq := true }
    else if item.allocated then
      { result := .eok
        conns := setClients (node.clients.addContext (linkContext client))
        connParseReq := false }
    else { result := .enomemory, conns := conns, connParseReq := true }

/-- `apm_multi_client_cache_connections` and `apm_multi_client_cache_ctrl_links`, with the
flag `*conn_skip_req`.  A data link is kept only when it crosses sub-graphs; one inside a
sub-graph that is open already is skipped. -/
def multiClientCacheLink (kind : LinkKind) (client : Client) (close : Bool) (skipSgIds : List ℕ)
    (modules : Option ApmModule × Option ApmModule) (item : LinkItem) (conns : List LinkNode) :
    ArResult × List LinkNode × Bool :=
  match close, modules with
  | true, _ => (.eok, conns, false)
  | false, (some src, some dst) =>
    if kind = .ctrl ∨ src.hostSubGraphId ≠ dst.hostSubGraphId then
      if item.allocated then
        let node : LinkNode :=
          { srcModInstId := item.cfg.srcModInstId
            srcPortId := item.cfg.srcPortId
            dstModInstId := item.cfg.dstModInstId
            dstPortId := item.cfg.dstPortId
            srcHostSubGraphId := src.hostSubGraphId
            dstHostSubGraphId := dst.hostSubGraphId
            clients := ClientList.addContext (linkContext client) ⟨[], 0⟩ }
        (.eok, conns ++ [node], false)
      else (.enomemory, conns, false)
    else (.eok, conns, decide (src.hostSubGraphId ∈ skipSgIds))
  | false, _ => (.eok, conns, false)

/-- The end of the loop body for a close: the containers whose `link_close_params` get the
link or its port handle. -/
def closeLink (kind : LinkKind) (src dst : ApmModule) (item : LinkItem) : ArResult × List ℕ :=
  if src.hostSubGraphId = dst.hostSubGraphId then (.eok, [])
  else if item.listed = false then (.enomemory, [])
  else if src.hostContId = dst.hostContId then (.eok, [src.hostContId])
  else
    let second (told : List ℕ) : ArResult × List ℕ :=
      match item.dstHdl with
      | .cached => (.eok, told ++ [dst.hostContId])
      | .absent result => (result, told)
    match item.srcHdl with
    | .cached => second [src.hostContId]
    | .absent result =>
      if result ≠ .eok then (result, [])
      else
        match kind with
        | .data => second []
        -- an unknown control port ends the handling of the link
        | .ctrl => (.eok, [])

/-- What the loop body does with a link. -/
structure LinkOutcome where
  result : ArResult
  conns : List LinkNode
  /-- The containers that are told to connect the link. -/
  openParams : List ℕ
  /-- The containers that are told to tear the link down. -/
  closeParams : List ℕ
  deriving DecidableEq, Repr

/-- The loop body of `apm_parse_module_conn_list` and `apm_parse_module_ctrl_link_cfg_list`;
`modules` is the module database. -/
def parseLink (sim : Bool) (modules : ℕ → Option ApmModule) (kind : LinkKind) (client : Client)
    (close : Bool) (skipSgIds : List ℕ) (item : LinkItem) (conns : List LinkNode) :
    LinkOutcome :=
  let src := modules item.cfg.srcModInstId
  let dst := modules item.cfg.dstModInstId
  if src = none ∧ dst = none then
    ⟨match kind with | .data => .efailed | .ctrl => .ebadparam, conns, [], []⟩
  else
    let check := multiClientParseLink sim client close item conns
    if check.result ≠ .eok then ⟨check.result, check.conns, [], []⟩
    else if check.connParseReq = false then ⟨.eok, check.conns, [], []⟩
    else
      let (result, conns, skip) :=
        multiClientCacheLink kind client close skipSgIds (src, dst) item check.conns
      if result ≠ .eok then ⟨result, conns, [], []⟩
      else if skip then ⟨.eok, conns, [], []⟩
      else
        match src, dst with
        | some src, some dst =>
          if close then
            let (result, told) := closeLink kind src dst item
            ⟨result, conns, [], told⟩
          else
            ⟨.eok, conns,
              if src.hostContId = dst.hostContId then [src.hostContId]
              else [src.hostContId, dst.hostContId], []⟩
        | _, _ => ⟨.eok, conns, [], []⟩

/-- The loop over the links of a command. -/
def parseLinkList (sim : Bool) (modules : ℕ → Option ApmModule) (kind : LinkKind)
    (client : Client) (close : Bool) (skipSgIds : List ℕ) :
    List LinkItem → List LinkNode → LinkOutcome
  | [], conns => ⟨.eok, conns, [], []⟩
  | item :: items, conns =>
    let first := parseLink sim modules kind client close skipSgIds item conns
    if first.result ≠ .eok then first
    else
      let rest := parseLinkList sim modules kind client close skipSgIds items first.conns
      { rest with
        openParams := first.openParams ++ rest.openParams
        closeParams := first.closeParams ++ rest.closeParams }

/-! ## References of the clients -/

/-- A client holds a link. -/
structure LinkRef where
  cfg : LinkCfg
  client : Client
  deriving DecidableEq, Repr

/-- A link of a command: who sends it, and whether it is opened or closed. -/
structure LinkCall where
  client : Client
  /-- `APM_CMD_GRAPH_CLOSE` instead of `APM_CMD_GRAPH_OPEN`. -/
  close : Bool
  /-- `skip_sg_id_list_ptr` of the open. -/
  skipSgIds : List ℕ
  item : LinkItem
  deriving DecidableEq, Repr

/-- The link connects open modules of two different sub-graphs. -/
def Boundary (modules : ℕ → Option ApmModule) (cfg : LinkCfg) : Prop :=
  ∃ src ∈ modules cfg.srcModInstId, ∃ dst ∈ modules cfg.dstModInstId,
    src.hostSubGraphId ≠ dst.hostSubGraphId

instance (modules : ℕ → Option ApmModule) (cfg : LinkCfg) : Decidable (Boundary modules cfg) :=
  match hsrc : modules cfg.srcModInstId, hdst : modules cfg.dstModInstId with
  | some src, some dst =>
    decidable_of_iff (src.hostSubGraphId ≠ dst.hostSubGraphId) (by simp [Boundary, hsrc, hdst])
  | none, _ => isFalse (by simp [Boundary, hsrc])
  | some _, none => isFalse (by simp [Boundary, hdst])

/-- The two senders are the same client for the code. -/
def sameClient (sim : Bool) (client other : Client) : Bool :=
  checkClientAndDomain sim client (linkContext other)

/-- The clients that hold the link, in the order in which they opened it. -/
def holdersOf (cfg : LinkCfg) (refs : List LinkRef) : List Client :=
  (refs.filter (·.cfg == cfg)).map LinkRef.client

/-- The references after a call: an open takes one, unless the client has it or memory is
missing, and a close gives it back. -/
def refStep (sim : Bool) (modules : ℕ → Option ApmModule) (refs : List LinkRef)
    (call : LinkCall) : List LinkRef :=
  let mine (ref : LinkRef) : Bool :=
    ref.cfg == call.item.cfg && sameClient sim call.client ref.client
  if ¬ Boundary modules call.item.cfg then refs
  else if call.close then refs.eraseP mine
  else if refs.any mine ∨ call.item.allocated = false then refs
  else refs ++ [⟨call.item.cfg, call.client⟩]

/-- The list of links of the code beside the references. -/
structure SharedLinks where
  /-- `conn_cfg_list_ptr` or `ctrl_link_cfg_list_ptr`. -/
  conns : List LinkNode
  refs : List LinkRef
  deriving DecidableEq, Repr

section

variable (sim : Bool) (modules : ℕ → Option ApmModule) (kind : LinkKind)

/-- The code's handling of a link of a command. -/
def LinkCall.parse (conns : List LinkNode) (call : LinkCall) : LinkOutcome :=
  parseLink sim modules kind call.client call.close call.skipSgIds call.item conns

/-- One link of a command, in the code and for the references. -/
def sharedStep (s : SharedLinks) (call : LinkCall) : SharedLinks where
  conns := (call.parse sim modules kind s.conns).conns
  refs := refStep sim modules s.refs call

/-- Whose context it is. -/
def ClientContext.owner (ctx : ClientContext) : Client :=
  ⟨ctx.clientPortId, ctx.clientDomainId⟩

/-- The node of the link, with the clients that hold the link. -/
def HeldAs : Option LinkNode → List Client → Prop
  | none, holders => holders = []
  | some node, holders =>
    holders ≠ [] ∧ node.clients.numClient = holders.length ∧
      node.clients.contexts.map ClientContext.owner = holders

/-- A link between two sub-graphs has one node while a client holds it and none otherwise,
and the node counts and lists the holders. -/
structure RefsKept (s : SharedLinks) : Prop where
  single : ∀ cfg, AtMostOne (LinkNode.isFor cfg) s.conns
  /-- The node is there exactly while the link is held. -/
  held : ∀ cfg, Boundary modules cfg → HeldAs (getModConnection cfg s.conns) (holdersOf cfg s.refs)

/-- The client is the only one that holds the link. -/
def LastHolder (client : Client) (cfg : LinkCfg) (refs : List LinkRef) : Prop :=
  ∃ holder, holdersOf cfg refs = [holder] ∧ sameClient sim client holder

/-- A close of a link between two sub-graphs is passed on to the containers exactly when the
closing client is the only one that holds the link. -/
def TornByLast (s : SharedLinks) (call : LinkCall) : Prop :=
  call.close → Boundary modules call.item.cfg →
    ((call.parse sim modules kind s.conns).closeParams ≠ [] ↔
      LastHolder sim call.client call.item.cfg s.refs)

/-- A link that is closed can be handed over to the containers: the lists of the command take
it and, across two containers, the port handles are known. -/
def Deliverable (item : LinkItem) : Prop :=
  item.listed = true ∧ ((modules item.cfg.srcModInstId).map ApmModule.hostContId =
        (modules item.cfg.dstModInstId).map ApmModule.hostContId ∨
      item.srcHdl = .cached ∨
      (kind = .data ∧ item.srcHdl = .absent .eok ∧ item.dstHdl = .cached))

/-- A close of a link between two sub-graphs comes from the only client that holds it, if it
can be handed over to the containers, and not from it otherwise. -/
def ClosedByLast (s : SharedLinks) (call : LinkCall) : Prop :=
  call.close → Boundary modules call.item.cfg →
    (Deliverable modules kind call.item ↔ LastHolder sim call.client call.item.cfg s.refs)

end

/-! ## What a close passes on -/

variable {sim : Bool} {modules : ℕ → Option ApmModule} {kind : LinkKind} {client : Client}
variable {close : Bool} {skipSgIds : List ℕ} {item : LinkItem} {conns : List LinkNode}

lemma multiClientParseLink_close (sim : Bool) (client : Client) (item : LinkItem)
    (conns : List LinkNode) :
    (multiClientParseLink sim client true item conns).result = .eok ∧
      (multiClientParseLink sim client true item conns).connParseReq = true := by
  unfold multiClientParseLink
  cases getModConnection item.cfg conns <;> exact ⟨rfl, rfl⟩

variable {src dst : ApmModule} {node : LinkNode}

section

variable (hsrc : modules item.cfg.srcModInstId = some src)
  (hdst : modules item.cfg.dstModInstId = some dst)
include hsrc hdst

lemma parseLink_close : parseLink sim modules kind client true skipSgIds item conns =
      ⟨(closeLink kind src dst item).1, (multiClientParseLink sim client true item conns).conns,
        [], (closeLink kind src dst item).2⟩ := by
  obtain ⟨hresult, hreq⟩ := multiClientParseLink_close sim client item conns
  simp [parseLink, hsrc, hdst, hresult, hreq, multiClientCacheLink]

lemma closeLink_ne_nil_iff (hne : src.hostSubGraphId ≠ dst.hostSubGraphId) :
    (closeLink kind src dst item).2 ≠ [] ↔ Deliverable modules kind item := by
  unfold closeLink Deliverable
  rw [if_neg hne, hsrc, hdst]
  cases hlisted : item.listed with
  | false => simp
  | true =>
    by_cases hcont : src.hostContId = dst.hostContId
    · simp [hcont]
    · cases hsrcHdl : item.srcHdl with
      | cached => cases item.dstHdl <;> simp [hcont]
      | absent result =>
        by_cases hresult : result = .eok
        · cases kind with
          | data => cases item.dstHdl <;> simp [hcont, hresult]
          | ctrl => simp [hcont, hresult]
        · simp [hcont, hresult]

end

/-- **The tear-down.** A close is torn down by the last holder exactly when it meets
`ClosedByLast`. -/
lemma tornByLast_iff (s : SharedLinks) (call : LinkCall) :
    TornByLast sim modules kind s call ↔ ClosedByLast sim modules kind s call := by
  refine imp_congr_right fun hclose => imp_congr_right fun hboundary => ?_
  obtain ⟨src, hsrc, dst, hdst, hne⟩ := hboundary
  rw [LinkCall.parse, hclose, parseLink_close hsrc hdst, closeLink_ne_nil_iff hsrc hdst hne]

/-! ## What happens to the nodes -/

/-- The ways in which a link of a command changes the list of nodes. -/
inductive Rewritten (cfg : LinkCfg) (conns : List LinkNode) : List LinkNode → Prop
  /-- Nothing changes. -/
  | same : Rewritten cfg conns conns
  /-- The node of the link is removed. -/
  | removed : Rewritten cfg conns (conns.eraseP (LinkNode.isFor cfg))
  /-- The clients of the node change. -/
  | updated (clients : ClientList) : Rewritten cfg conns
      (updateFirst (LinkNode.isFor cfg) (LinkNode.setClients clients) conns)
  /-- A node for the link is added. -/
  | added (node : LinkNode) (hnone : getModConnection cfg conns = none)
      (hnode : node.isFor cfg) : Rewritten cfg conns (conns ++ [node])

lemma rewritten_multiClientParseLink :
    Rewritten item.cfg conns (multiClientParseLink sim client close item conns).conns := by
  unfold multiClientParseLink
  cases getModConnection item.cfg conns with
  | none => exact .same
  | some node =>
    dsimp only
    split_ifs
    · exact .removed
    · exact .updated _
    · exact .same
    · exact .updated _
    · exact .same

lemma rewritten_multiClientCacheLink {mods : Option ApmModule × Option ApmModule}
    (hnone : close = false → getModConnection item.cfg conns = none) :
    Rewritten item.cfg conns
      (multiClientCacheLink kind client close skipSgIds mods item conns).2.1 := by
  cases close with
  | true => exact .same
  | false =>
    rcases mods with ⟨_ | src, _ | dst⟩
    · exact .same
    · exact .same
    · exact .same
    · simp only [multiClientCacheLink]
      split_ifs
      · exact .added _ (hnone rfl) (by simp [LinkNode.isFor])
      · exact .same
      · exact .same

/-- The node list after a link of a command: a link with a node, and a close, are settled by
the first part of the extension, a new link by the second. -/
lemma parseLink_conns : (parseLink sim modules kind client close skipSgIds item conns).conns =
      if modules item.cfg.srcModInstId = none ∧ modules item.cfg.dstModInstId = none then conns
      else if close = true ∨ (getModConnection item.cfg conns).isSome then
        (multiClientParseLink sim client close item conns).conns
      else (multiClientCacheLink kind client close skipSgIds
        (modules item.cfg.srcModInstId, modules item.cfg.dstModInstId) item conns).2.1 := by
  unfold parseLink
  dsimp only
  by_cases hmods : modules item.cfg.srcModInstId = none ∧ modules item.cfg.dstModInstId = none
  · rw [if_pos hmods, if_pos hmods]
  rw [if_neg hmods, if_neg hmods]
  cases close with
  | true =>
    obtain ⟨hresult, hreq⟩ := multiClientParseLink_close sim client item conns
    simp only [hresult, hreq, multiClientCacheLink]
    cases modules item.cfg.srcModInstId <;> cases modules item.cfg.dstModInstId <;> simp
  | false =>
    cases hnode : getModConnection item.cfg conns with
    | none =>
      have hcheck : multiClientParseLink sim client false item conns = ⟨.eok, conns, true⟩ := by
        rw [multiClientParseLink, hnode]
      rw [hcheck]
      generalize multiClientCacheLink kind client false skipSgIds
        (modules item.cfg.srcModInstId, modules item.cfg.dstModInstId) item conns = cached
      simp only [ne_eq, not_true_eq_false, if_false, Bool.true_eq_false, Option.isSome_none,
        Bool.false_eq_true, or_false]
      cases modules item.cfg.srcModInstId <;> cases modules item.cfg.dstModInstId <;>
        split_ifs <;> rfl
    | some node =>
      -- the client has the link already, cannot get it, or gets it now
      have hend : (multiClientParseLink sim client false item conns).result ≠ .eok ∨
          (multiClientParseLink sim client false item conns).connParseReq = false := by
        rw [multiClientParseLink, hnode]
        simp only [Bool.false_eq_true, if_false]
        split_ifs <;> simp
      simp only [Option.isSome_some, or_true, if_true]
      by_cases hresult : (multiClientParseLink sim client false item conns).result = .eok
      · rw [if_neg (not_not.mpr hresult), if_pos (hend.resolve_left (not_not.mpr hresult))]
      · rw [if_pos hresult]

lemma rewritten_parseLink : Rewritten item.cfg conns
      (parseLink sim modules kind client close skipSgIds item conns).conns := by
  rw [parseLink_conns]
  split_ifs with hmods hold
  · exact .same
  · exact rewritten_multiClientParseLink
  · refine rewritten_multiClientCacheLink fun _ => ?_
    simpa using (not_or.mp hold).2

lemma LinkNode.isFor_iff {cfg : LinkCfg} : node.isFor cfg = true ↔
      (⟨node.srcModInstId, node.srcPortId, node.dstModInstId, node.dstPortId⟩ : LinkCfg) = cfg := by
  cases cfg
  simp [LinkNode.isFor, and_assoc]

section

variable {cfg cfg' : LinkCfg} {conns' : List LinkNode} (h : Rewritten cfg conns conns')
include h

lemma Rewritten.single (hone : AtMostOne (LinkNode.isFor cfg') conns) :
    AtMostOne (LinkNode.isFor cfg') conns' := by
  cases h with
  | same => exact hone
  | removed => exact hone.eraseP
  | updated clients => exact hone.updateFirst fun _ => rfl
  | added node hnone hnode =>
    refine pairwise_append.mpr ⟨hone, pairwise_singleton _ _, ?_⟩
    rintro old hold new hnew ⟨hfor, hfor'⟩
    obtain rfl := mem_singleton.mp hnew
    rw [LinkNode.isFor_iff] at hnode hfor'
    rw [hnode] at hfor'
    exact find?_eq_none.mp hnone old hold (hfor' ▸ hfor)

lemma Rewritten.getModConnection_of_ne (hne : cfg' ≠ cfg) :
    getModConnection cfg' conns' = getModConnection cfg' conns := by
  have hother : ∀ node : LinkNode, node.isFor cfg → ¬ node.isFor cfg' := by
    intro node hfor hfor'
    exact hne ((LinkNode.isFor_iff.mp hfor').symm.trans (LinkNode.isFor_iff.mp hfor))
  cases h with
  | same => rfl
  | removed =>
    exact find?_eraseP_of_not hother
  | updated clients =>
    exact find?_updateFirst_of_not fun node hfor => ⟨hother node hfor, hother node hfor⟩
  | added node _ hnode =>
    unfold getModConnection
    simp [hother node hnode]

end

/-! ## What happens to the references -/

variable {cfg cfg' : LinkCfg} {refs : List LinkRef}

lemma holdersOf_eraseP (q : Client → Bool) :
    holdersOf cfg (refs.eraseP fun ref => ref.cfg == cfg && q ref.client) =
      (holdersOf cfg refs).eraseP q := by
  unfold holdersOf
  induction refs with
  | nil => rfl
  | cons ref refs ih =>
    by_cases hcfg : ref.cfg = cfg
    · by_cases hq : q ref.client = true
      · simp [hcfg, hq]
      · simp [hcfg, hq, ih]
    · simp [hcfg, ih]

lemma holdersOf_eraseP_of_ne (q : Client → Bool) (hne : cfg' ≠ cfg) :
    holdersOf cfg' (refs.eraseP fun ref => ref.cfg == cfg && q ref.client) =
      holdersOf cfg' refs := by
  unfold holdersOf
  induction refs with
  | nil => rfl
  | cons ref refs ih =>
    by_cases hcfg : ref.cfg = cfg
    · by_cases hq : q ref.client = true
      · simp [hcfg, hq, hne.symm]
      · simp [hcfg, hq, hne.symm, ih]
    · by_cases hcfg' : ref.cfg = cfg'
      · simp [hcfg', hne, ih]
      · simp [hcfg, hcfg', ih]

lemma any_holdersOf (q : Client → Bool) :
    (refs.any fun ref => ref.cfg == cfg && q ref.client) = (holdersOf cfg refs).any q := by
  unfold holdersOf
  rw [any_map, any_filter]
  rfl

lemma holdersOf_refStep {call : LinkCall} (hboundary : Boundary modules call.item.cfg) :
    holdersOf call.item.cfg (refStep sim modules refs call) =
      if call.close then (holdersOf call.item.cfg refs).eraseP (sameClient sim call.client)
      else if (holdersOf call.item.cfg refs).any (sameClient sim call.client) ∨
          call.item.allocated = false then holdersOf call.item.cfg refs
      else holdersOf call.item.cfg refs ++ [call.client] := by
  simp only [refStep, if_neg (not_not.mpr hboundary), any_holdersOf]
  split_ifs with hclose hkeep
  · exact holdersOf_eraseP _
  · rfl
  · simp [holdersOf]

lemma holdersOf_refStep_of_ne {call : LinkCall} (hne : cfg ≠ call.item.cfg) :
    holdersOf cfg (refStep sim modules refs call) = holdersOf cfg refs := by
  unfold refStep
  dsimp only
  split_ifs
  · exact holdersOf_eraseP_of_ne _ hne
  · rfl
  · simp [holdersOf, hne.symm]
  · rfl

/-! ## The nodes and the references agree -/

lemma any_contexts (contexts : List ClientContext) :
    contexts.any (checkClientAndDomain sim client) =
      (contexts.map ClientContext.owner).any (sameClient sim client) := by
  rw [any_map]
  rfl

/-- Giving a reference back, in the node and in the list of holders. -/
lemma HeldAs.freeClientContext {holders : List Client}
    (h : HeldAs (some node) holders) (sim : Bool) (client : Client) :
    (node.clients.freeClientContext sim client).numClient =
        (holders.eraseP (sameClient sim client)).length ∧
      (node.clients.freeClientContext sim client).contexts.map ClientContext.owner =
        holders.eraseP (sameClient sim client) := by
  obtain ⟨_, hnum, hmap⟩ := h
  unfold ClientList.freeClientContext
  rw [any_contexts, hmap]
  by_cases hany : holders.any (sameClient sim client) = true
  · rw [if_pos hany]
    obtain ⟨holder, hmem, hsame⟩ := any_eq_true.mp hany
    refine ⟨?_, ?_⟩
    · rw [length_eraseP_of_mem hmem hsame, hnum]
    · rw [← hmap, eraseP_map]
      rfl
  · rw [if_neg hany]
    have hnone : holders.eraseP (sameClient sim client) = holders := by
      refine eraseP_of_forall_not fun holder hmem hsame => hany ?_
      exact any_eq_true.mpr ⟨holder, hmem, hsame⟩
    rw [hnone]
    exact ⟨hnum, hmap⟩

lemma getModConnection_setClients (clients : ClientList) :
    getModConnection cfg (updateFirst (LinkNode.isFor cfg) (LinkNode.setClients clients) conns) =
      (getModConnection cfg conns).map (LinkNode.setClients clients) :=
  find?_updateFirst fun _ h => h

lemma getModConnection_close (hone : AtMostOne (LinkNode.isFor item.cfg) conns)
    (hnode : getModConnection item.cfg conns = some node) :
    getModConnection item.cfg (multiClientParseLink sim client true item conns).conns =
      if (node.clients.freeClientContext sim client).numClient = 0 then none
      else some (node.setClients (node.clients.freeClientContext sim client)) := by
  rw [multiClientParseLink, hnode]
  simp only [if_true]
  split_ifs
  · exact hone.find?_eraseP
  · rw [getModConnection_setClients, hnode, Option.map_some]

lemma getModConnection_open (hnode : getModConnection item.cfg conns = some node) :
    getModConnection item.cfg (multiClientParseLink sim client false item conns).conns =
      if node.clients.contexts.any (checkClientAndDomain sim client) ∨ item.allocated = false then
        some node
      else some (node.setClients (node.clients.addContext (linkContext client))) := by
  rw [multiClientParseLink, hnode]
  simp only [Bool.false_eq_true, if_false, ClientList.checkDuplicateClient]
  cases node.clients.contexts.any (checkClientAndDomain sim client) with
  | true => simp [hnode]
  | false =>
    cases item.allocated with
    | true => simp [getModConnection_setClients, hnode]
    | false => simp [hnode]

lemma getModConnection_cacheLink (hdiff : src.hostSubGraphId ≠ dst.hostSubGraphId)
    (hnone : getModConnection item.cfg conns = none) :
    HeldAs (getModConnection item.cfg
      (multiClientCacheLink kind client false skipSgIds (some src, some dst) item conns).2.1)
      (if item.allocated = false then [] else [client]) := by
  unfold getModConnection at hnone
  simp only [multiClientCacheLink, hdiff, ne_eq, not_false_eq_true, or_true, if_true]
  unfold getModConnection
  cases item.allocated with
  | false =>
    rw [if_neg (by simp), hnone]
    rfl
  | true =>
    rw [if_pos rfl, find?_append, hnone, Option.none_or, find?_singleton]
    simp [LinkNode.isFor, HeldAs, ClientList.addContext, linkContext, ClientContext.owner]

/-- **One link of a command.** The nodes and the references agree afterwards. -/
lemma refsKept_sharedStep (s : SharedLinks) (call : LinkCall) (h : RefsKept modules s) :
    RefsKept modules (sharedStep sim modules kind s call) := by
  refine ⟨fun cfg => rewritten_parseLink.single (h.single cfg), ?_⟩
  intro cfg hcfg
  by_cases hne : cfg = call.item.cfg
  swap
  · rw [sharedStep, LinkCall.parse]
    rw [rewritten_parseLink.getModConnection_of_ne hne, holdersOf_refStep_of_ne hne]
    exact h.held cfg hcfg
  subst hne
  have hheld := h.held _ hcfg
  obtain ⟨src, hsrc, dst, hdst, hdiff⟩ := id hcfg
  rw [Option.mem_def] at hsrc hdst
  simp only [sharedStep, LinkCall.parse]
  rw [holdersOf_refStep hcfg, parseLink_conns, if_neg (by simp [hsrc])]
  cases hclose : call.close with
  | true =>
    simp only [true_or, if_true]
    cases hnode : getModConnection call.item.cfg s.conns with
    | none =>
      rw [hnode] at hheld
      have hholders : holdersOf call.item.cfg s.refs = [] := hheld
      have hconns : (multiClientParseLink sim call.client true call.item s.conns).conns =
          s.conns := by
        rw [multiClientParseLink, hnode]
      rw [hconns, hnode, hholders]
      rfl
    | some node =>
      rw [hnode] at hheld
      obtain ⟨hnum, hcontexts⟩ := hheld.freeClientContext sim call.client
      rw [getModConnection_close (h.single _) hnode]
      split_ifs with hzero
      · rw [hnum] at hzero
        exact length_eq_zero_iff.mp hzero
      · refine ⟨?_, hnum, hcontexts⟩
        intro hnil
        rw [hnum, hnil] at hzero
        exact hzero rfl
  | false =>
    simp only [Bool.false_eq_true, false_or, if_false]
    cases hnode : getModConnection call.item.cfg s.conns with
    | none =>
      rw [hnode] at hheld
      have hholders : holdersOf call.item.cfg s.refs = [] := hheld
      rw [hholders, if_neg (by simp), hsrc, hdst]
      simpa using getModConnection_cacheLink hdiff hnode
    | some node =>
      rw [hnode] at hheld
      obtain ⟨hsome, hnum, hmap⟩ := id hheld
      rw [if_pos (by simp), getModConnection_open hnode, any_contexts, hmap]
      split_ifs with hkeep
      · exact hheld
      · refine ⟨by simp, ?_, ?_⟩
        · simp [LinkNode.setClients, ClientList.addContext, hnum]
        · simp only [LinkNode.setClients, ClientList.addContext, map_append, hmap]
          rfl

/-! ## Whole runs -/

/-- **Shared links over any number of commands.** For every sequence of opens and closes of
links by any number of clients, the node of a link between two sub-graphs exists exactly
while a client holds it and counts the holders, and each close is torn down exactly when it
comes from the last holder, if and only if every close meets `ClosedByLast`. -/
theorem sharedLinks_along_iff (sim : Bool) (modules : ℕ → Option ApmModule) (kind : LinkKind)
    (calls : List LinkCall) :
    Along (sharedStep sim modules kind) (RefsKept modules) ⟨[], []⟩ calls ∧
      Meets (sharedStep sim modules kind) (TornByLast sim modules kind) ⟨[], []⟩ calls ↔
    Meets (sharedStep sim modules kind) (ClosedByLast sim modules kind) ⟨[], []⟩ calls := by
  symm
  refine meets_iff_along (J := RefsKept modules) refsKept_sharedStep ?_ ?_ ?_ calls
  · intro s call hkept _
    rw [tornByLast_iff]
    exact (and_iff_right (refsKept_sharedStep s call hkept)).symm
  · exact ⟨fun cfg => List.Pairwise.nil, fun cfg _ => rfl⟩
  · exact ⟨fun cfg => List.Pairwise.nil, fun cfg _ => rfl⟩

/-- The loop over the links of a command handles them one after the other, up to the first
error. -/
theorem parseLinkList_eq_run (items : List LinkItem) (refs : List LinkRef) :
    ∃ n, (parseLinkList sim modules kind client close skipSgIds items conns).conns =
      (run (sharedStep sim modules kind) ⟨conns, refs⟩
        ((items.take n).map fun item => ⟨client, close, skipSgIds, item⟩)).conns := by
  induction items generalizing conns refs with
  | nil => exact ⟨0, rfl⟩
  | cons item items ih =>
    by_cases hresult : (parseLink sim modules kind client close skipSgIds item conns).result = .eok
    · obtain ⟨n, hn⟩ := @ih (parseLink sim modules kind client close skipSgIds item conns).conns
        (refStep sim modules refs ⟨client, close, skipSgIds, item⟩)
      refine ⟨n + 1, ?_⟩
      rw [parseLinkList, if_neg (not_not.mpr hresult)]
      exact hn
    · refine ⟨1, ?_⟩
      rw [parseLinkList, if_pos hresult]
      rfl

/-- Two clients open the link from module 0x4001 to module 0x4002, which sit in two
sub-graphs of one container.  When the first one closes it, the container is told to tear it
down although the second one still holds it. -/
theorem not_sharedLinks_along :
    ¬ ∀ (sim : Bool) (modules : ℕ → Option ApmModule) (kind : LinkKind) (calls : List LinkCall),
      Along (sharedStep sim modules kind) (RefsKept modules) ⟨[], []⟩ calls ∧
        Meets (sharedStep sim modules kind) (TornByLast sim modules kind) ⟨[], []⟩ calls := by
  intro h
  let modules : ℕ → Option ApmModule := fun iid =>
    if iid = 0x4001 then some ⟨0xA1, 0xC1⟩ else if iid = 0x4002 then some ⟨0xA2, 0xC1⟩ else none
  let item : LinkItem := ⟨⟨0x4001, 1, 0x4002, 2⟩, true, true, .cached, .cached⟩
  obtain ⟨-, -, -, htorn, -⟩ := h false modules .data
    [⟨⟨1, 1⟩, false, [], item⟩, ⟨⟨2, 2⟩, false, [], item⟩, ⟨⟨1, 1⟩, true, [], item⟩]
  obtain ⟨holder, hlast, -⟩ := (htorn rfl (by decide)).mp (by decide)
  have htwo := congrArg List.length hlast
  rw [length_singleton] at htwo
  revert htwo
  decide

end AudioReach
