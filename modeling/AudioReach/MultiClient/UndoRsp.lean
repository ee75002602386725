import AudioReach.MultiClient.Validate
import Mathlib.Data.List.Nodup

/-!
# Undoing a failed command

When a container answers a graph command with a failure,
`apm_multi_client_graph_cmd_rsp_hdlr` takes back what the command changed in the client
contexts of the container's sub-graphs: it looks for each sub-graph of the container in the list
of the command.

The cursor into the list of the command is set once, before both loops, so after the first
sub-graph of the container it is at the end and stays there; and a voice-call sub-graph is
passed over without moving it, so the search never ends.  The handler does what it is for
exactly when the first sub-graph of the container is the only one with something to undo
(`OnlyFirst`).
-/

namespace AudioReach

open AudioReach.Library
open List Option

/-! ## The handler -/

/-- The commands that containers answer: GRAPH_OPEN and the graph-management commands. -/
inductive GraphCmd
  | graphOpen
  | gm (op : GmOpcode)
  deriving DecidableEq, Repr

/-- The opcodes for which the handler puts the state of the client back. -/
def GmOpcode.reverts : GmOpcode → Bool
  | .prepare | .start | .stop | .close | .closeAll => true
  | .suspend | .flush => false

/-- `rsp_result` of a container, as far as the handler tells codes apart. -/
inductive ContRsp
  | eok
  | eterminated
  | failed
  deriving DecidableEq, Repr

/-- The client takes back what it asked for. -/
def ClientContext.revert (ctx : ClientContext) : ClientContext :=
  { ctx with currState := ctx.prevState }

/-- The context of the sender goes back to its previous state. -/
def ClientList.revertState (sim : Bool) (client : Client) (l : ClientList) : ClientList :=
  { l with
    contexts := updateFirst (checkClientAndDomain sim client) ClientContext.revert l.contexts }

/-- The variables of the handler. -/
structure RspState where
  info : ApmGraphInfo
  /-- `client_node_ptr`: the sub-graph of the context it points to. -/
  clientNode : Option ℕ
  result : ArResult

section

variable (sim : Bool) (client : Client) (cmd : GraphCmd)

/-- The client leaves the sub-graph, its data links and its control links. -/
def ApmGraphInfo.freeContexts (sg : SubGraph) (info : ApmGraphInfo) : ApmGraphInfo :=
  let info := info.setSubGraphNode { sg with clients := sg.clients.freeClientContext sim client }
  { info with
    conns := freeAllLinkClientContext sim client sg.subGraphId info.conns
    ctrlLinks := freeAllLinkClientContext sim client sg.subGraphId info.ctrlLinks }

/-- `client_node_ptr->curr_state = client_node_ptr->prev_state`, for the context in the
sub-graph `owner`. -/
def ApmGraphInfo.revertContext (owner : ℕ) (info : ApmGraphInfo) : ApmGraphInfo :=
  match info.getSubGraphNode owner with
  | none => info
  | some sg => info.setSubGraphNode { sg with clients := sg.clients.revertState sim client }

/-- The body of the inner loop for a sub-graph that is in both lists: whether the cursor is
advanced, and the variables.  `none` is an access through a null pointer. -/
def undoSubGraph (id : ℕ) (s : RspState) : Option (Bool × RspState) :=
  match s.info.getSubGraphNode id, cmd with
  | none, .graphOpen => none
  | none, .gm op => if op.reverts then none else some (true, { s with result := .efailed })
  | some sg, .graphOpen =>
    some (true, { s with info := s.info.freeContexts sim client sg, result := .eok })
  | some sg, .gm op =>
    if op.reverts then
      -- `continue` without LIST_ADVANCE
      if sg.voiceCall then some (false, { s with result := .eok })
      else
        let node := if (sg.clients.getClientNode sim client).isSome then some id else s.clientNode
        node.map fun owner =>
          (true, ⟨s.info.revertContext sim client owner, node, .eok⟩)
    else some (true, { s with result := .eok })

/-- The inner loop: the rest of the list of the command is the cursor. -/
def cmdListLoop (rspId : ℕ) : ℕ → List ℕ → RspState → Option (List ℕ × RspState)
  | 0, _, _ => none
  | _ + 1, [], s => some ([], s)
  | rounds + 1, cmdId :: cmdIds, s =>
    if rspId = cmdId then
      match undoSubGraph sim client cmd rspId s with
      | none => none
      | some (advance, s) => cmdListLoop rspId rounds (if advance then cmdIds else cmdId :: cmdIds) s
    else cmdListLoop rspId rounds cmdIds s

/-- The outer loop over the sub-graphs of the container. -/
def rspListLoop (rounds : ℕ) : List ℕ → List ℕ → RspState → Option RspState
  | [], _, s => some s
  | rspId :: rspIds, cursor, s =>
    (cmdListLoop sim client cmd rspId rounds cursor s).bind fun (cursor, s) =>
      rspListLoop rounds rspIds cursor s

/-- `apm_multi_client_graph_cmd_rsp_hdlr`, for the sub-graphs of the container and those of the
command. -/
def graphCmdRspHdlr (rounds : ℕ) (rsp : ContRsp) (contIds cmdIds : List ℕ) (info : ApmGraphInfo) :
    Option (ArResult × ApmGraphInfo) :=
  if rsp = .failed then
    (rspListLoop sim client cmd rounds contIds cmdIds ⟨info, none, .eok⟩).map fun s =>
      (s.result, s.info)
  else some (.eok, info)

end

/-! ## What the handler is for -/

section

variable (sim : Bool) (client : Client) (cmd : GraphCmd) (ids : List ℕ)

/-- The sub-graph when the command is undone for the sub-graphs `ids`. -/
def undoneSubGraph (sg : SubGraph) : SubGraph :=
  if sg.subGraphId ∈ ids then
    match cmd with
    | .graphOpen => { sg with clients := sg.clients.freeClientContext sim client }
    | .gm op =>
      if op.reverts ∧ sg.voiceCall = false then
        { sg with clients := sg.clients.revertState sim client }
      else sg
  else sg

/-- The link when the command is undone for the sub-graphs `ids`. -/
def undoneLink (link : LinkNode) : LinkNode :=
  if cmd = .graphOpen ∧ ∃ id ∈ ids, link.touches id then
    { link with clients := link.clients.freeClientContext sim client }
  else link

/-- The command is undone for the sub-graphs `ids`, and nothing else changes. -/
def undone (info : ApmGraphInfo) : ApmGraphInfo where
  subGraphs := info.subGraphs.map (undoneSubGraph sim client cmd ids)
  conns := info.conns.map (undoneLink sim client cmd ids)
  ctrlLinks := info.ctrlLinks.map (undoneLink sim client cmd ids)

end

/-- The sub-graphs of the command in the container. -/
def inBoth (contIds cmdIds : List ℕ) : List ℕ := contIds.filter (· ∈ cmdIds)

/-- The handler ends and has undone the command for the sub-graphs in both lists. -/
def UndoesRight (sim : Bool) (client : Client) (cmd : GraphCmd) (contIds cmdIds : List ℕ)
    (info : ApmGraphInfo) : Prop :=
  ∃ n result, ∀ rounds ≥ n, graphCmdRspHdlr sim client cmd rounds .failed contIds cmdIds info =
    some (result, undone sim client cmd (inBoth contIds cmdIds) info)

/-- The handler can undo the command for the sub-graph: it is no voice call, and the client has
a context in it. -/
def Revertible (sim : Bool) (client : Client) (cmd : GraphCmd) (info : ApmGraphInfo) (id : ℕ) :
    Prop :=
  ∀ op, cmd = .gm op → op.reverts = true → ∀ sg ∈ info.getSubGraphNode id,
    sg.voiceCall = false ∧ (sg.clients.getClientNode sim client).isSome = true

/-- There is nothing to undo for the sub-graph `id` after the sub-graphs `ids`. -/
def NothingToUndo (sim : Bool) (client : Client) (info : ApmGraphInfo) (ids : List ℕ) (id : ℕ) :
    GraphCmd → Prop
  | .graphOpen =>
    (∀ sg ∈ info.getSubGraphNode id, sg.clients.getClientNode sim client = none) ∧
    ∀ link ∈ info.conns ++ info.ctrlLinks, link.touches id → (∀ id' ∈ ids, ¬ link.touches id') →
      link.clients.getClientNode sim client = none
  | .gm op => op.reverts = true → ∀ sg ∈ info.getSubGraphNode id, sg.voiceCall = true ∨
    ∀ ctx ∈ sg.clients.getClientNode sim client, ctx.prevState = ctx.currState

/-- Of the sub-graphs in both lists, only the first one of the container has something to undo,
and it can be undone. -/
def OnlyFirst (sim : Bool) (client : Client) (cmd : GraphCmd) (contIds cmdIds : List ℕ)
    (info : ApmGraphInfo) : Prop :=
  (∀ id ∈ inBoth (contIds.take 1) cmdIds, Revertible sim client cmd info id) ∧
  ∀ id ∈ inBoth contIds cmdIds, id ∉ inBoth (contIds.take 1) cmdIds →
    NothingToUndo sim client info (inBoth (contIds.take 1) cmdIds) id cmd

/-! ## Undoing one sub-graph -/

section

variable {sim : Bool} {client : Client} {cmd : GraphCmd} {info : ApmGraphInfo} {sg : SubGraph}
  {ids : List ℕ} {l : ClientList}

lemma ClientList.freeClientContext_eq_self_iff :
    l.freeClientContext sim client = l ↔ l.getClientNode sim client = none := by
  have hany : l.contexts.any (checkClientAndDomain sim client) = true ↔
      l.getClientNode sim client ≠ none := by
    rw [getClientNode, ne_eq, find?_eq_none, List.any_eq_true]
    push Not
    rfl
  unfold freeClientContext
  split_ifs with h
  · refine iff_of_false (fun heq => ?_) (hany.mp h)
    obtain ⟨ctx, hmem, hmatch⟩ := List.any_eq_true.mp h
    have hlength := congrArg (fun l => l.contexts.length) heq
    simp only [length_eraseP_of_mem hmem hmatch] at hlength
    have hpos := length_pos_of_mem hmem
    omega
  · exact iff_of_true rfl (not_not.mp fun hne => h (hany.mpr hne))

lemma ClientList.freeClientContext_twice
    (h : AtMostOne (checkClientAndDomain sim client) l.contexts) :
    (l.freeClientContext sim client).freeClientContext sim client =
      l.freeClientContext sim client := by
  rw [freeClientContext_eq_self_iff]
  unfold freeClientContext
  split_ifs with hany
  · exact h.find?_eraseP
  · refine find?_eq_none.mpr fun ctx hctx hmatch => hany ?_
    exact List.any_eq_true.mpr ⟨ctx, hctx, hmatch⟩

lemma ClientList.revertState_eq_self_iff : l.revertState sim client = l ↔
      ∀ ctx ∈ l.getClientNode sim client, ctx.prevState = ctx.currState := by
  have hself : ∀ ctx : ClientContext, ctx.revert = ctx ↔ ctx.prevState = ctx.currState := by
    intro ctx
    cases ctx
    simp [ClientContext.revert]
  have hlist : l.revertState sim client = l ↔
      updateFirst (checkClientAndDomain sim client) ClientContext.revert l.contexts =
        l.contexts := by
    cases l
    simp [revertState]
  rw [hlist]
  cases hnode : l.getClientNode sim client with
  | none =>
    rw [updateFirst_of_find?_eq_none hnode]
    simp
  | some ctx =>
    rw [updateFirst_eq_self_iff hnode, hself]
    simp

lemma ClientList.revertState_twice :
    (l.revertState sim client).revertState sim client = l.revertState sim client := by
  unfold revertState
  rw [updateFirst_updateFirst (f := ClientContext.revert) fun _ => rfl]
  rfl

lemma ClientList.isSome_getClientNode_revertState :
    ((l.revertState sim client).getClientNode sim client).isSome =
      (l.getClientNode sim client).isSome := by
  have hfind : (l.revertState sim client).getClientNode sim client =
      (l.getClientNode sim client).map ClientContext.revert := find?_updateFirst fun _ h => h
  rw [hfind, isSome_map]

end

/-! ## The graph with its contexts -/

/-- What opening keeps: a sub-graph is there once, and a client has one context at most in a
sub-graph or on a link. -/
structure ContextsSound (sim : Bool) (client : Client) (info : ApmGraphInfo) : Prop where
  ids : (info.subGraphs.map SubGraph.subGraphId).Nodup
  subGraphs : ∀ sg ∈ info.subGraphs, AtMostOne (checkClientAndDomain sim client) sg.clients.contexts
  links : ∀ link ∈ info.conns ++ info.ctrlLinks,
    AtMostOne (checkClientAndDomain sim client) link.clients.contexts

section

variable {sim : Bool} {client : Client} {cmd : GraphCmd} {info : ApmGraphInfo} {sg : SubGraph}
  {ids : List ℕ} {id : ℕ}

lemma subGraphId_of_getSubGraphNode (h : info.getSubGraphNode id = some sg) :
    sg.subGraphId = id := by
  simpa using find?_some h

lemma undoneSubGraph_subGraphId :
    (undoneSubGraph sim client cmd ids sg).subGraphId = sg.subGraphId := by
  unfold undoneSubGraph
  split_ifs
  · cases cmd <;> dsimp only
    split_ifs <;> rfl
  · rfl

section

variable (h : ContextsSound sim client info) (hsg : sg ∈ info.subGraphs)
include h hsg

lemma ContextsSound.getSubGraphNode_eq : info.getSubGraphNode sg.subGraphId = some sg := by
  cases hget : info.getSubGraphNode sg.subGraphId with
  | none => exact absurd (by simp) (find?_eq_none.mp hget sg hsg)
  | some sg' =>
    have hmem := mem_of_find?_eq_some hget
    have hid := subGraphId_of_getSubGraphNode hget
    rw [inj_on_of_nodup_map h.ids hmem hsg hid]

lemma ContextsSound.setSubGraphNode_eq {f : SubGraph → SubGraph}
    (hid : ∀ x, (f x).subGraphId = x.subGraphId) :
    (info.setSubGraphNode (f sg)).subGraphs =
      info.subGraphs.map fun x => if x.subGraphId = sg.subGraphId then f x else x := by
  have hone : AtMostOne (fun x : SubGraph => x.subGraphId == sg.subGraphId) info.subGraphs := by
    refine (pairwise_map.mp h.ids).imp ?_
    rintro a b hne ⟨ha, hb⟩
    exact hne ((beq_iff_eq.mp ha).trans (beq_iff_eq.mp hb).symm)
  rw [ApmGraphInfo.setSubGraphNode, hid]
  rw [hone.updateFirst_eq_map]
  refine map_congr_left fun x hx => ?_
  by_cases hx' : x.subGraphId = sg.subGraphId
  · rw [if_pos hx', if_pos (beq_iff_eq.mpr hx'), inj_on_of_nodup_map h.ids hx hsg hx']
  · rw [if_neg hx', if_neg fun hb => hx' (beq_iff_eq.mp hb)]

lemma ContextsSound.freeContexts_eq :
    info.freeContexts sim client sg = undone sim client .graphOpen [sg.subGraphId] info := by
  have hnode := h.setSubGraphNode_eq hsg
    (f := fun x => { x with clients := x.clients.freeClientContext sim client }) fun _ => rfl
  have hlinks : ∀ links, freeAllLinkClientContext sim client sg.subGraphId links =
      links.map (undoneLink sim client .graphOpen [sg.subGraphId]) := by
    intro links
    refine map_congr_left fun link _ => ?_
    simp [undoneLink]
  rw [ApmGraphInfo.mk.injEq]
  refine ⟨hnode.trans (map_congr_left fun x _ => ?_), hlinks _, hlinks _⟩
  simp [undoneSubGraph]

/-- A graph-management command is undone for one sub-graph. -/
lemma ContextsSound.revertContext_eq (hvoice : sg.voiceCall = false) {op : GmOpcode}
    (hop : op.reverts = true) :
    info.revertContext sim client sg.subGraphId =
      undone sim client (.gm op) [sg.subGraphId] info := by
  have hnode := h.setSubGraphNode_eq hsg
    (f := fun x => { x with clients := x.clients.revertState sim client }) fun _ => rfl
  have hlinks : ∀ links : List LinkNode,
      links.map (undoneLink sim client (.gm op) [sg.subGraphId]) = links := by
    intro links
    refine (map_congr_left fun link _ => ?_).trans (List.map_id' links)
    simp [undoneLink]
  unfold ApmGraphInfo.revertContext undone
  rw [h.getSubGraphNode_eq hsg]
  rw [hlinks, hlinks, ← hnode.trans (map_congr_left fun x hx => ?_)]
  · rfl
  · by_cases hx' : x.subGraphId = sg.subGraphId
    · rw [inj_on_of_nodup_map h.ids hx hsg hx']
      simp [undoneSubGraph, hop, hvoice]
    · simp [undoneSubGraph, hx']

lemma ContextsSound.undoneSubGraph_twice :
    undoneSubGraph sim client cmd ids (undoneSubGraph sim client cmd ids sg) =
      undoneSubGraph sim client cmd ids sg := by
  by_cases hid : sg.subGraphId ∈ ids
  · cases cmd with
    | graphOpen =>
      simp only [undoneSubGraph, if_pos hid]
      rw [ClientList.freeClientContext_twice (h.subGraphs sg hsg)]
    | gm op =>
      by_cases hop : op.reverts = true ∧ sg.voiceCall = false
      · simp only [undoneSubGraph, if_pos hid, if_pos hop, ClientList.revertState_twice]
      · simp only [undoneSubGraph, if_pos hid, if_neg hop]
  · simp only [undoneSubGraph, if_neg hid]

end

lemma ContextsSound.undoneLink_twice (h : ContextsSound sim client info) {link : LinkNode}
    (hlink : link ∈ info.conns ++ info.ctrlLinks) :
    undoneLink sim client cmd ids (undoneLink sim client cmd ids link) =
      undoneLink sim client cmd ids link := by
  by_cases hcmd : cmd = .graphOpen ∧ ∃ id ∈ ids, link.touches id = true
  · have htwice : undoneLink sim client cmd ids (undoneLink sim client cmd ids link) =
        { link with clients :=
          (link.clients.freeClientContext sim client).freeClientContext sim client } := by
      rw [undoneLink, undoneLink, if_pos hcmd]
      exact if_pos hcmd
    rw [htwice, ClientList.freeClientContext_twice (h.links link hlink), undoneLink, if_pos hcmd]
  · have honce : undoneLink sim client cmd ids link = link := if_neg hcmd
    rw [honce, honce]

/-- **Undoing twice.** -/
lemma ContextsSound.undone_twice (h : ContextsSound sim client info) :
    undone sim client cmd ids (undone sim client cmd ids info) =
      undone sim client cmd ids info := by
  simp only [undone, List.map_map, ApmGraphInfo.mk.injEq]
  refine ⟨map_congr_left fun sg hsg => h.undoneSubGraph_twice hsg,
    map_congr_left fun link hlink => ?_, map_congr_left fun link hlink => ?_⟩
  · exact h.undoneLink_twice (mem_append_left _ hlink)
  · exact h.undoneLink_twice (mem_append_right _ hlink)

lemma getSubGraphNode_undone (h : info.getSubGraphNode id = some sg) :
    (undone sim client cmd ids info).getSubGraphNode id =
      some (undoneSubGraph sim client cmd ids sg) := by
  unfold ApmGraphInfo.getSubGraphNode undone at *
  rw [find?_map]
  have hpred : (fun x : SubGraph => x.subGraphId == id) ∘ undoneSubGraph sim client cmd ids =
      fun x => x.subGraphId == id := by
    funext x
    exact congrArg (· == id) undoneSubGraph_subGraphId
  rw [hpred, h, map_some]

lemma ClientList.atMostOne_freeClientContext {l : ClientList}
    (h : AtMostOne (checkClientAndDomain sim client) l.contexts) :
    AtMostOne (checkClientAndDomain sim client) (l.freeClientContext sim client).contexts := by
  unfold freeClientContext
  split_ifs
  · exact h.eraseP
  · exact h

/-- Undoing keeps the graph sound. -/
lemma ContextsSound.afterUndo (h : ContextsSound sim client info) :
    ContextsSound sim client (undone sim client cmd ids info) := by
  have hlinks : ∀ link, AtMostOne (checkClientAndDomain sim client) link.clients.contexts →
      AtMostOne (checkClientAndDomain sim client)
        (undoneLink sim client cmd ids link).clients.contexts := by
    intro link hone
    unfold undoneLink
    split_ifs
    · exact ClientList.atMostOne_freeClientContext hone
    · exact hone
  refine ⟨?_, ?_, ?_⟩
  · have hids : ((undone sim client cmd ids info).subGraphs.map SubGraph.subGraphId) =
        info.subGraphs.map SubGraph.subGraphId := by
      simp only [undone, List.map_map]
      exact map_congr_left fun sg _ => undoneSubGraph_subGraphId
    rw [hids]
    exact h.ids
  · intro sg' hsg'
    obtain ⟨sg, hsg, rfl⟩ := List.mem_map.mp hsg'
    have hone := h.subGraphs sg hsg
    unfold undoneSubGraph
    split_ifs
    · cases cmd with
      | graphOpen => exact ClientList.atMostOne_freeClientContext hone
      | gm op =>
        dsimp only
        split_ifs
        · exact hone.updateFirst fun _ => rfl
        · exact hone
    · exact hone
  · intro link' hlink'
    simp only [undone, ← map_append] at hlink'
    obtain ⟨link, hlink, rfl⟩ := List.mem_map.mp hlink'
    exact hlinks link (h.links link hlink)

end

/-! ## The loops -/

section

variable {sim : Bool} {client : Client} {cmd : GraphCmd} {info : ApmGraphInfo} {sg : SubGraph}
  {id : ℕ} {s s' : RspState}

/-- `client_node_ptr` after a sub-graph is undone. -/
def nodeAfter (cmd : GraphCmd) (id : ℕ) (node : Option ℕ) : Option ℕ :=
  match cmd with
  | .graphOpen => node
  | .gm op => if op.reverts then some id else node

/-- **A sub-graph that can be undone.** -/
lemma undoSubGraph_of_revertible (h : ContextsSound sim client s.info)
    (hget : s.info.getSubGraphNode id = some sg)
    (hrev : Revertible sim client cmd s.info id) :
    undoSubGraph sim client cmd id s =
      some (true, ⟨undone sim client cmd [id] s.info, nodeAfter cmd id s.clientNode, .eok⟩) := by
  have hsg := mem_of_find?_eq_some hget
  obtain rfl := subGraphId_of_getSubGraphNode hget
  cases cmd with
  | graphOpen =>
    simp only [undoSubGraph, hget]
    rw [h.freeContexts_eq hsg]
    rfl
  | gm op =>
    simp only [undoSubGraph, hget]
    by_cases hop : op.reverts = true
    · obtain ⟨hvoice, hnode⟩ := hrev op rfl hop sg hget
      rw [if_pos hop, hvoice, if_neg Bool.false_ne_true, if_pos hnode, map_some,
        h.revertContext_eq hsg hvoice hop, nodeAfter, if_pos hop]
    · have hsame : undone sim client (.gm op) [sg.subGraphId] s.info = s.info := by
        have hlinks : ∀ links : List LinkNode,
            links.map (undoneLink sim client (.gm op) [sg.subGraphId]) = links := by
          intro links
          refine (map_congr_left fun link _ => ?_).trans (List.map_id' links)
          simp [undoneLink]
        have hnodes : s.info.subGraphs.map
            (undoneSubGraph sim client (.gm op) [sg.subGraphId]) = s.info.subGraphs := by
          refine (map_congr_left fun x _ => ?_).trans (List.map_id' _)
          simp [undoneSubGraph, hop]
        unfold undone
        rw [hnodes, hlinks, hlinks]
      rw [if_neg hop, hsame, nodeAfter, if_neg hop]

lemma undoSubGraph_of_not_revertible (hget : s.info.getSubGraphNode id = some sg)
    (hnode : s.clientNode = none) (hrev : ¬ Revertible sim client cmd s.info id) :
    undoSubGraph sim client cmd id s = none ∨
      undoSubGraph sim client cmd id s = some (false, { s with result := .eok }) := by
  unfold Revertible at hrev
  push Not at hrev
  obtain ⟨op, rfl, hop, sg', hget', hsg'⟩ := hrev
  obtain rfl := Option.some.inj (hget'.symm.trans hget)
  simp only [undoSubGraph, hget]
  rw [if_pos hop]
  cases hvoice : sg'.voiceCall with
  | true => exact .inr (if_pos rfl)
  | false =>
    left
    rw [if_neg Bool.false_ne_true, if_neg (hsg' hvoice), hnode, map_none]

lemma Revertible.afterUndo (hrev : Revertible sim client cmd info id)
    (hget : info.getSubGraphNode id = some sg) :
    Revertible sim client cmd (undone sim client cmd [id] info) id := by
  rintro op rfl hop sg' hsg'
  obtain rfl := Option.some.inj ((getSubGraphNode_undone hget).symm.trans hsg')
  obtain ⟨hvoice, hnode⟩ := hrev op rfl hop sg hget
  have hid := subGraphId_of_getSubGraphNode hget
  have hsg : undoneSubGraph sim client (.gm op) [id] sg =
      { sg with clients := sg.clients.revertState sim client } := by
    simp [undoneSubGraph, hid, hop, hvoice]
  rw [hsg]
  exact ⟨hvoice, ClientList.isSome_getClientNode_revertState.trans hnode⟩

lemma undoSubGraph_again (h : ContextsSound sim client info)
    (hget : info.getSubGraphNode id = some sg) (hrev : Revertible sim client cmd info id)
    (node : Option ℕ) :
    undoSubGraph sim client cmd id ⟨undone sim client cmd [id] info, nodeAfter cmd id node, .eok⟩ =
      some (true, ⟨undone sim client cmd [id] info, nodeAfter cmd id node, .eok⟩) := by
  have hnode : nodeAfter cmd id (nodeAfter cmd id node) = nodeAfter cmd id node := by
    cases cmd with
    | graphOpen => rfl
    | gm op =>
      simp only [nodeAfter]
      split_ifs <;> rfl
  have hagain := undoSubGraph_of_revertible
    (s := ⟨undone sim client cmd [id] info, nodeAfter cmd id node, .eok⟩) h.afterUndo
    (getSubGraphNode_undone hget) (hrev.afterUndo hget)
  rw [hagain, h.undone_twice, hnode]

variable {cmdIds done : List ℕ}

lemma cmdListLoop_of_not_mem (hmem : id ∉ cmdIds) {rounds : ℕ} (hrounds : cmdIds.length < rounds) :
    cmdListLoop sim client cmd id rounds cmdIds s = some ([], s) := by
  induction cmdIds generalizing rounds with
  | nil =>
    obtain ⟨rounds, rfl⟩ := Nat.exists_eq_add_of_lt hrounds
    simp [cmdListLoop]
  | cons cmdId cmdIds ih =>
    obtain ⟨rounds, rfl⟩ : ∃ k, rounds = k + 1 := ⟨rounds - 1, by omega⟩
    rw [mem_cons, not_or] at hmem
    rw [cmdListLoop, if_neg hmem.1]
    exact ih hmem.2 (Nat.lt_of_succ_lt_succ hrounds)

/-- **The inner loop.**  With a sub-graph that can be undone it goes to the end of the list and
undoes the sub-graph. -/
lemma cmdListLoop_of_fixed (hone : undoSubGraph sim client cmd id s = some (true, s'))
    (htwo : undoSubGraph sim client cmd id s' = some (true, s'))
    (hmem : id ∈ cmdIds) {rounds : ℕ} (hrounds : cmdIds.length < rounds) :
    cmdListLoop sim client cmd id rounds cmdIds s = some ([], s') := by
  induction cmdIds generalizing rounds s with
  | nil => exact absurd hmem not_mem_nil
  | cons cmdId cmdIds ih =>
    obtain ⟨rounds, rfl⟩ : ∃ k, rounds = k + 1 := ⟨rounds - 1, by omega⟩
    have hrounds' := Nat.lt_of_succ_lt_succ hrounds
    rw [cmdListLoop]
    by_cases hid : id = cmdId
    · rw [if_pos hid, hone]
      by_cases hlater : id ∈ cmdIds
      · exact ih htwo hlater hrounds'
      · exact cmdListLoop_of_not_mem hlater hrounds'
    · rw [if_neg hid]
      exact ih hone ((mem_cons.mp hmem).resolve_left hid) hrounds'

lemma cmdListLoop_of_stuck {node : Option ℕ}
    (hstuck : ∀ r, undoSubGraph sim client cmd id ⟨info, node, r⟩ = none ∨
      undoSubGraph sim client cmd id ⟨info, node, r⟩ = some (false, ⟨info, node, .eok⟩))
    (hmem : id ∈ cmdIds) (rounds : ℕ) (r : ArResult) :
    cmdListLoop sim client cmd id rounds cmdIds ⟨info, node, r⟩ = none := by
  induction rounds generalizing cmdIds r with
  | zero => rfl
  | succ rounds ih =>
    obtain ⟨cmdId, cmdIds, rfl⟩ := exists_cons_of_ne_nil (ne_nil_of_mem hmem)
    rw [cmdListLoop]
    by_cases hid : id = cmdId
    · rw [if_pos hid]
      rcases hstuck r with hcrash | hstay
      · rw [hcrash]
      · rw [hstay]
        exact ih hmem .eok
    · rw [if_neg hid]
      exact ih ((mem_cons.mp hmem).resolve_left hid) r

lemma rspListLoop_nil (rounds : ℕ) (rspIds : List ℕ) (s : RspState) :
    rspListLoop sim client cmd (rounds + 1) rspIds [] s = some s := by
  induction rspIds with
  | nil => rfl
  | cons rspId rspIds ih =>
    exact ih

lemma undone_nil : undone sim client cmd [] info = info := by
  have hnodes : info.subGraphs.map (undoneSubGraph sim client cmd []) = info.subGraphs :=
    (map_congr_left fun x _ => if_neg not_mem_nil).trans (List.map_id' _)
  have hlinks : ∀ links : List LinkNode, links.map (undoneLink sim client cmd []) = links := by
    intro links
    refine (map_congr_left fun link _ => ?_).trans (List.map_id' links)
    simp [undoneLink]
  unfold undone
  rw [hnodes, hlinks, hlinks]

/-- **The handler.**  If the first sub-graph of the container can be undone, the command is
undone for it. -/
lemma graphCmdRspHdlr_of_revertible (h : ContextsSound sim client info)
    {contIds cmdIds : List ℕ} (hknown : ∀ id ∈ cmdIds, (info.getSubGraphNode id).isSome = true)
    (hrev : ∀ id ∈ inBoth (contIds.take 1) cmdIds, Revertible sim client cmd info id) :
    ∃ n result, ∀ rounds ≥ n, graphCmdRspHdlr sim client cmd rounds .failed contIds cmdIds info =
        some (result, undone sim client cmd (inBoth (contIds.take 1) cmdIds) info) := by
  cases contIds with
  | nil =>
    refine ⟨0, .eok, fun rounds _ => ?_⟩
    have hnone : inBoth (([] : List ℕ).take 1) cmdIds = [] := rfl
    rw [hnone, undone_nil]
    rfl
  | cons first others =>
    have hfirst : inBoth ((first :: others).take 1) cmdIds =
        if first ∈ cmdIds then [first] else [] := by
      by_cases hmem : first ∈ cmdIds <;> simp [inBoth, hmem]
    rw [hfirst] at hrev ⊢
    -- the first search, after which the cursor is at the end
    obtain ⟨s', hloop, hinfo⟩ : ∃ s', (∀ rounds, cmdIds.length < rounds →
        cmdListLoop sim client cmd first rounds cmdIds ⟨info, none, .eok⟩ = some ([], s')) ∧
        s'.info = undone sim client cmd (if first ∈ cmdIds then [first] else []) info := by
      by_cases hmem : first ∈ cmdIds
      · rw [if_pos hmem] at hrev ⊢
        obtain ⟨sg, hget⟩ := isSome_iff_exists.mp (hknown first hmem)
        have hrevert := hrev first (mem_singleton_self first)
        have hone := undoSubGraph_of_revertible (s := ⟨info, none, .eok⟩) h hget hrevert
        exact ⟨_, fun rounds hrounds =>
          cmdListLoop_of_fixed hone (undoSubGraph_again h hget hrevert none) hmem hrounds, rfl⟩
      · rw [if_neg hmem, undone_nil]
        exact ⟨_, fun rounds hrounds => cmdListLoop_of_not_mem hmem hrounds, rfl⟩
    refine ⟨cmdIds.length + 1, s'.result, fun rounds hrounds => ?_⟩
    obtain ⟨k, rfl⟩ : ∃ k, rounds = k + 1 := ⟨rounds - 1, by omega⟩
    rw [graphCmdRspHdlr, if_pos rfl, rspListLoop, hloop _ hrounds, bind_some]
    dsimp only
    rw [rspListLoop_nil, map_some, hinfo]

lemma graphCmdRspHdlr_of_not_revertible {contIds : List ℕ}
    (hknown : ∀ id ∈ cmdIds, (info.getSubGraphNode id).isSome = true)
    (hrev : ¬ ∀ id ∈ inBoth (contIds.take 1) cmdIds, Revertible sim client cmd info id)
    (rounds : ℕ) :
    graphCmdRspHdlr sim client cmd rounds .failed contIds cmdIds info = none := by
  push Not at hrev
  obtain ⟨id, hid, hrev⟩ := hrev
  obtain ⟨hfirst, hmem⟩ := mem_filter.mp hid
  have hmem := of_decide_eq_true hmem
  obtain ⟨first, others, rfl⟩ : ∃ first others, contIds = first :: others := by
    cases contIds with
    | nil => cases hfirst
    | cons first others => exact ⟨first, others, rfl⟩
  obtain rfl := mem_singleton.mp hfirst
  obtain ⟨sg, hget⟩ := isSome_iff_exists.mp (hknown id hmem)
  have hstuck := fun r => undoSubGraph_of_not_revertible (s := ⟨info, none, r⟩) hget rfl hrev
  rw [graphCmdRspHdlr, if_pos rfl, rspListLoop, cmdListLoop_of_stuck hstuck hmem]
  rfl

/-! ## Undoing for more sub-graphs -/

/-- For one sub-graph of the graph: undoing it for `ids` is undoing it for the fewer `done`. -/
lemma undoneSubGraph_eq_iff {ids : List ℕ} (hsub : done ⊆ ids) :
    undoneSubGraph sim client cmd ids sg = undoneSubGraph sim client cmd done sg ↔
      (sg.subGraphId ∈ ids → sg.subGraphId ∉ done → undoneSubGraph sim client cmd ids sg = sg) := by
  by_cases hdone : sg.subGraphId ∈ done
  · refine iff_of_true ?_ fun _ hnot => absurd hdone hnot
    unfold undoneSubGraph
    rw [if_pos (hsub hdone), if_pos hdone]
  · have hstays : undoneSubGraph sim client cmd done sg = sg := if_neg hdone
    rw [hstays]
    by_cases hid : sg.subGraphId ∈ ids
    · exact ⟨fun heq _ _ => heq, fun heq => heq hid hdone⟩
    · exact iff_of_true (if_neg hid) fun hin => absurd hin hid

/-- The same for a link. -/
lemma undoneLink_eq_iff {link : LinkNode} {ids : List ℕ} (hsub : done ⊆ ids) :
    undoneLink sim client cmd ids link = undoneLink sim client cmd done link ↔
      (cmd = .graphOpen → (∃ id ∈ ids, link.touches id = true) →
        (∀ id ∈ done, ¬ link.touches id = true) →
        link.clients.getClientNode sim client = none) := by
  have hfree : { link with clients := link.clients.freeClientContext sim client } = link ↔
      link.clients.getClientNode sim client = none := by
    rw [← ClientList.freeClientContext_eq_self_iff]
    cases link
    simp
  by_cases hdone : cmd = .graphOpen ∧ ∃ id ∈ done, link.touches id = true
  · obtain ⟨hcmd, id, hid, htouches⟩ := hdone
    refine iff_of_true ?_ fun _ _ hnot => absurd htouches (hnot id hid)
    rw [undoneLink, undoneLink, if_pos ⟨hcmd, id, hsub hid, htouches⟩,
      if_pos ⟨hcmd, id, hid, htouches⟩]
  · have hstays : undoneLink sim client cmd done link = link := if_neg hdone
    rw [hstays]
    by_cases hids : cmd = .graphOpen ∧ ∃ id ∈ ids, link.touches id = true
    · rw [undoneLink, if_pos hids, hfree]
      refine ⟨fun hnone _ _ _ => hnone, fun hnone => hnone hids.1 hids.2 ?_⟩
      intro id hid htouches
      exact hdone ⟨hids.1, id, hid, htouches⟩
    · exact iff_of_true (if_neg hids) fun hcmd hin => absurd ⟨hcmd, hin⟩ hids

/-- When undoing leaves a sub-graph of `ids` as it is. -/
lemma undoneSubGraph_eq_self_iff {ids : List ℕ} (hid : sg.subGraphId ∈ ids) :
    undoneSubGraph sim client cmd ids sg = sg ↔
      match cmd with
      | .graphOpen => sg.clients.getClientNode sim client = none
      | .gm op => op.reverts = true → sg.voiceCall = true ∨
          ∀ ctx ∈ sg.clients.getClientNode sim client, ctx.prevState = ctx.currState := by
  have hclients : ∀ l : ClientList, { sg with clients := l } = sg ↔ l = sg.clients := by
    intro l
    cases sg
    simp
  unfold undoneSubGraph
  rw [if_pos hid]
  cases cmd with
  | graphOpen => exact (hclients _).trans ClientList.freeClientContext_eq_self_iff
  | gm op =>
    dsimp only
    by_cases hop : op.reverts = true
    · by_cases hvoice : sg.voiceCall = false
      · rw [if_pos ⟨hop, hvoice⟩, hclients, ClientList.revertState_eq_self_iff]
        simp [hop, hvoice]
      · simp [hvoice]
    · simp [hop]

/-- **Enough undone.**  Undoing the command for `done` is undoing it for all of `ids` exactly when
there is nothing to undo for the others. -/
lemma ContextsSound.undone_eq_iff (h : ContextsSound sim client info) {ids : List ℕ}
    (hsub : done ⊆ ids) :
    undone sim client cmd done info = undone sim client cmd ids info ↔
      ∀ id ∈ ids, id ∉ done → NothingToUndo sim client info done id cmd := by
  have hparts : undone sim client cmd done info = undone sim client cmd ids info ↔
      (∀ sg ∈ info.subGraphs, undoneSubGraph sim client cmd ids sg =
        undoneSubGraph sim client cmd done sg) ∧
      ∀ link ∈ info.conns ++ info.ctrlLinks, undoneLink sim client cmd ids link =
        undoneLink sim client cmd done link := by
    rw [eq_comm]
    simp only [undone, ApmGraphInfo.mk.injEq, map_inj_left, forall_mem_append]
  rw [hparts]
  constructor
  · rintro ⟨hnodes, hlinks⟩ id hid hnot
    have hself : ∀ sg ∈ info.getSubGraphNode id,
        undoneSubGraph sim client cmd ids sg = sg ∧ sg.subGraphId ∈ ids := by
      intro sg hget
      have hsg := mem_of_find?_eq_some hget
      have heq := subGraphId_of_getSubGraphNode hget
      rw [← heq] at hid hnot
      exact ⟨(undoneSubGraph_eq_iff hsub).mp (hnodes sg hsg) hid hnot, hid⟩
    cases cmd with
    | graphOpen =>
      refine ⟨fun sg hget => ?_, fun link hlink htouches hclear => ?_⟩
      · obtain ⟨hstays, hin⟩ := hself sg hget
        exact (undoneSubGraph_eq_self_iff hin).mp hstays
      · exact (undoneLink_eq_iff hsub).mp (hlinks link hlink) rfl ⟨id, hid, htouches⟩ hclear
    | gm op =>
      intro hop sg hget
      obtain ⟨hstays, hin⟩ := hself sg hget
      exact (undoneSubGraph_eq_self_iff hin).mp hstays hop
  · intro hnothing
    constructor
    · intro sg hsg
      rw [undoneSubGraph_eq_iff hsub]
      intro hid hnot
      have hget := h.getSubGraphNode_eq hsg
      have hno := hnothing sg.subGraphId hid hnot
      rw [undoneSubGraph_eq_self_iff hid]
      cases cmd with
      | graphOpen => exact hno.1 sg hget
      | gm op => exact fun hop => hno hop sg hget
    · intro link hlink
      rw [undoneLink_eq_iff hsub]
      rintro rfl ⟨id, hid, htouches⟩ hclear
      have hnot : id ∉ done := fun hin => hclear id hin htouches
      exact (hnothing id hid hnot).2 link hlink htouches hclear

end

/-- **Undoing a failed command.**  `apm_multi_client_graph_cmd_rsp_hdlr` ends and undoes the
command for every sub-graph in both lists exactly when the first sub-graph of the container, if
the command has it, can be undone, and there is nothing to undo for the other ones. -/
theorem graphCmdRspHdlr_undoes_iff (sim : Bool) (client : Client) (cmd : GraphCmd)
    (info : ApmGraphInfo) (contIds cmdIds : List ℕ) (h : ContextsSound sim client info)
    (hknown : ∀ id ∈ cmdIds, (info.getSubGraphNode id).isSome = true) :
    UndoesRight sim client cmd contIds cmdIds info ↔
      OnlyFirst sim client cmd contIds cmdIds info := by
  have hsub : inBoth (contIds.take 1) cmdIds ⊆ inBoth contIds cmdIds := by
    intro id hid
    obtain ⟨hin, hmem⟩ := mem_filter.mp hid
    exact mem_filter.mpr ⟨mem_of_mem_take hin, hmem⟩
  by_cases hrev : ∀ id ∈ inBoth (contIds.take 1) cmdIds, Revertible sim client cmd info id
  · obtain ⟨n, result, hrun⟩ := graphCmdRspHdlr_of_revertible h hknown hrev
    rw [OnlyFirst, and_iff_right hrev, ← h.undone_eq_iff hsub]
    constructor
    · rintro ⟨n', result', hrun'⟩
      have heq := (hrun (max n n') (le_max_left _ _)).symm.trans
        (hrun' (max n n') (le_max_right _ _))
      rw [Option.some.injEq, Prod.mk.injEq] at heq
      exact heq.2
    · intro heq
      exact ⟨n, result, fun rounds hrounds => by rw [hrun rounds hrounds, heq]⟩
  · refine iff_of_false ?_ fun honly => hrev honly.1
    rintro ⟨n, result, hrun⟩
    have hnone := graphCmdRspHdlr_of_not_revertible hknown hrev n
    cases hnone.symm.trans (hrun n le_rfl)

/-- The sub-graph with this id, for which the client with port 1 in domain 1 asked to be
started. -/
def startingSubGraph (id : ℕ) : SubGraph where
  subGraphId := id
  voiceCall := false
  state := .stopped
  clients := ⟨[⟨1, 1, .stopped, .started⟩], 1⟩

/-- Two such sub-graphs, without links. -/
def twoStarting : ApmGraphInfo where
  subGraphs := [startingSubGraph 0xA1, startingSubGraph 0xA2]
  conns := []
  ctrlLinks := []

lemma twoStarting_sound : ContextsSound false ⟨1, 1⟩ twoStarting := by
  refine ⟨by decide, ?_, by simp [twoStarting]⟩
  intro sg hsg
  rcases mem_cons.mp hsg with rfl | hsg
  · exact pairwise_singleton _ _
  · obtain rfl := mem_singleton.mp hsg
    exact pairwise_singleton _ _

theorem graphCmdRspHdlr_undoes_iff_oneListed :
    UndoesRight false ⟨1, 1⟩ (.gm .start) [0xA1, 0xA2] [0xA1] twoStarting ↔
      OnlyFirst false ⟨1, 1⟩ (.gm .start) [0xA1, 0xA2] [0xA1] twoStarting :=
  graphCmdRspHdlr_undoes_iff false ⟨1, 1⟩ (.gm .start) twoStarting [0xA1, 0xA2] [0xA1]
    twoStarting_sound (by decide)

/-- A start of two sub-graphs in one container fails: the client's state in the second one is
not put back. -/
theorem not_graphCmdRspHdlr_undoes :
    ¬ ∀ (sim : Bool) (client : Client) (cmd : GraphCmd) (info : ApmGraphInfo)
      (contIds cmdIds : List ℕ), ContextsSound sim client info →
      (∀ id ∈ cmdIds, (info.getSubGraphNode id).isSome = true) →
      (∀ sg ∈ info.subGraphs, (sg.clients.getClientNode sim client).isSome = true) →
      UndoesRight sim client cmd contIds cmdIds info := by
  intro h
  obtain ⟨n, result, hrun⟩ := h false ⟨1, 1⟩ (.gm .start) twoStarting [0xA1, 0xA2] [0xA1, 0xA2]
    twoStarting_sound (by decide) (by decide)
  have hrev : ∀ id ∈ inBoth [0xA1] [0xA1, 0xA2],
      Revertible false ⟨1, 1⟩ (.gm .start) twoStarting id := by
    rintro id hid op - - sg hget
    obtain rfl := mem_singleton.mp hid
    obtain rfl := Option.some.inj hget
    exact ⟨rfl, rfl⟩
  obtain ⟨n', result', hrun'⟩ :=
    @graphCmdRspHdlr_of_revertible false ⟨1, 1⟩ (.gm .start) twoStarting twoStarting_sound
      [0xA1, 0xA2] [0xA1, 0xA2] (by decide) hrev
  have heq := (hrun (max n n') (le_max_left _ _)).symm.trans (hrun' (max n n') (le_max_right _ _))
  rw [Option.some.injEq, Prod.mk.injEq] at heq
  exact absurd heq.2 (by decide)

end AudioReach
