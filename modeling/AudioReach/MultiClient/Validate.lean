import AudioReach.Library.Loops
import AudioReach.MultiClient.Aggregate

/-!
# A refused command and the client contexts

`apm_gm_cmd_validate_sg_list` changes the sender's context of one listed sub-graph after the
other, and can still find a sub-graph further on that makes it refuse the command.  Nothing
takes the changes back.

The result of the loop depends on the graph before the command alone: entries for other
sub-graphs do not matter to an entry, and an earlier entry for the same sub-graph matters
only when the sub-graph is `Spent` by it.  So the list splits at the first entry that is not
admitted, and the graph is as before exactly when nothing up to there changed it
(`FailsClean`).
-/

namespace AudioReach

open AudioReach.Library
open List

variable {sim : Bool} {client : Client} {op : GmOpcode}

/-! ## One sub-graph of the list -/

section

variable (sim : Bool) (client : Client) (op : GmOpcode)

/-- The sender is no client of the sub-graph, or both have the commanded state already. -/
def Refused (sg : SubGraph) : Prop :=
  ¬ Bypassed op sg ∧ ∀ node ∈ sg.clients.getClientNode sim client,
    op.translatedSgState = sg.state ∧ node.currState = op.translatedSgState

/-- Another client keeps the sub-graph above the commanded state. -/
def KeptUp (sg : SubGraph) : Prop :=
  op.translatedSgState < sg.state ∧ ∃ node ∈ sg.clients.getClientNode sim client,
    op.translatedSgState < sg.clients.aggregateState node

/-- The close ends only the sender's part in the sub-graph. -/
def Leaving (sg : SubGraph) : Prop :=
  op = .close ∧ (KeptUp sim client op sg ∨ op.translatedSgState = sg.state)

/-- The same command for the sub-graph is refused the second time. -/
def Spent (sg : SubGraph) : Prop :=
  ¬ Bypassed op sg ∧ (op.translatedSgState = sg.state ∨ Leaving sim client op sg)

/-- The sub-graph goes to the sequencer. -/
def ToSequencer (sg : SubGraph) : Prop :=
  Bypassed op sg ∨ (op.translatedSgState ≠ sg.state ∧ ¬ KeptUp sim client op sg)

/-- The command passes over the sub-graph without a change: it is bypassed, or the sender
asked for this state twice already. -/
def IdleFor (sg : SubGraph) : Prop :=
  Bypassed op sg ∨ (op.translatedSgState ≠ sg.state ∧ ¬ Leaving sim client op sg ∧
      ∃ node ∈ sg.clients.getClientNode sim client,
        node.prevState = op.translatedSgState ∧ node.currState = op.translatedSgState)

end

/-- `sg` is what `sg₀` becomes when it is listed, once or more often. -/
structure Moved (sim : Bool) (client : Client) (op : GmOpcode) (sg₀ sg : SubGraph) : Prop where
  subGraphId : sg.subGraphId = sg₀.subGraphId
  voiceCall : sg.voiceCall = sg₀.voiceCall
  state : sg.state = sg₀.state
  bypassed : Bypassed op sg₀ → sg = sg₀
  /-- A close that is not let through takes the sender's context out. -/
  freed : ¬ Bypassed op sg₀ → Leaving sim client op sg₀ →
    sg.clients = (sg₀.clients.setState sim client op.translatedSgState).freeClientContext
      sim client
  /-- Else the sender's context has the commanded state. -/
  asked : ¬ Bypassed op sg₀ → ¬ Leaving sim client op sg₀ →
    sg.clients = sg₀.clients.setState sim client op.translatedSgState ∨
    sg.clients = (sg₀.clients.setState sim client op.translatedSgState).setState sim client
      op.translatedSgState

/-! ## The sender's context -/

lemma check_ask (c : Client) (state : SgState) (ctx : ClientContext) :
    checkClientAndDomain sim c (ctx.ask state) = checkClientAndDomain sim c ctx := rfl

lemma ClientContext.ask_eq_self_iff {state : SgState} {ctx : ClientContext} :
    ctx.ask state = ctx ↔ ctx.prevState = state ∧ ctx.currState = state := by
  cases ctx
  simp only [ClientContext.ask, ClientContext.mk.injEq, true_and]
  constructor
  · rintro ⟨hprev, hcurr⟩
    exact ⟨by rw [← hprev, ← hcurr], hcurr.symm⟩
  · rintro ⟨hprev, hcurr⟩
    exact ⟨by rw [hprev, hcurr], hcurr.symm⟩

namespace ClientList

variable {l : ClientList} {state : SgState} {node : ClientContext}

lemma getClientNode_setState (sim : Bool) (client : Client) (l : ClientList) (state : SgState) :
    (l.setState sim client state).getClientNode sim client =
      (l.getClientNode sim client).map (ClientContext.ask state) :=
  find?_updateFirst fun _ h => h

lemma setState_thrice :
    (((l.setState sim client state).setState sim client state).setState sim client state) =
      (l.setState sim client state).setState sim client state := by
  simp only [setState, ClientList.mk.injEq, and_true]
  rw [updateFirst_updateFirst (check_ask client state),
    updateFirst_updateFirst (check_ask client state),
    updateFirst_updateFirst (check_ask client state)]
  rfl

section

variable (hnode : l.getClientNode sim client = some node)
include hnode

lemma aggregateState_setState_le_iff {node' : ClientContext} {bound : SgState}
    (hport : node'.clientPortId = node.clientPortId) :
    (l.setState sim client state).aggregateState node' ≤ bound ↔ l.aggregateState node ≤ bound := by
  rw [aggregateState_le_iff, aggregateState_le_iff, hport]
  constructor
  · intro h ctx hctx hne
    have hother : ctx ≠ node := fun heq => hne (by rw [heq])
    exact h ctx (mem_updateFirst_of_ne hnode hctx hother) hne
  · intro h ctx hctx hne
    rcases mem_updateFirst hctx with hold | ⟨first, hfirst, rfl⟩
    · exact h ctx hold hne
    · have heq : first = node := Option.some.inj (hfirst.symm.trans hnode)
      exact absurd (congrArg ClientContext.clientPortId heq) hne

lemma setState_eq_self_iff :
    l.setState sim client state = l ↔ node.prevState = state ∧ node.currState = state := by
  rw [← ClientContext.ask_eq_self_iff, ← updateFirst_eq_self_iff hnode]
  constructor
  · intro h
    exact congrArg ClientList.contexts h
  · intro h
    unfold setState
    rw [h]

lemma setState_setState_eq_self_iff : (l.setState sim client state).setState sim client state = l ↔
      node.prevState = state ∧ node.currState = state := by
  constructor
  · intro h
    have hcontexts := congrArg ClientList.contexts h
    simp only [setState] at hcontexts
    rw [updateFirst_updateFirst (check_ask client state)] at hcontexts
    have hfix := (updateFirst_eq_self_iff hnode).mp hcontexts
    exact ⟨(congrArg ClientContext.prevState hfix).symm,
      (congrArg ClientContext.currState hfix).symm⟩
  · intro h
    rw [(setState_eq_self_iff hnode).mpr h]
    exact (setState_eq_self_iff hnode).mpr h

lemma any_of_getClientNode : l.contexts.any (checkClientAndDomain sim client) = true := by
  rw [List.any_eq_true]
  exact ⟨node, mem_of_find?_eq_some hnode, find?_some hnode⟩

lemma freeClientContext_ne : (l.setState sim client state).freeClientContext sim client ≠ l := by
  intro h
  have hnode' := getClientNode_setState sim client l state
  rw [hnode, Option.map_some] at hnode'
  have hany := any_of_getClientNode hnode'
  obtain ⟨ctx, hmem, hmatch⟩ := List.any_eq_true.mp hany
  have hlength := congrArg (fun l => l.contexts.length) h
  have hset : (l.setState sim client state).contexts.length = l.contexts.length :=
    length_updateFirst
  rw [freeClientContext, if_pos hany] at hlength
  simp only [length_eraseP_of_mem hmem hmatch] at hlength
  have hpos := length_pos_of_mem hmem
  omega

end

lemma getClientNode_freeClientContext (h : AtMostOne (checkClientAndDomain sim client) l.contexts) :
    ((l.setState sim client state).freeClientContext sim client).getClientNode sim client =
      none := by
  unfold freeClientContext
  split_ifs with hany
  · exact (h.updateFirst (check_ask client state)).find?_eraseP
  · refine find?_eq_none.mpr fun ctx hctx hmatch => hany ?_
    exact List.any_eq_true.mpr ⟨ctx, hctx, hmatch⟩

end ClientList

/-! ## The check, listed once and again -/

section

variable {sg sg₀ : SubGraph} {node : ClientContext}

lemma check_eq_error_of_refused (h : Refused sim client op sg) :
    checkSgStateAndUpdateSendToSeqncr sim client op (some sg) = .error .efailed := by
  have hdecided := decided_check sim client op sg
  generalize checkSgStateAndUpdateSendToSeqncr sim client op (some sg) = decision at hdecided ⊢
  cases hdecided with
  | bypassed hby => exact absurd hby h.1
  | alien | already => rfl
  | raised _ node hnode hup => exact absurd (h.2 node hnode).1 hup.ne'
  | lowered _ node hnode hdown => exact absurd (h.2 node hnode).1 hdown.ne
  | held _ node hnode hdown => exact absurd (h.2 node hnode).1 hdown.ne
  | joined _ node hnode _ hcurr => exact absurd (h.2 node hnode).2 hcurr

lemma moved_updated (hop : ¬ Bypassed op sg) (hstay : ¬ Leaving sim client op sg) :
    Moved sim client op sg (sg.updated sim client op) where
  subGraphId := rfl
  voiceCall := rfl
  state := rfl
  bypassed h := absurd h hop
  freed _ h := absurd h hstay
  asked _ _ := .inl rfl

lemma moved_settled (hop : ¬ Bypassed op sg)
    (hkept : KeptUp sim client op sg ∨ op.translatedSgState = sg.state) :
    Moved sim client op sg (settleCheck sim client op false (sg.updated sim client op)).subGraph ∧
      ((settleCheck sim client op false (sg.updated sim client op)).linksFreed = true ↔
        Leaving sim client op sg) := by
  by_cases hclose : op = .close
  · have hleave : Leaving sim client op sg := ⟨hclose, hkept⟩
    rw [settleCheck, if_pos ⟨rfl, hclose⟩]
    refine ⟨⟨rfl, rfl, rfl, fun h => absurd h hop, fun _ _ => rfl, ?_⟩, ?_⟩
    · exact fun _ h => absurd hleave h
    · exact iff_of_true rfl hleave
  · have hstay : ¬ Leaving sim client op sg := fun h => hclose h.1
    rw [settleCheck, if_neg fun h => hclose h.2]
    exact ⟨moved_updated hop hstay, iff_of_false (by simp) hstay⟩

/-- A sub-graph that is not refused. -/
lemma check_of_not_refused (h : ¬ Refused sim client op sg) :
    ∃ check, checkSgStateAndUpdateSendToSeqncr sim client op (some sg) = .ok check ∧
      Moved sim client op sg check.subGraph ∧
      (check.seqEntryReqd = true ↔ ToSequencer sim client op sg) ∧
      (check.linksFreed = true ↔ ¬ Bypassed op sg ∧ Leaving sim client op sg) := by
  have hdecided := decided_check sim client op sg
  generalize checkSgStateAndUpdateSendToSeqncr sim client op (some sg) = decision at hdecided
  cases hdecided with
  | bypassed hby =>
    refine ⟨_, rfl, ⟨rfl, rfl, rfl, fun _ => rfl, fun h => absurd hby h, fun h => absurd hby h⟩,
      iff_of_true rfl (.inl hby), iff_of_false (by simp) fun h => h.1 hby⟩
  | alien hop hnone =>
    refine absurd ⟨hop, ?_⟩ h
    intro node hnode
    rw [hnone] at hnode
    cases hnode
  | already hop node hnode hsame hcurr =>
    refine absurd ⟨hop, ?_⟩ h
    intro node' hnode'
    obtain rfl := Option.some.inj (hnode'.symm.trans hnode)
    exact ⟨hsame, hcurr⟩
  | raised hop node hnode hup =>
    have hkept : ¬ KeptUp sim client op sg := fun h => absurd h.1 hup.not_gt
    have hstay : ¬ Leaving sim client op sg := fun h => h.2.elim hkept hup.ne'
    exact ⟨_, rfl, moved_updated hop hstay, iff_of_true rfl (.inr ⟨hup.ne', hkept⟩),
      iff_of_false (by simp) fun h => hstay h.2⟩
  | lowered hop node hnode hdown hagg =>
    have hkept : ¬ KeptUp sim client op sg := by
      rintro ⟨_, node', hnode', habove⟩
      obtain rfl := Option.some.inj (hnode'.symm.trans hnode)
      exact absurd hagg (not_le.mpr habove)
    have hstay : ¬ Leaving sim client op sg := fun h => h.2.elim hkept hdown.ne
    exact ⟨_, rfl, moved_updated hop hstay, iff_of_true rfl (.inr ⟨hdown.ne, hkept⟩),
      iff_of_false (by simp) fun h => hstay h.2⟩
  | held hop node hnode hdown hagg =>
    have hkept : KeptUp sim client op sg := ⟨hdown, node, hnode, hagg⟩
    obtain ⟨hmoved, hfreed⟩ := moved_settled hop (.inl hkept)
    refine ⟨_, rfl, hmoved, ?_, hfreed.trans (and_iff_right hop).symm⟩
    exact iff_of_false (by simp) fun h => h.elim hop fun h => h.2 hkept
  | joined hop node hnode hsame hcurr =>
    obtain ⟨hmoved, hfreed⟩ := moved_settled hop (.inr hsame)
    refine ⟨_, rfl, hmoved, ?_, hfreed.trans (and_iff_right hop).symm⟩
    exact iff_of_false (by simp) fun h => h.elim hop fun h => h.1 hsame

lemma exists_node_of_not_refused (hop : ¬ Bypassed op sg) (h : ¬ Refused sim client op sg) :
    ∃ node, sg.clients.getClientNode sim client = some node ∧
      ¬ (op.translatedSgState = sg.state ∧ node.currState = op.translatedSgState) := by
  unfold Refused at h
  push Not at h
  obtain ⟨node, hnode, hnot⟩ := h hop
  exact ⟨node, hnode, fun ⟨hsame, hcurr⟩ => hnot hsame hcurr⟩

section

variable (h : Moved sim client op sg₀ sg)
include h

lemma Moved.bypassed_iff : Bypassed op sg ↔ Bypassed op sg₀ := by
  unfold Bypassed
  rw [h.voiceCall]

section

variable (hop : ¬ Bypassed op sg₀) (hstay : ¬ Leaving sim client op sg₀)
include hop hstay

lemma Moved.getClientNode (hnode : sg₀.clients.getClientNode sim client = some node) :
    ∃ node', sg.clients.getClientNode sim client = some node' ∧
      node'.clientPortId = node.clientPortId ∧ node'.currState = op.translatedSgState ∧
      ∀ bound, sg.clients.aggregateState node' ≤ bound ↔
        sg₀.clients.aggregateState node ≤ bound := by
  have hone : (sg₀.clients.setState sim client op.translatedSgState).getClientNode sim client =
      some (node.ask op.translatedSgState) := by
    rw [ClientList.getClientNode_setState, hnode, Option.map_some]
  rcases h.asked hop hstay with hclients | hclients
  · rw [hclients]
    exact ⟨_, hone, rfl, rfl, fun bound =>
      ClientList.aggregateState_setState_le_iff hnode rfl⟩
  · rw [hclients]
    refine ⟨(node.ask op.translatedSgState).ask op.translatedSgState, ?_, rfl, rfl, ?_⟩
    · rw [ClientList.getClientNode_setState, hone, Option.map_some]
    · intro bound
      exact (ClientList.aggregateState_setState_le_iff hone rfl).trans
        (ClientList.aggregateState_setState_le_iff hnode rfl)

lemma Moved.keptUp_iff (hnot : ¬ Refused sim client op sg₀) :
    KeptUp sim client op sg ↔ KeptUp sim client op sg₀ := by
  obtain ⟨node, hnode, -⟩ := exists_node_of_not_refused hop hnot
  obtain ⟨node', hnode', -, -, hagg⟩ := h.getClientNode hop hstay hnode
  unfold KeptUp
  rw [h.state]
  refine and_congr_right fun _ => ?_
  have habove := not_congr (hagg op.translatedSgState)
  rw [not_le, not_le] at habove
  simp only [hnode, hnode', Option.mem_some, exists_eq_left']
  exact habove

end

lemma Moved.refused_of_spent
    (hone : AtMostOne (checkClientAndDomain sim client) sg₀.clients.contexts)
    (hnot : ¬ Refused sim client op sg₀) (hspent : Spent sim client op sg₀) :
    Refused sim client op sg := by
  obtain ⟨hop, hwhy⟩ := hspent
  refine ⟨fun hby => hop (h.bypassed_iff.mp hby), ?_⟩
  intro node' hnode'
  by_cases hleave : Leaving sim client op sg₀
  · rw [h.freed hop hleave, ClientList.getClientNode_freeClientContext hone] at hnode'
    cases hnode'
  · obtain ⟨node, hnode, -⟩ := exists_node_of_not_refused hop hnot
    obtain ⟨node'', hnode'', -, hcurr, -⟩ := h.getClientNode hop hleave hnode
    obtain rfl := Option.some.inj (hnode'.symm.trans hnode'')
    rw [h.state]
    exact ⟨hwhy.resolve_right hleave, hcurr⟩

/-- Listed again, a sub-graph that is not spent gets the same decision. -/
lemma Moved.check (hnot : ¬ Refused sim client op sg₀) (hspent : ¬ Spent sim client op sg₀) :
    ∃ check, checkSgStateAndUpdateSendToSeqncr sim client op (some sg) = .ok check ∧
      Moved sim client op sg₀ check.subGraph ∧
      (check.seqEntryReqd = true ↔ ToSequencer sim client op sg₀) ∧
      check.linksFreed = false := by
  by_cases hop : Bypassed op sg₀
  · obtain rfl := h.bypassed hop
    obtain ⟨check, hcheck, hmoved, hseq, hfreed⟩ := check_of_not_refused hnot
    exact ⟨check, hcheck, hmoved, hseq, eq_false_of_ne_true fun h => (hfreed.mp h).1 hop⟩
  · unfold Spent at hspent
    push Not at hspent
    obtain ⟨hdiff, hstay⟩ := hspent hop
    obtain ⟨node, hnode, -⟩ := exists_node_of_not_refused hop hnot
    obtain ⟨node', hnode', -, -, -⟩ := h.getClientNode hop hstay hnode
    have hop' : ¬ Bypassed op sg := fun hby => hop (h.bypassed_iff.mp hby)
    have hdiff' : op.translatedSgState ≠ sg.state := by rw [h.state]; exact hdiff
    have hkept := h.keptUp_iff hop hstay hnot
    have hstay' : ¬ Leaving sim client op sg := by
      rintro ⟨hclose, hwhy⟩
      exact hstay ⟨hclose, .inl (hkept.mp (hwhy.resolve_right hdiff'))⟩
    have hnot' : ¬ Refused sim client op sg := fun hr => hdiff' (hr.2 node' hnode').1
    obtain ⟨check, hcheck, hmoved, hseq, hfreed⟩ := check_of_not_refused hnot'
    refine ⟨check, hcheck, ?_, ?_, eq_false_of_ne_true fun h => hstay' (hfreed.mp h).2⟩
    · refine ⟨hmoved.subGraphId.trans h.subGraphId, hmoved.voiceCall.trans h.voiceCall,
        hmoved.state.trans h.state, fun hby => absurd hby hop, fun _ hl => absurd hl hstay, ?_⟩
      intro _ _
      right
      -- asking more than twice is asking twice
      rcases h.asked hop hstay with hc | hc <;> rcases hmoved.asked hop' hstay' with hc' | hc' <;>
        rw [hc', hc]
      · exact ClientList.setState_thrice
      · exact ClientList.setState_thrice
      · rw [ClientList.setState_thrice]
        exact ClientList.setState_thrice
    · rw [hseq]
      unfold ToSequencer
      rw [h.bypassed_iff, h.state, hkept]

lemma Moved.eq_of_idle (hidle : IdleFor sim client op sg₀) : sg = sg₀ := by
  by_cases hop : Bypassed op sg₀
  · exact h.bypassed hop
  · obtain ⟨hdiff, hstay, node, hnode, hasked⟩ := hidle.resolve_left hop
    have hclients : sg.clients = sg₀.clients := by
      rcases h.asked hop hstay with hc | hc
      · rw [hc]
        exact (ClientList.setState_eq_self_iff hnode).mpr hasked
      · rw [hc]
        exact (ClientList.setState_setState_eq_self_iff hnode).mpr hasked
    have hid := h.subGraphId
    have hvoice := h.voiceCall
    have hstate := h.state
    cases sg
    cases sg₀
    subst hid hvoice hstate hclients
    rfl

lemma Moved.ne_of_not_idle (hnot : ¬ Refused sim client op sg₀)
    (hidle : ¬ IdleFor sim client op sg₀) : sg ≠ sg₀ := by
  rintro rfl
  have hop : ¬ Bypassed op sg := fun hby => hidle (.inl hby)
  obtain ⟨node, hnode, hfresh⟩ := exists_node_of_not_refused hop hnot
  by_cases hleave : Leaving sim client op sg
  · exact ClientList.freeClientContext_ne hnode (h.freed hop hleave).symm
  · have hasked : node.prevState = op.translatedSgState ∧
        node.currState = op.translatedSgState := by
      rcases h.asked hop hleave with hc | hc
      · exact (ClientList.setState_eq_self_iff hnode).mp hc.symm
      · exact (ClientList.setState_setState_eq_self_iff hnode).mp hc.symm
    by_cases hsame : op.translatedSgState = sg.state
    · exact hfresh ⟨hsame, hasked.2⟩
    · exact hidle (.inr ⟨hsame, hleave, node, hnode, hasked⟩)

end

end

/-! ## The list of a command -/

section

variable (sim : Bool) (client : Client) (op : GmOpcode) (st₀ : GmCmdState)

/-- The multi-client check passes for the entry, given the ids listed before it. -/
def Accepts (seen : List ℕ) (entry : SgEntry) : Prop :=
  ∃ sg, st₀.info.getSubGraphNode entry.subGraphId = some sg ∧ ¬ Refused sim client op sg ∧
    (entry.subGraphId ∈ seen → ¬ Spent sim client op sg)

/-- The entry can be put on the list of the sequencer, should it have to. -/
def Listable (seen : List ℕ) (entry : SgEntry) : Prop :=
  ∀ sg, st₀.info.getSubGraphNode entry.subGraphId = some sg → ToSequencer sim client op sg →
    entry.subGraphId ∈ st₀.regSgList ∨ entry.subGraphId ∈ seen ∨ entry.nodeAllocated = true

/-- The entry does not end the command. -/
def Admits (seen : List ℕ) (entry : SgEntry) : Prop :=
  Accepts sim client op st₀ seen entry ∧ Listable sim client op st₀ seen entry

/-- Every entry is admitted after the ones before it. -/
def AllAdmitted (entries : List SgEntry) : Prop :=
  ∀ passed entry rest, entries = passed ++ entry :: rest →
    Admits sim client op st₀ (passed.map SgEntry.subGraphId) entry

/-- The entry is for a sub-graph that the command passes over. -/
def IdleEntry (entry : SgEntry) : Prop :=
  ∃ sg, st₀.info.getSubGraphNode entry.subGraphId = some sg ∧ IdleFor sim client op sg

/-- When the entries up to `entry` are admitted and `entry` is not, the command passes over
those before it, and over `entry` itself when only its list node is missing. -/
def FailsClean (entries : List SgEntry) : Prop :=
  ∀ passed entry rest, entries = passed ++ entry :: rest → AllAdmitted sim client op st₀ passed →
    ¬ Admits sim client op st₀ (passed.map SgEntry.subGraphId) entry →
    (∀ e ∈ passed, IdleEntry sim client op st₀ e) ∧
      (Accepts sim client op st₀ (passed.map SgEntry.subGraphId) entry →
        IdleEntry sim client op st₀ entry)

end

/-- The client contexts after the ids `seen` were accepted. -/
structure Shifted (sim : Bool) (client : Client) (op : GmOpcode) (st₀ : GmCmdState)
    (seen : List ℕ) (st : GmCmdState) : Prop where
  fresh : ∀ id, id ∉ seen → st.info.getSubGraphNode id = st₀.info.getSubGraphNode id
  moved : ∀ id ∈ seen, ∃ sg₀ sg, st₀.info.getSubGraphNode id = some sg₀ ∧
    st.info.getSubGraphNode id = some sg ∧ ¬ Refused sim client op sg₀ ∧
    Moved sim client op sg₀ sg

/-- The list of the sequencer after the ids `seen` were admitted. -/
def Registered (sim : Bool) (client : Client) (op : GmOpcode) (st₀ : GmCmdState)
    (seen : List ℕ) (st : GmCmdState) : Prop :=
  ∀ id, id ∈ st.regSgList ↔ id ∈ st₀.regSgList ∨
    (id ∈ seen ∧ ∃ sg₀, st₀.info.getSubGraphNode id = some sg₀ ∧ ToSequencer sim client op sg₀)

variable {st₀ st : GmCmdState} {seen : List ℕ} {entry : SgEntry}

lemma getSubGraphNode_applyCheck (sim : Bool) (client : Client) {check : SgCheck} {old : SubGraph}
    (hold : st.info.getSubGraphNode check.subGraph.subGraphId = some old) (id : ℕ) :
    (st.applyCheck sim client check).info.getSubGraphNode id =
      if id = check.subGraph.subGraphId then some check.subGraph
      else st.info.getSubGraphNode id := by
  have hset : (st.applyCheck sim client check).info.subGraphs =
      (st.info.setSubGraphNode check.subGraph).subGraphs := by
    unfold GmCmdState.applyCheck
    split_ifs <;> rfl
  unfold ApmGraphInfo.getSubGraphNode at hold ⊢
  rw [hset, ApmGraphInfo.setSubGraphNode]
  split_ifs with hid
  · rw [hid, find?_updateFirst (by simp), hold, Option.map_some]
  · refine find?_updateFirst_of_not ?_
    intro sg hsg
    rw [beq_iff_eq] at hsg
    simp only [beq_iff_eq, hsg]
    exact ⟨fun h => hid h.symm, fun h => hid h.symm⟩

lemma applyCheck_of_eq {check : SgCheck}
    (hold : st.info.getSubGraphNode check.subGraph.subGraphId = some check.subGraph)
    (hfreed : check.linksFreed = false) : (st.applyCheck sim client check).info = st.info := by
  have hset : st.info.setSubGraphNode check.subGraph = st.info := by
    unfold ApmGraphInfo.setSubGraphNode
    rw [(updateFirst_eq_self_iff hold).mpr rfl]
  simp [GmCmdState.applyCheck, hset, hfreed]

/-- **An accepted entry.** The check passes, decides as it would have before the command, and
shifts the contexts of this sub-graph only. -/
lemma Shifted.check (h : Shifted sim client op st₀ seen st)
    (haccepts : Accepts sim client op st₀ seen entry) :
    ∃ check sg₀, st₀.info.getSubGraphNode entry.subGraphId = some sg₀ ∧
      st.info.getSubGraphNode entry.subGraphId ≠ none ∧
      checkSgStateAndUpdateSendToSeqncr sim client op
        (st.info.getSubGraphNode entry.subGraphId) = .ok check ∧
      (check.seqEntryReqd = true ↔ ToSequencer sim client op sg₀) ∧
      Shifted sim client op st₀ (seen ++ [entry.subGraphId]) (st.applyCheck sim client check) ∧
      (IdleEntry sim client op st₀ entry → (st.applyCheck sim client check).info = st.info) := by
  obtain ⟨sg₀, hget₀, hnot, hspent⟩ := haccepts
  have hid₀ : sg₀.subGraphId = entry.subGraphId := by
    have := find?_some hget₀
    simpa using this
  -- the sub-graph as it is now, and what the check makes of it
  obtain ⟨sg, check, hget, hcheck, hmoved, hseq, hidle⟩ : ∃ sg check,
      st.info.getSubGraphNode entry.subGraphId = some sg ∧
      checkSgStateAndUpdateSendToSeqncr sim client op (some sg) = .ok check ∧
      Moved sim client op sg₀ check.subGraph ∧
      (check.seqEntryReqd = true ↔ ToSequencer sim client op sg₀) ∧
      (IdleFor sim client op sg₀ → check.subGraph = sg ∧ check.linksFreed = false) := by
    by_cases hseen : entry.subGraphId ∈ seen
    · obtain ⟨sg₁, sg, hget₁, hget, _, hmoved⟩ := h.moved _ hseen
      obtain rfl := Option.some.inj (hget₁.symm.trans hget₀)
      obtain ⟨check, hcheck, hmoved', hseq, hfreed⟩ := hmoved.check hnot (hspent hseen)
      refine ⟨sg, check, hget, hcheck, hmoved', hseq, fun hidle => ⟨?_, hfreed⟩⟩
      rw [hmoved'.eq_of_idle hidle, hmoved.eq_of_idle hidle]
    · obtain ⟨check, hcheck, hmoved, hseq, hfreed⟩ := check_of_not_refused hnot
      refine ⟨sg₀, check, (h.fresh _ hseen).trans hget₀, hcheck, hmoved, hseq, fun hidle => ?_⟩
      refine ⟨hmoved.eq_of_idle hidle, eq_false_of_ne_true fun hf => ?_⟩
      obtain ⟨hop, hleave⟩ := hfreed.mp hf
      exact (hidle.resolve_left hop).2.1 hleave
  have hid : check.subGraph.subGraphId = entry.subGraphId := hmoved.subGraphId.trans hid₀
  have hnode := getSubGraphNode_applyCheck sim client (hid ▸ hget)
  rw [hid] at hnode
  refine ⟨check, sg₀, hget₀, by simp [hget], by rw [hget]; exact hcheck, hseq, ⟨?_, ?_⟩, ?_⟩
  · intro id hid'
    simp only [mem_append, mem_singleton, not_or] at hid'
    rw [hnode, if_neg hid'.2]
    exact h.fresh id hid'.1
  · intro id hid'
    by_cases heq : id = entry.subGraphId
    · rw [hnode, if_pos heq, heq]
      exact ⟨sg₀, check.subGraph, hget₀, rfl, hnot, hmoved⟩
    · have hseen : id ∈ seen := by simpa [heq] using hid'
      rw [hnode, if_neg heq]
      exact h.moved id hseen
  · rintro ⟨sg₁, hget₁, hidle₁⟩
    obtain rfl := Option.some.inj (hget₁.symm.trans hget₀)
    obtain ⟨hsame, hfreed⟩ := hidle hidle₁
    refine applyCheck_of_eq ?_ hfreed
    rw [hid, hget, hsame]

/-- **A refused entry.** The check fails. -/
lemma Shifted.check_error (h : Shifted sim client op st₀ seen st)
    (hdistinct : ∀ sg ∈ st₀.info.subGraphs,
      AtMostOne (checkClientAndDomain sim client) sg.clients.contexts)
    (hnot : ¬ Accepts sim client op st₀ seen entry) :
    checkSgStateAndUpdateSendToSeqncr sim client op
      (st.info.getSubGraphNode entry.subGraphId) = .error .efailed := by
  by_cases hseen : entry.subGraphId ∈ seen
  · obtain ⟨sg₀, sg, hget₀, hget, hr, hmoved⟩ := h.moved _ hseen
    rw [hget]
    have hspent : Spent sim client op sg₀ := by
      by_contra hspent
      exact hnot ⟨sg₀, hget₀, hr, fun _ => hspent⟩
    have hone := hdistinct sg₀ (mem_of_find?_eq_some hget₀)
    exact check_eq_error_of_refused (hmoved.refused_of_spent hone hr hspent)
  · rw [h.fresh _ hseen]
    cases hget₀ : st₀.info.getSubGraphNode entry.subGraphId with
    | none => rfl
    | some sg₀ =>
      refine check_eq_error_of_refused ?_
      by_contra hr
      exact hnot ⟨sg₀, hget₀, hr, fun hs => absurd hs hseen⟩

/-! ## The loop -/

open GmCmdState

/-- The sub-graph is put on the list of the sequencer exactly when it is listable. -/
lemma searchAndAddReg_isSome_iff (hreg : Registered sim client op st₀ seen st) {sg₀ : SubGraph}
    (hget : st₀.info.getSubGraphNode entry.subGraphId = some sg₀)
    (hseq : ToSequencer sim client op sg₀) :
    (∃ listed, st.searchAndAddReg entry = some listed) ↔ Listable sim client op st₀ seen entry := by
  have hmem : entry.subGraphId ∈ st.regSgList ↔
      entry.subGraphId ∈ st₀.regSgList ∨ entry.subGraphId ∈ seen := by
    rw [hreg]
    refine or_congr_right (and_iff_left ⟨sg₀, hget, hseq⟩)
  have hlist : Listable sim client op st₀ seen entry ↔
      entry.subGraphId ∈ st.regSgList ∨ entry.nodeAllocated = true := by
    rw [hmem, or_assoc]
    constructor
    · intro h
      exact h sg₀ hget hseq
    · intro h _ _ _
      exact h
  rw [hlist]
  unfold searchAndAddReg
  by_cases hin : entry.subGraphId ∈ st.regSgList
  · simp [hin]
  · by_cases halloc : entry.nodeAllocated = true
    · simp [hin, halloc]
    · simp [hin, halloc]

lemma mem_searchAndAddReg {listed : GmCmdState} (h : st.searchAndAddReg entry = some listed) :
    listed.info = st.info ∧
      ∀ id, id ∈ listed.regSgList ↔ id ∈ st.regSgList ∨ id = entry.subGraphId := by
  unfold searchAndAddReg at h
  split_ifs at h with hin
  · obtain rfl := Option.some.inj h
    refine ⟨rfl, fun id => ⟨.inl, ?_⟩⟩
    rintro (hid | rfl)
    · exact hid
    · exact hin
  · obtain rfl := Option.some.inj h
    exact ⟨rfl, fun id => by simp⟩

lemma applyCheck_regSgList (sim : Bool) (client : Client) (st : GmCmdState) (check : SgCheck) :
    (st.applyCheck sim client check).regSgList = st.regSgList := by
  unfold applyCheck
  split_ifs <;> rfl

lemma Shifted.congr {st' : GmCmdState} (h : Shifted sim client op st₀ seen st)
    (hinfo : st'.info = st.info) : Shifted sim client op st₀ seen st' := by
  refine ⟨?_, ?_⟩
  · rw [hinfo]
    exact h.fresh
  · rw [hinfo]
    exact h.moved

section

variable (hshift : Shifted sim client op st₀ seen st) (hreg : Registered sim client op st₀ seen st)
include hshift hreg

/-- **An admitted entry.** The loop goes on. -/
lemma loop_of_admits (h : Admits sim client op st₀ seen entry) (found : Bool) (result : ArResult) :
    ∃ found' st', (∀ rest, validateSgLoop sim client op (entry :: rest) found result st =
        validateSgLoop sim client op rest found' .eok st') ∧
      Shifted sim client op st₀ (seen ++ [entry.subGraphId]) st' ∧
      Registered sim client op st₀ (seen ++ [entry.subGraphId]) st' ∧
      (found' = true ∨ st'.regSgList.length ≠ 0) ∧
      (IdleEntry sim client op st₀ entry → st'.info = st.info) := by
  obtain ⟨check, sg₀, hget₀, hsome, hcheck, hseq, hshift', hidle⟩ := hshift.check h.1
  have hregs := applyCheck_regSgList sim client st check
  cases hbool : check.seqEntryReqd with
  | true =>
    have hto := hseq.mp hbool
    have hreg' : Registered sim client op st₀ seen (st.applyCheck sim client check) := by
      intro id
      rw [hregs]
      exact hreg id
    obtain ⟨listed, hlisted⟩ := (searchAndAddReg_isSome_iff hreg' hget₀ hto).mpr h.2
    obtain ⟨hinfo, hmem⟩ := mem_searchAndAddReg hlisted
    refine ⟨found, listed, ?_, hshift'.congr hinfo, ?_, .inr ?_, fun hi => hinfo.trans (hidle hi)⟩
    · intro rest
      simp [validateSgLoop, hsome, hcheck, hbool, hlisted]
    · intro id
      rw [hmem, hreg' id]
      constructor
      · rintro ((hold | ⟨hseen, hex⟩) | rfl)
        · exact .inl hold
        · exact .inr ⟨mem_append_left _ hseen, hex⟩
        · exact .inr ⟨by simp, sg₀, hget₀, hto⟩
      · rintro (hold | ⟨hseen, hex⟩)
        · exact .inl (.inl hold)
        · rcases mem_append.mp hseen with hseen | hlast
          · exact .inl (.inr ⟨hseen, hex⟩)
          · exact .inr (mem_singleton.mp hlast)
    · have : entry.subGraphId ∈ listed.regSgList := (hmem _).mpr (.inr rfl)
      exact (length_pos_of_mem this).ne'
  | false =>
    refine ⟨true, st.applyCheck sim client check, ?_, hshift', ?_, .inl rfl, hidle⟩
    · intro rest
      simp [validateSgLoop, hsome, hcheck, hbool]
    · intro id
      rw [hregs, hreg id]
      refine or_congr_right ⟨fun ⟨hseen, hex⟩ => ⟨mem_append_left _ hseen, hex⟩, ?_⟩
      rintro ⟨hseen, hex⟩
      rcases mem_append.mp hseen with hseen | hlast
      · exact ⟨hseen, hex⟩
      · -- this sub-graph was not put on the list
        obtain ⟨sg₁, hget₁, hto⟩ := hex
        rw [mem_singleton.mp hlast] at hget₁
        obtain rfl := Option.some.inj (hget₁.symm.trans hget₀)
        rw [hseq.mpr hto] at hbool
        cases hbool

/-- **An entry that is not admitted.** The loop ends with an error; when the check had
passed, the contexts of this sub-graph have been shifted as well. -/
lemma loop_of_not_admits (hdistinct : ∀ sg ∈ st₀.info.subGraphs,
      AtMostOne (checkClientAndDomain sim client) sg.clients.contexts)
    (h : ¬ Admits sim client op st₀ seen entry) (rest : List SgEntry) (found : Bool)
    (result : ArResult) :
    ∃ r st', validateSgLoop sim client op (entry :: rest) found result st = (r, st') ∧ r ≠ .eok ∧
      (¬ Accepts sim client op st₀ seen entry → st' = st) ∧
      (Accepts sim client op st₀ seen entry →
        Shifted sim client op st₀ (seen ++ [entry.subGraphId]) st' ∧
        (IdleEntry sim client op st₀ entry → st'.info = st.info)) := by
  by_cases haccepts : Accepts sim client op st₀ seen entry
  · obtain ⟨check, sg₀, hget₀, hsome, hcheck, hseq, hshift', hidle⟩ := hshift.check haccepts
    have hnot : ¬ Listable sim client op st₀ seen entry := fun hl => h ⟨haccepts, hl⟩
    have hto : ToSequencer sim client op sg₀ := by
      by_contra hto
      refine hnot fun sg hget hto' => absurd hto' ?_
      obtain rfl := Option.some.inj (hget.symm.trans hget₀)
      exact hto
    have hreg' : Registered sim client op st₀ seen (st.applyCheck sim client check) := by
      intro id
      rw [applyCheck_regSgList]
      exact hreg id
    have hnone : (st.applyCheck sim client check).searchAndAddReg entry = none := by
      rw [← Option.not_isSome_iff_eq_none, Option.isSome_iff_exists]
      exact fun hex => hnot ((searchAndAddReg_isSome_iff hreg' hget₀ hto).mp hex)
    refine ⟨.enomemory, st.applyCheck sim client check, ?_, by simp,
      fun hna => absurd haccepts hna, fun _ => ⟨hshift', hidle⟩⟩
    simp [validateSgLoop, hsome, hcheck, hseq.mpr hto, hnone]
  · have hcheck := hshift.check_error hdistinct haccepts
    refine ⟨.efailed, st, ?_, by simp, fun _ => rfl, fun ha => absurd ha haccepts⟩
    by_cases hsome : st.info.getSubGraphNode entry.subGraphId = none
    · rw [hsome] at hcheck
      simp only [validateSgLoop, hsome, hcheck, if_true]
      split_ifs <;> rfl
    · simp [validateSgLoop, hsome, hcheck]

end

lemma AllAdmitted.of_append {passed rest : List SgEntry}
    (h : AllAdmitted sim client op st₀ (passed ++ rest)) :
    AllAdmitted sim client op st₀ passed := by
  intro before entry after hsplit
  refine h before entry (after ++ rest) ?_
  rw [hsplit, append_assoc, cons_append]

/-- **Admitted entries.** The loop reaches the entries after them. -/
lemma loop_of_allAdmitted (passed : List SgEntry) (h : AllAdmitted sim client op st₀ passed) :
    ∃ found result st', (∀ rest, validateSgLoop sim client op (passed ++ rest) false .eok st₀ =
        validateSgLoop sim client op rest found result st') ∧
      Shifted sim client op st₀ (passed.map SgEntry.subGraphId) st' ∧
      Registered sim client op st₀ (passed.map SgEntry.subGraphId) st' ∧
      (passed ≠ [] → result = .eok ∧ (found = true ∨ st'.regSgList.length ≠ 0)) ∧
      ((∀ e ∈ passed, IdleEntry sim client op st₀ e) → st'.info = st₀.info) := by
  induction passed using reverseRecOn with
  | nil =>
    refine ⟨false, .eok, st₀, fun rest => rfl, ⟨fun id _ => rfl, by simp⟩, ?_, by simp, by simp⟩
    intro id
    simp
  | append_singleton passed entry ih =>
    obtain ⟨found, result, st, hloop, hshift, hreg, -, hidle⟩ := ih h.of_append
    have hadmits := h passed entry [] rfl
    obtain ⟨found', st', hloop', hshift', hreg', hdone, hidle'⟩ :=
      loop_of_admits hshift hreg hadmits found result
    refine ⟨found', .eok, st', ?_, ?_, ?_, fun _ => ⟨rfl, hdone⟩, ?_⟩
    · intro rest
      rw [append_assoc, hloop, singleton_append, hloop']
    · simpa using hshift'
    · simpa using hreg'
    · intro hall
      have hlast := hall entry (by simp)
      rw [hidle' hlast]
      exact hidle fun e he => hall e (mem_append_left _ he)

lemma Shifted.info_ne (h : Shifted sim client op st₀ seen st) {id : ℕ} (hid : id ∈ seen)
    (hidle : ¬ ∃ sg, st₀.info.getSubGraphNode id = some sg ∧ IdleFor sim client op sg) :
    st.info ≠ st₀.info := by
  intro heq
  obtain ⟨sg₀, sg, hget₀, hget, hnot, hmoved⟩ := h.moved id hid
  rw [heq, hget₀] at hget
  have hne := hmoved.ne_of_not_idle hnot fun hi => hidle ⟨sg₀, hget₀, hi⟩
  exact hne (Option.some.inj hget).symm

/-- **A refused command.** `apm_gm_cmd_validate_sg_list` leaves every client context and every
link reference as it was when it returns an error exactly when the sub-graphs listed before
the one that is refused are passed over (and this one too, when it is refused only because
its list node could not be allocated). -/
theorem gmCmdValidateSgList_restores_iff (sim : Bool) (client : Client) (op : GmOpcode)
    (st₀ : GmCmdState)
    (hdistinct : ∀ sg ∈ st₀.info.subGraphs,
      AtMostOne (checkClientAndDomain sim client) sg.clients.contexts)
    (sgIdList : Option (List SgEntry)) :
    ((gmCmdValidateSgList sim client op st₀ sgIdList).1 ≠ .eok →
      (gmCmdValidateSgList sim client op st₀ sgIdList).2.info = st₀.info) ↔
    ∀ entries ∈ sgIdList, FailsClean sim client op st₀ entries := by
  rcases sgIdList with _ | _ | ⟨first, others⟩
  · exact iff_of_true (fun _ => rfl) (by simp)
  · refine iff_of_true (fun _ => rfl) ?_
    intro entries hentries passed entry rest hsplit
    obtain rfl := Option.mem_some.mp hentries
    simp at hsplit
  have hdef : gmCmdValidateSgList sim client op st₀ (some (first :: others)) =
      validateSgLoop sim client op (first :: others) false .eok st₀ := rfl
  simp only [Option.mem_some, forall_eq']
  rw [hdef]
  generalize hentries : first :: others = entries
  have hne : entries ≠ [] := by simp [← hentries]
  by_cases hall : AllAdmitted sim client op st₀ entries
  · -- the command is accepted
    obtain ⟨found, result, st, hloop, -, -, hdone, -⟩ := loop_of_allAdmitted entries hall
    obtain ⟨rfl, hany⟩ := hdone hne
    have hok : (validateSgLoop sim client op entries false .eok st₀).1 = .eok := by
      have hend := hloop []
      rw [append_nil] at hend
      rw [hend, validateSgLoop]
      split_ifs with hnone
      · rcases hany with hfound | hreg
        · rw [hfound] at hnone
          simp at hnone
        · exact absurd hnone.1 hreg
      · rfl
    refine iff_of_true (fun herr => absurd hok herr) ?_
    intro passed entry rest hsplit _ hnot
    exact absurd (hall passed entry rest hsplit) hnot
  · obtain ⟨passed, entry, rest, hsplit, hpassed, hnot⟩ := exists_first_split entries hall
    obtain ⟨found, result, st, hloop, hshift, hreg, -, hidle⟩ :=
      loop_of_allAdmitted passed hpassed
    obtain ⟨r, st', hlast, hr, hrefused, haccepted⟩ :=
      loop_of_not_admits hshift hreg hdistinct hnot rest found result
    have hresult : validateSgLoop sim client op entries false .eok st₀ = (r, st') := by
      rw [hsplit, hloop, hlast]
    rw [hresult]
    constructor
    · -- an entry that is not passed over shows in the end
      intro hsame passed₂ entry₂ rest₂ hsplit₂ hpassed₂ hnot₂
      have hinfo : st'.info = st₀.info := hsame hr
      obtain ⟨found₂, result₂, st₂, hloop₂, hshift₂, hreg₂, -, -⟩ :=
        loop_of_allAdmitted passed₂ hpassed₂
      obtain ⟨r₂, st₂', hlast₂, -, hrefused₂, haccepted₂⟩ :=
        loop_of_not_admits hshift₂ hreg₂ hdistinct hnot₂ rest₂ found₂ result₂
      have hend : (r₂, st₂') = (r, st') := by
        rw [← hresult, hsplit₂, hloop₂, hlast₂]
      obtain ⟨-, rfl⟩ := Prod.mk.inj hend
      have hmem : ∀ e ∈ passed₂, e.subGraphId ∈ passed₂.map SgEntry.subGraphId :=
        fun e he => List.mem_map_of_mem he
      by_cases hacc : Accepts sim client op st₀ (passed₂.map SgEntry.subGraphId) entry₂
      · obtain ⟨hshift', -⟩ := haccepted₂ hacc
        constructor
        · intro e he
          by_contra hi
          exact hshift'.info_ne (mem_append_left _ (hmem e he)) hi hinfo
        · intro _
          by_contra hi
          exact hshift'.info_ne (by simp) hi hinfo
      · refine ⟨?_, fun ha => absurd ha hacc⟩
        intro e he
        by_contra hi
        rw [hrefused₂ hacc] at hinfo
        exact hshift₂.info_ne (hmem e he) hi hinfo
    · intro hclean _
      obtain ⟨hbefore, hhere⟩ := hclean passed entry rest hsplit hpassed hnot
      by_cases hacc : Accepts sim client op st₀ (passed.map SgEntry.subGraphId) entry
      · rw [(haccepted hacc).2 (hhere hacc)]
        exact hidle hbefore
      · rw [hrefused hacc]
        exact hidle hbefore

/-- One stopped sub-graph, opened by the client with port 1 in domain 1. -/
def oneSubGraph : GmCmdState where
  info :=
    { subGraphs :=
        [{ subGraphId := 0xA1
           voiceCall := false
           state := .stopped
           clients := ⟨[ClientList.openedContext ⟨1, 1⟩], 1⟩ }]
      conns := []
      ctrlLinks := [] }
  regSgList := []

/-- Two sub-graphs that both clients have opened and started, the second one of a voice call. -/
def twoSharedSubGraphs : GmCmdState where
  info :=
    { subGraphs := [(0xA1, false), (0xA2, true)].map fun sg =>
        { subGraphId := sg.1
          voiceCall := sg.2
          state := .started
          clients := ⟨[⟨1, 1⟩, ⟨2, 2⟩].map fun client =>
            { ClientList.openedContext client with currState := .started }, 2⟩ }
      conns := []
      ctrlLinks := [] }
  regSgList := []

/-- Both of them, and one that does not exist. -/
def sharedThenUnknown : List SgEntry := [⟨0xA1, true⟩, ⟨0xA2, true⟩, ⟨0xB2, true⟩]

/-- A flush passes over both sub-graphs and fails at the one that does not exist. -/
theorem gmCmdValidateSgList_restores_iff_unknown :
    (gmCmdValidateSgList false ⟨1, 1⟩ .flush twoSharedSubGraphs (some sharedThenUnknown)).1 ≠ .eok ∧
      (((gmCmdValidateSgList false ⟨1, 1⟩ .flush twoSharedSubGraphs
          (some sharedThenUnknown)).1 ≠ .eok →
        (gmCmdValidateSgList false ⟨1, 1⟩ .flush twoSharedSubGraphs
          (some sharedThenUnknown)).2.info = twoSharedSubGraphs.info) ↔
      ∀ entries ∈ some sharedThenUnknown,
        FailsClean false ⟨1, 1⟩ .flush twoSharedSubGraphs entries) := by
  have hdistinct : ∀ sg ∈ twoSharedSubGraphs.info.subGraphs,
      AtMostOne (checkClientAndDomain false ⟨1, 1⟩) sg.clients.contexts := by
    intro sg hsg
    obtain ⟨id, hid, rfl⟩ := mem_map.mp hsg
    refine pairwise_pair.mpr fun h => ?_
    exact absurd h.2 (by decide)
  exact ⟨by decide, gmCmdValidateSgList_restores_iff false ⟨1, 1⟩ .flush twoSharedSubGraphs
    hdistinct (some sharedThenUnknown)⟩

/-- The client starts its sub-graph and one that does not exist: the command is refused, but
the client is recorded as having started the first one. -/
theorem not_gmCmdValidateSgList_restores :
    ¬ ∀ (sim : Bool) (client : Client) (op : GmOpcode) (st₀ : GmCmdState)
      (sgIdList : Option (List SgEntry)),
      (∀ sg ∈ st₀.info.subGraphs, ∀ c, AtMostOne (checkClientAndDomain sim c)
        sg.clients.contexts) →
      (gmCmdValidateSgList sim client op st₀ sgIdList).1 ≠ .eok →
      (gmCmdValidateSgList sim client op st₀ sgIdList).2.info = st₀.info := by
  intro h
  have hdistinct : ∀ sg ∈ oneSubGraph.info.subGraphs, ∀ c,
      AtMostOne (checkClientAndDomain false c) sg.clients.contexts := by
    intro sg hsg c
    obtain rfl := mem_singleton.mp hsg
    exact pairwise_singleton _ _
  have hsame := h false ⟨1, 1⟩ .start oneSubGraph (some [⟨0xA1, true⟩, ⟨0xB2, true⟩]) hdistinct
    (by decide)
  revert hsame
  decide

end AudioReach
