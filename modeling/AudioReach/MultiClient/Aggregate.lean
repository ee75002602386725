import AudioReach.MultiClient.Model
import AudioReach.Library.Runs

/-!
# A sub-graph is never below what a client asked for

The life of one sub-graph shared by several clients: clients open it and send
graph-management commands, and the state of the sub-graph follows the commands that the
multi-client check lets through.  The question is whether the state of the sub-graph stays
at or above the state each client asked for last.

A command that lowers the state is let through when the aggregate over *the other clients*
allows it.  The aggregate leaves out every context with the port number of the sender, also
one of a client in another domain, and where the sender is looked up by its domain alone
the context left out may be another client's.  Such a client is overlooked: `PortsApart`
says when this makes no difference, and `covered_along_iff` that it makes none exactly then.
-/

namespace AudioReach

open AudioReach.Library
open List Option

/-! ## The sub-graph and its clients as a component -/

/-- What happens to a sub-graph: a client opens it (the allocation of its context may fail)
or sends a graph-management command for it. -/
inductive SgCall
  | openSg (client : Client) (allocated : Bool)
  | manage (op : GmOpcode) (client : Client)
  deriving DecidableEq, Repr

section

variable (sim : Bool) (subGraphId : ℕ)

/-- `apm_multi_client_parse_sg_list` for a sub-graph that exists and
`apm_multi_client_add_sg_client_context`; the first client creates the sub-graph, which is
stopped once it is open. -/
def openSubGraph (client : Client) (allocated : Bool) : Option SubGraph → Option SubGraph
  | none =>
    if allocated then
      some { subGraphId := subGraphId
             voiceCall := false
             state := .stopped
             clients := ClientList.addContext (ClientList.openedContext client) ⟨[], 0⟩ }
    else none
  | some sg =>
    if sg.clients.checkDuplicateClient sim client ≠ .eok then some sg
    else if allocated then
      some { sg with clients := sg.clients.addContext (ClientList.openedContext client) }
    else some sg

/-- The sequencer carries the command out.  A close ends with the node freed. -/
def SubGraph.sequenced (op : GmOpcode) (sg : SubGraph) : Option SubGraph :=
  match op with
  | .flush => some sg
  | .close => none
  | .closeAll => none
  | .prepare | .start | .stop | .suspend => some { sg with state := op.translatedSgState }

/-- A graph-management command for the sub-graph. -/
def manageSubGraph (op : GmOpcode) (client : Client) (sg : Option SubGraph) : Option SubGraph :=
  match checkSgStateAndUpdateSendToSeqncr sim client op sg with
  | .error _ => sg
  | .ok check =>
    if check.seqEntryReqd then check.subGraph.sequenced op else some check.subGraph

/-- One call; `none` is a sub-graph that nobody has open. -/
def sgStep (sg : Option SubGraph) : SgCall → Option SubGraph
  | .openSg client allocated => openSubGraph sim subGraphId client allocated sg
  | .manage op client => manageSubGraph sim op client sg

/-- The command is let through to the sequencer. -/
def letThrough (op : GmOpcode) (client : Client) (sg : Option SubGraph) : Bool :=
  match checkSgStateAndUpdateSendToSeqncr sim client op sg with
  | .error _ => false
  | .ok check => check.seqEntryReqd

end

/-- The state of the sub-graph is at least what every client asked for. -/
def Covered (sg : Option SubGraph) : Prop :=
  ∀ s ∈ sg, ∀ ctx ∈ s.clients.contexts, ctx.currState ≤ s.state

/-- The commands that close the sub-graph. -/
def GmOpcode.closes (op : GmOpcode) : Bool :=
  op == .close || op == .closeAll

/-- The context is that of the client, who is identified by its port and its domain. -/
def ClientContext.IsOf (client : Client) (ctx : ClientContext) : Prop :=
  ctx.clientPortId = client.srcPort ∧ ctx.clientDomainId = client.srcDomainId

/-- A close is let through only when no other client is recorded above `INVALID`. -/
def CloseAlone (sim : Bool) (sg : Option SubGraph) : SgCall → Prop
  | .openSg _ _ => True
  | .manage op client =>
    op.closes → letThrough sim op client sg →
      ∀ s ∈ sg, ∀ ctx ∈ s.clients.contexts, ¬ ctx.IsOf client → ctx.currState ≤ .invalid

/-- When a command lowers the state, a client of another port is above the commanded state.
Or the clients that share the sender's port number are not, and the context that a close
finds is the sender's own, or not above `INVALID`. -/
def PortsApart (sim : Bool) (sg : Option SubGraph) : SgCall → Prop
  | .openSg _ _ => True
  | .manage op client =>
    op ≠ .flush → ∀ s ∈ sg, ∀ node ∈ s.clients.getClientNode sim client,
      op.translatedSgState < s.state → (∃ ctx ∈ s.clients.contexts,
          ctx.clientPortId ≠ node.clientPortId ∧ op.translatedSgState < ctx.currState) ∨
        (∀ ctx ∈ s.clients.contexts, ¬ checkClientAndDomain sim client ctx →
          ctx.clientPortId = node.clientPortId → ctx.currState ≤ op.translatedSgState) ∧
        (op.closes → node.IsOf client ∨ node.currState ≤ .invalid)

instance (sg : Option SubGraph) : Decidable (Covered sg) :=
  inferInstanceAs (Decidable (∀ s ∈ sg, ∀ ctx ∈ s.clients.contexts, ctx.currState ≤ s.state))

/-! ## The aggregate -/

/-- The aggregate is below a state exactly when all contexts of other ports are. -/
lemma ClientList.aggregateState_le_iff {node : ClientContext} {l : ClientList} {s : SgState} :
    l.aggregateState node ≤ s ↔
      ∀ ctx ∈ l.contexts, ctx.clientPortId ≠ node.clientPortId → ctx.currState ≤ s := by
  -- the fold may start from any state
  have hfold : ∀ (contexts : List ClientContext) (first : SgState), contexts.foldl (fun state ctx =>
        if ctx.clientPortId ≠ node.clientPortId then max state ctx.currState else state)
        first ≤ s ↔
      first ≤ s ∧ ∀ ctx ∈ contexts, ctx.clientPortId ≠ node.clientPortId → ctx.currState ≤ s := by
    intro contexts
    induction contexts with
    | nil => simp
    | cons ctx contexts ih =>
      intro first
      rw [foldl_cons, ih, forall_mem_cons]
      by_cases hport : ctx.clientPortId = node.clientPortId
      · simp [hport]
      · simp [hport, and_assoc]
  unfold ClientList.aggregateState
  rw [hfold]
  simp [SgState.invalid_le]

/-! ## What a command does -/

variable {sim : Bool} {subGraphId : ℕ}

/-- The check lets the command through untouched. -/
def Bypassed (op : GmOpcode) (sg : SubGraph) : Prop :=
  sg.voiceCall = true ∨ op = .flush

/-- The sub-graph with the sender's context brought up to date. -/
def SubGraph.updated (sim : Bool) (client : Client) (op : GmOpcode) (sg : SubGraph) : SubGraph :=
  { sg with clients := sg.clients.setState sim client op.translatedSgState }

/-- The ways in which the check decides about a sub-graph. -/
inductive Decided (sim : Bool) (client : Client) (op : GmOpcode) (sg : SubGraph) :
    Except ArResult SgCheck → Prop
  /-- A flush, or a voice-call sub-graph. -/
  | bypassed (h : Bypassed op sg) : Decided sim client op sg (.ok ⟨true, sg, false⟩)
  /-- The sender is not a client of the sub-graph. -/
  | alien (hop : ¬ Bypassed op sg) (h : sg.clients.getClientNode sim client = none) :
      Decided sim client op sg (.error .efailed)
  /-- The sub-graph has the commanded state, and the sender asked for it before. -/
  | already (hop : ¬ Bypassed op sg) (node : ClientContext)
      (hnode : sg.clients.getClientNode sim client = some node)
      (h : op.translatedSgState = sg.state) (hcurr : node.currState = op.translatedSgState) :
      Decided sim client op sg (.error .efailed)
  /-- The command raises the state. -/
  | raised (hop : ¬ Bypassed op sg) (node : ClientContext)
      (hnode : sg.clients.getClientNode sim client = some node)
      (h : sg.state < op.translatedSgState) :
      Decided sim client op sg (.ok ⟨true, sg.updated sim client op, false⟩)
  /-- The command lowers the state and the aggregate allows it. -/
  | lowered (hop : ¬ Bypassed op sg) (node : ClientContext)
      (hnode : sg.clients.getClientNode sim client = some node)
      (h : op.translatedSgState < sg.state)
      (hagg : sg.clients.aggregateState node ≤ op.translatedSgState) :
      Decided sim client op sg (.ok ⟨true, sg.updated sim client op, false⟩)
  /-- The command lowers the state and another client keeps it up. -/
  | held (hop : ¬ Bypassed op sg) (node : ClientContext)
      (hnode : sg.clients.getClientNode sim client = some node)
      (h : op.translatedSgState < sg.state)
      (hagg : op.translatedSgState < sg.clients.aggregateState node) :
      Decided sim client op sg (.ok (settleCheck sim client op false (sg.updated sim client op)))
  /-- The sub-graph has the commanded state, and the sender did not ask for it before. -/
  | joined (hop : ¬ Bypassed op sg) (node : ClientContext)
      (hnode : sg.clients.getClientNode sim client = some node)
      (h : op.translatedSgState = sg.state) (hcurr : node.currState ≠ op.translatedSgState) :
      Decided sim client op sg (.ok (settleCheck sim client op false (sg.updated sim client op)))

/-- The check decides in one of these ways. -/
lemma decided_check (sim : Bool) (client : Client) (op : GmOpcode) (sg : SubGraph) :
    Decided sim client op sg (checkSgStateAndUpdateSendToSeqncr sim client op (some sg)) := by
  rw [checkSgStateAndUpdateSendToSeqncr]
  by_cases hvoice : sg.voiceCall = true
  · rw [if_pos hvoice]
    exact .bypassed (.inl hvoice)
  rw [if_neg hvoice]
  by_cases hflush : op = .flush
  · rw [if_pos hflush]
    exact .bypassed (.inr hflush)
  rw [if_neg hflush]
  have hop : ¬ Bypassed op sg := not_or.mpr ⟨hvoice, hflush⟩
  cases hnode : sg.clients.getClientNode sim client with
  | none => exact .alien hop hnode
  | some node =>
    dsimp only
    split_ifs with hup hdown hsame
    · exact .raised hop node hnode hup
    · by_cases hagg : sg.clients.aggregateState node ≤ op.translatedSgState
      · rw [decide_eq_true hagg]
        exact .lowered hop node hnode hdown hagg
      · rw [decide_eq_false hagg]
        exact .held hop node hnode hdown (not_le.mp hagg)
    · exact .already hop node hnode (le_antisymm (not_lt.mp hup) (not_lt.mp hdown)) hsame
    · exact .joined hop node hnode (le_antisymm (not_lt.mp hup) (not_lt.mp hdown)) hsame

@[simp] lemma settleCheck_false_seq (client : Client) (op : GmOpcode) (sg : SubGraph) :
    (settleCheck sim client op false sg).seqEntryReqd = false := by
  unfold settleCheck
  split_ifs <;> rfl

/-! ## What every call keeps -/

/-- A sub-graph as the code builds it: not a voice-call one, open, and with one context at
most for each sender. -/
structure Steady (sim : Bool) (sg : SubGraph) : Prop where
  notVoice : sg.voiceCall = false
  isOpen : .stopped ≤ sg.state
  distinct : ∀ client, AtMostOne (checkClientAndDomain sim client) sg.clients.contexts

variable {ctx : ClientContext} {sg : SubGraph} {client : Client} {op : GmOpcode} {state : SgState}

lemma checkClientAndDomain_trans {c d : Client}
    (h : checkClientAndDomain sim c (ClientList.openedContext d))
    (hctx : checkClientAndDomain sim c ctx) : checkClientAndDomain sim d ctx := by
  cases sim
  · simp_all [checkClientAndDomain, ClientList.openedContext]
  · simp_all [checkClientAndDomain, ClientList.openedContext]

section

variable (h : Steady sim sg)
include h

lemma Steady.updated (client : Client) (op : GmOpcode) : Steady sim (sg.updated sim client op) :=
  ⟨h.notVoice, h.isOpen, fun c => AtMostOne.updateFirst (h.distinct c) fun _ => rfl⟩

lemma Steady.freeClientContext (client : Client) :
    Steady sim { sg with clients := sg.clients.freeClientContext sim client } := by
  refine ⟨h.notVoice, h.isOpen, fun c => ?_⟩
  unfold ClientList.freeClientContext
  split_ifs
  · exact AtMostOne.eraseP (h.distinct c)
  · exact h.distinct c

lemma Steady.settled (client : Client) (op : GmOpcode) (seq : Bool) :
    Steady sim (settleCheck sim client op seq sg).subGraph := by
  unfold settleCheck
  split_ifs
  · exact h.freeClientContext client
  · exact h

lemma Steady.addContext (hnew : sg.clients.checkDuplicateClient sim client = .eok) :
    Steady sim { sg with clients := sg.clients.addContext (ClientList.openedContext client) } := by
  have hnone : ∀ ctx ∈ sg.clients.contexts, ¬ checkClientAndDomain sim client ctx := by
    intro ctx hctx hmatch
    have hany : sg.clients.contexts.any (checkClientAndDomain sim client) :=
      List.any_eq_true.mpr ⟨ctx, hctx, hmatch⟩
    simp [ClientList.checkDuplicateClient, hany] at hnew
  refine ⟨h.notVoice, h.isOpen, fun c => ?_⟩
  refine pairwise_append.mpr ⟨h.distinct c, pairwise_singleton _ _, ?_⟩
  rintro ctx hctx new hmem ⟨hmatch, hnewMatch⟩
  rw [mem_singleton] at hmem
  subst hmem
  exact hnone ctx hctx (checkClientAndDomain_trans hnewMatch hmatch)

lemma Steady.sequenced {s : SubGraph} (hs : s ∈ sg.sequenced op) : Steady sim s := by
  cases op
  case flush =>
    obtain rfl := mem_some.mp hs
    exact h
  case close => simp [SubGraph.sequenced] at hs
  case closeAll => simp [SubGraph.sequenced] at hs
  all_goals
    obtain rfl := mem_some.mp hs
    refine ⟨h.notVoice, ?_, h.distinct⟩
    simp only [GmOpcode.translatedSgState]
    decide

end

/-- Every call keeps the sub-graph as the code builds it. -/
lemma steady_sgStep (sg : Option SubGraph) (call : SgCall) (h : ∀ s ∈ sg, Steady sim s) :
    ∀ s ∈ sgStep sim subGraphId sg call, Steady sim s := by
  intro s hs
  cases call with
  | openSg client allocated =>
    cases sg with
    | none =>
      simp only [sgStep, openSubGraph] at hs
      split_ifs at hs
      · obtain rfl := mem_some.mp hs
        exact ⟨rfl, le_refl _, fun c => pairwise_singleton _ _⟩
      · simp at hs
    | some sg =>
      have hsg := h sg rfl
      simp only [sgStep, openSubGraph] at hs
      split_ifs at hs with hdup halloc
      · obtain rfl := mem_some.mp hs
        exact hsg
      · obtain rfl := mem_some.mp hs
        exact hsg.addContext (not_not.mp hdup)
      · obtain rfl := mem_some.mp hs
        exact hsg
  | manage op client =>
    cases sg with
    | none => simp [sgStep, manageSubGraph, checkSgStateAndUpdateSendToSeqncr] at hs
    | some sg =>
      have hsg := h sg rfl
      have hset := hsg.updated client op
      have hdecided := decided_check sim client op sg
      simp only [sgStep, manageSubGraph] at hs
      generalize checkSgStateAndUpdateSendToSeqncr sim client op (some sg) = decision
        at hs hdecided
      cases hdecided with
      | bypassed => exact hsg.sequenced hs
      | alien | already =>
        obtain rfl := mem_some.mp hs
        exact hsg
      | raised | lowered => exact hset.sequenced hs
      | held | joined =>
        simp only [settleCheck_false_seq, Bool.false_eq_true, if_false] at hs
        obtain rfl := mem_some.mp hs
        exact hset.settled client op false

/-! ## What keeps the sub-graph up -/

/-- The clients other than the sender are at most in state `state`. -/
def OthersBelow (sim : Bool) (client : Client) (state : SgState) (sg : SubGraph) : Prop :=
  ∀ ctx ∈ sg.clients.contexts, ¬ checkClientAndDomain sim client ctx → ctx.currState ≤ state

lemma Steady.mem_setState (h : Steady sim sg)
    (hctx : ctx ∈ (sg.clients.setState sim client state).contexts) :
    (ctx ∈ sg.clients.contexts ∧ ¬ checkClientAndDomain sim client ctx) ∨
      ctx.currState = state := by
  rcases AtMostOne.mem_updateFirst (h.distinct client) hctx with hmem | ⟨node, _, rfl⟩
  · exact .inl hmem
  · exact .inr rfl

lemma Steady.covered_setState_iff (h : Steady sim sg)
    {s : SubGraph} (hs : s.clients = sg.clients.setState sim client state)
    (hstate : state ≤ s.state) : Covered (some s) ↔ OthersBelow sim client s.state sg := by
  constructor
  · intro hcov ctx hctx hmatch
    refine hcov s rfl ctx ?_
    rw [hs]
    exact mem_updateFirst_of_not hctx hmatch
  · intro hothers t ht ctx hctx
    obtain rfl := mem_some.mp ht
    rw [hs] at hctx
    rcases h.mem_setState hctx with ⟨hmem, hmatch⟩ | hcurr
    · exact hothers ctx hmem hmatch
    · rw [hcurr]
      exact hstate

lemma Steady.sequenced_iff (h : Steady sim sg) (client : Client) (hop : op ≠ .flush) :
    Covered ((sg.updated sim client op).sequenced op) ∧
      (op.closes → OthersBelow sim client .invalid sg) ↔
    OthersBelow sim client op.translatedSgState sg := by
  have hcarried : ∀ state, Covered (some { sg with
      state := state
      clients := sg.clients.setState sim client state }) ↔ OthersBelow sim client state sg :=
    fun state => h.covered_setState_iff rfl (le_refl _)
  cases op
  case flush => exact absurd rfl hop
  case close => simp [SubGraph.sequenced, Covered, GmOpcode.closes, GmOpcode.translatedSgState]
  case closeAll => simp [SubGraph.sequenced, Covered, GmOpcode.closes, GmOpcode.translatedSgState]
  all_goals
    simp [SubGraph.sequenced, GmOpcode.closes, SubGraph.updated, GmOpcode.translatedSgState,
      hcarried]

lemma mem_settleCheck (h : ctx ∈ (settleCheck sim client op false sg).subGraph.clients.contexts) :
    ctx ∈ sg.clients.contexts := by
  unfold settleCheck ClientList.freeClientContext at h
  split_ifs at h
  · exact mem_of_mem_eraseP h
  · exact h
  · exact h

@[simp] lemma settleCheck_state (client : Client) (op : GmOpcode) (seq : Bool) (sg : SubGraph) :
    (settleCheck sim client op seq sg).subGraph.state = sg.state := by
  unfold settleCheck
  split_ifs <;> rfl

lemma Steady.covered_held (h : Steady sim sg) (hcov : Covered (some sg))
    (hstate : op.translatedSgState ≤ sg.state) :
    Covered (some (settleCheck sim client op false (sg.updated sim client op)).subGraph) := by
  intro s hs ctx hctx
  obtain rfl := mem_some.mp hs
  rw [settleCheck_state]
  rcases h.mem_setState (mem_settleCheck hctx) with ⟨hmem, _⟩ | hcurr
  · exact hcov sg rfl ctx hmem
  · rw [hcurr]
    exact hstate

lemma othersBelow_iff_of_aggregate (sim : Bool) (client : Client)
    {node : ClientContext} (hagg : sg.clients.aggregateState node ≤ state) :
    OthersBelow sim client state sg ↔
      ∀ ctx ∈ sg.clients.contexts, ¬ checkClientAndDomain sim client ctx →
        ctx.clientPortId = node.clientPortId → ctx.currState ≤ state := by
  rw [ClientList.aggregateState_le_iff] at hagg
  constructor
  · exact fun h ctx hctx hmatch _ => h ctx hctx hmatch
  · intro hsame ctx hctx hmatch
    by_cases hport : ctx.clientPortId = node.clientPortId
    · exact hsame ctx hctx hmatch hport
    · exact hagg ctx hctx hport

lemma checkClientAndDomain_of_isOf (sim : Bool) (h : ctx.IsOf client) :
    checkClientAndDomain sim client ctx := by
  cases sim
  · simpa [checkClientAndDomain] using h.2
  · simpa [checkClientAndDomain, ClientContext.IsOf] using h

/-- The contexts that are not the sender's are those of the others and, if it is not the
sender's, the one that the sender is taken for. -/
lemma Steady.below_iff (h : Steady sim sg) {node : ClientContext}
    (hnode : sg.clients.getClientNode sim client = some node) :
    (∀ ctx ∈ sg.clients.contexts, ¬ ctx.IsOf client → ctx.currState ≤ .invalid) ↔
      OthersBelow sim client .invalid sg ∧ (node.IsOf client ∨ node.currState ≤ .invalid) := by
  constructor
  · intro hall
    refine ⟨fun ctx hctx hmatch => hall ctx hctx fun hof => ?_, ?_⟩
    · exact hmatch (checkClientAndDomain_of_isOf sim hof)
    · exact or_iff_not_imp_left.mpr (hall node (mem_of_find?_eq_some hnode))
  · rintro ⟨hothers, hown⟩ ctx hctx hof
    have hself := (updateFirst_eq_self_iff (f := id) hnode).mpr rfl
    rcases (h.distinct client).mem_updateFirst (f := id) (hself.symm ▸ hctx) with
      ⟨hmem, hmatch⟩ | ⟨found, hfound, rfl⟩
    · exact hothers ctx hmem hmatch
    · obtain rfl := some.inj (hnode.symm.trans hfound)
      exact hown.resolve_left hof

/-- **One call.** From a covered sub-graph a call leads to a covered sub-graph and closes it
only when the others are done with it exactly when `PortsApart` holds. -/
theorem portsApart_iff (sg : Option SubGraph) (call : SgCall) (h : ∀ s ∈ sg, Steady sim s)
    (hcov : Covered sg) :
    PortsApart sim sg call ↔ Covered (sgStep sim subGraphId sg call) ∧ CloseAlone sim sg call := by
  cases call with
  | openSg client allocated =>
    refine iff_of_true trivial ⟨?_, trivial⟩
    intro s hs ctx hctx
    cases sg with
    | none =>
      simp only [sgStep, openSubGraph] at hs
      split_ifs at hs
      · obtain rfl := mem_some.mp hs
        obtain rfl := mem_singleton.mp hctx
        exact le_refl _
      · simp at hs
    | some sg =>
      simp only [sgStep, openSubGraph] at hs
      split_ifs at hs
      · obtain rfl := mem_some.mp hs
        exact hcov sg rfl ctx hctx
      · obtain rfl := mem_some.mp hs
        rcases mem_append.mp hctx with hold | hnew
        · exact hcov sg rfl ctx hold
        · obtain rfl := mem_singleton.mp hnew
          exact (h sg rfl).isOpen
      · obtain rfl := mem_some.mp hs
        exact hcov sg rfl ctx hctx
  | manage op client =>
    cases sg with
    | none =>
      refine iff_of_true (fun _ s hs => by simp at hs) ⟨?_, fun _ _ s hs => by simp at hs⟩
      simpa [sgStep, manageSubGraph, checkSgStateAndUpdateSendToSeqncr] using hcov
    | some sg =>
      have hsg := h sg rfl
      have hdecided := decided_check sim client op sg
      simp only [sgStep, manageSubGraph, PortsApart, CloseAlone, letThrough, mem_some, forall_eq']
      generalize checkSgStateAndUpdateSendToSeqncr sim client op (some sg) = decision
        at hdecided
      have hflush : ¬ Bypassed op sg → op ≠ .flush := fun h => (not_or.mp h).2
      cases hdecided with
      | bypassed h =>
        have hop : op = .flush := h.resolve_left (by simp [hsg.notVoice])
        simp [hop, SubGraph.sequenced, hcov, GmOpcode.closes]
      | alien hop hnone =>
        refine iff_of_true ?_ ⟨hcov, by simp⟩
        intro _ node hnode
        rw [hnone] at hnode
        cases hnode
      | already hop node hnode hsame _ =>
        exact iff_of_true (fun _ _ _ hlt => absurd hsame hlt.ne) ⟨hcov, by simp⟩
      | raised hop node hnode hup =>
        have hothers : OthersBelow sim client op.translatedSgState sg :=
          fun ctx hctx _ => (hcov sg rfl ctx hctx).trans hup.le
        refine iff_of_true (fun _ _ _ hlt => absurd hlt hup.not_gt) ?_
        have hopen : op.closes = false := by
          cases op <;> first | rfl | exact absurd hup (not_lt.mpr (SgState.invalid_le _))
        simpa [hopen] using ((hsg.sequenced_iff client (hflush hop)).mpr hothers).1
      | lowered hop node hnode hdown hagg =>
        have hports := othersBelow_iff_of_aggregate sim client hagg
        have hseq := hsg.sequenced_iff client (hflush hop)
        have hkept : ¬ ∃ ctx ∈ sg.clients.contexts, ctx.clientPortId ≠ node.clientPortId ∧
            op.translatedSgState < ctx.currState := by
          rintro ⟨ctx, hctx, hport, habove⟩
          exact habove.not_ge (ClientList.aggregateState_le_iff.mp hagg ctx hctx hport)
        simp only [hnode, mem_some, forall_eq', hdown, true_imp_iff, ne_eq, hflush hop,
          not_false_eq_true, hsg.below_iff hnode, if_true]
        rw [or_iff_right hkept, ← hports, ← hseq, and_assoc, ← imp_and]
      | held hop node hnode hdown hagg =>
        simp only [settleCheck_false_seq, Bool.false_eq_true, if_false, false_imp_iff,
          implies_true, and_true]
        refine iff_of_true ?_ (hsg.covered_held hcov hdown.le)
        intro _ node' hnode' _
        rw [hnode] at hnode'
        obtain rfl := mem_some.mp hnode'
        have habove := mt ClientList.aggregateState_le_iff.mpr (not_le.mpr hagg)
        push Not at habove
        exact .inl habove
      | joined hop node hnode hsame _ =>
        simp only [settleCheck_false_seq, Bool.false_eq_true, if_false, false_imp_iff,
          implies_true, and_true]
        exact iff_of_true (fun _ _ _ hlt => absurd hsame hlt.ne) (hsg.covered_held hcov hsame.le)

/-! ## Whole runs -/

/-- **A shared sub-graph over its whole life.** In a run of opens and commands of any number
of clients the sub-graph is at all times at least in the state every client asked for, and
closed only when the other clients are done with it, exactly when each command of the run
meets `PortsApart` in the state in which it arrives. -/
theorem covered_along_iff (sim : Bool) (subGraphId : ℕ) (calls : List SgCall) :
    Along (sgStep sim subGraphId) Covered none calls ∧
      Meets (sgStep sim subGraphId) (CloseAlone sim) none calls ↔
    Meets (sgStep sim subGraphId) (PortsApart sim) none calls := by
  symm
  refine meets_iff_along (J := fun sg => ∀ s ∈ sg, Steady sim s) ?_ ?_ ?_ ?_ calls
  · intro sg call h
    exact steady_sgStep sg call h
  · intro sg call h hcov
    exact portsApart_iff sg call h hcov
  · intro s hs
    simp at hs
  · intro s hs
    simp at hs

/-- Two clients with port 1, in the domains 1 and 2, start the sub-graph; when the first one
stops it, the stop is let through and the sub-graph is stopped under the second client. -/
theorem not_covered_along : ¬ ∀ (sim : Bool) (subGraphId : ℕ) (calls : List SgCall),
      Along (sgStep sim subGraphId) Covered none calls ∧
        Meets (sgStep sim subGraphId) (CloseAlone sim) none calls := by
  intro h
  have hrun := (h true 0xB1
    [.openSg ⟨1, 1⟩ true, .openSg ⟨1, 2⟩ true, .manage .start ⟨1, 1⟩, .manage .start ⟨1, 2⟩,
      .manage .stop ⟨1, 1⟩]).1.last
  revert hrun
  decide

end AudioReach
