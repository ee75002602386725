import Mathlib.Data.List.TakeWhile
import AudioReach.ContGraph.Partition

/-!
# The containers of a graph management command

A graph management command addresses sub-graphs, directly (`reg_sg_list_ptr`) or through a link
that is closed (`cont_port_hdl_sg_list_ptr`).  Its containers are visited one at a time:
`apm_set_up_graph_list_traversal` looks for the first container graph with a sub-graph of the
command, and `apm_gm_cmd_get_next_cont_in_sorted_list` goes on from the position that is kept in
the command, to the next container and from the last one of a graph to the next graph with a
sub-graph of the command.  When there is no such graph the search leaves the position at the graph
behind the last one, and its status is not looked at: all the graphs that follow are visited.

A pointer to a list node is the list from that node on.  `remaining` are the containers that are
still to come; each call gives the first of them.
-/

namespace AudioReach

open ContGraphInfo
open List

/-! ## The code -/

/-- The parts of `apm_cmd_ctrl_t` that the traversal uses. -/
structure GraphMgmtCmd where
  /-- `sg_list.reg_sg_list_ptr`. -/
  regSgList : List Addr
  /-- `sg_list.cont_port_hdl_sg_list_ptr`. -/
  contPortHdlSgList : List Addr
  /-- `cont_proc_info.curr_cont_graph_ptr`. -/
  currContGraph : List Addr
  /-- `cont_proc_info.curr_cont_node_ptr`. -/
  currContNode : List Addr

namespace GraphMgmtCmd

variable (info : ContGraphInfo) (subGraphId : Addr → ℕ) (cmd : GraphMgmtCmd)

/-- The loops over the sub-graphs of a graph: one of them has the identifier of a sub-graph of
the command. -/
def touches (g : Addr) : Bool :=
  (info.graphs g).subGraphList.any fun sg =>
    (cmd.regSgList.any fun gmSg => subGraphId gmSg == subGraphId sg) ||
      cmd.contPortHdlSgList.any fun portSg => subGraphId portSg == subGraphId sg

/-- `apm_gm_cmd_get_cont_graph_node`: the status, and `*graph_node_pptr`, which is only written
when a graph is found. -/
def getContGraphNode (graphs : List Addr) : ArResult × List Addr :=
  if graphs = [] then (.efailed, graphs)
  else
    match graphs.dropWhile fun g => !cmd.touches info subGraphId g with
    | [] => (.efailed, graphs)
    | found => (.eok, found)

/-- `apm_set_up_graph_list_traversal`. -/
def setUpGraphListTraversal : ArResult × GraphMgmtCmd :=
  if info.contGraphList = [] then (.efailed, cmd)
  else
    match cmd.getContGraphNode info subGraphId info.contGraphList with
    | (.eok, g :: rest) =>
      (.eok, { cmd with
        currContGraph := g :: rest
        currContNode := (info.graphs g).containerList })
    | _ => (.efailed, cmd)

/-- `apm_gm_cmd_get_next_cont_in_sorted_list`: the container that is given, if there is one, and
the command.  It follows the pointers of the command without a test: there is no result if one of
them is null. -/
def getNextContInSortedList : Option (Option Addr × GraphMgmtCmd) :=
  match cmd.currContNode with
  | [] => none
  | _ :: c :: conts => some (some c, { cmd with currContNode := c :: conts })
  | [_] =>
    match cmd.currContGraph with
    | [] => none
    | [_] => some (none, cmd)
    | _ :: next =>
      match (cmd.getContGraphNode info subGraphId next).2 with
      | [] => some (none, cmd)
      | g :: rest =>
        match (info.graphs g).containerList with
        | [] => some (none, { cmd with currContGraph := g :: rest })
        | c :: conts =>
          some (some c, { cmd with currContGraph := g :: rest, currContNode := c :: conts })

/-- The containers that the calls give until there is none, if they come to an end within so many
rounds. -/
def visitRest (info : ContGraphInfo) (subGraphId : Addr → ℕ) : ℕ → GraphMgmtCmd → Option (List Addr)
  | 0, _ => none
  | rounds + 1, cmd =>
    match cmd.getNextContInSortedList info subGraphId with
    | none => none
    | some (none, _) => some []
    | some (some c, cmd) => (visitRest info subGraphId rounds cmd).map (c :: ·)

/-- The containers that are visited for the command: the one at which the set-up leaves the
position, and those that the calls give; none if the set-up fails. -/
def visit (rounds : ℕ) : Option (List Addr) :=
  match cmd.setUpGraphListTraversal info subGraphId with
  | (.eok, cmd) =>
    match cmd.currContNode with
    | [] => none
    | c :: _ => (visitRest info subGraphId rounds cmd).map (c :: ·)
  | _ => some []

/-! ## What is to be visited -/

/-- The containers of the graphs that contain a sub-graph of the command, in list order. -/
def concerned : List Addr :=
  (info.contGraphList.filter (cmd.touches info subGraphId)).flatMap fun g =>
    (info.graphs g).containerList

/-- The traversal comes to an end, and visits exactly the containers that the command concerns,
each once. -/
def VisitsConcerned : Prop :=
  (∃ n, ∀ rounds ≥ n, cmd.visit info subGraphId rounds = some (cmd.concerned info subGraphId)) ∧
    (cmd.concerned info subGraphId).Nodup

end GraphMgmtCmd

/-! ## The graphs that are visited -/

section

variable {α : Type*} (touches : α → Bool)

/-- The graphs that are visited when the search goes on with the given ones: after a failure the
search has no effect. -/
def visitedFrom : List α → List α
  | [] => []
  | g :: rest =>
    if touches g then g :: visitedFrom rest
    else if rest.any touches then visitedFrom rest
    else g :: rest

variable {touches} {g : α} {gs : List α}

lemma visitedFrom_of_none (h : gs.any touches = false) : visitedFrom touches gs = gs := by
  cases gs with
  | nil => rfl
  | cons g rest =>
    rw [any_cons, Bool.or_eq_false_iff] at h
    rw [visitedFrom, h.1, h.2]
    rfl

lemma visitedFrom_of_found {rest : List α} (h : gs.dropWhile (!touches ·) = g :: rest) :
    visitedFrom touches gs = g :: visitedFrom touches rest := by
  induction gs with
  | nil => cases h
  | cons x gs ih =>
    by_cases hx : touches x
    · rw [dropWhile_cons_of_neg (by simp [hx])] at h
      obtain ⟨rfl, rfl⟩ := List.cons.inj h
      rw [visitedFrom, if_pos hx]
    · rw [dropWhile_cons_of_pos (by simp [hx])] at h
      have hany : gs.any touches = true := by
        by_contra hnone
        have hempty : gs.dropWhile (!touches ·) = [] := by
          simpa using hnone
        rw [hempty] at h
        cases h
      rw [visitedFrom, if_neg hx, if_pos hany]
      exact ih h

/-- **Behind the last graph that is touched.**  All the graphs there are visited too. -/
lemma visitedFrom_last {before after : List α} (hg : touches g = true)
    (hafter : after.any touches = false) :
    visitedFrom touches (before ++ g :: after) = before.filter touches ++ g :: after := by
  induction before with
  | nil => rw [nil_append, visitedFrom, if_pos hg, visitedFrom_of_none hafter]; rfl
  | cons x before ih =>
    have hany : (before ++ g :: after).any touches = true := by simp [hg]
    rw [cons_append, visitedFrom, ih, if_pos hany]
    by_cases hx : touches x
    · rw [if_pos hx, filter_cons_of_pos hx]
      rfl
    · rw [if_neg hx, filter_cons_of_neg hx]

lemma exists_last_touched (h : gs.any touches = true) :
    ∃ before g after, gs = before ++ g :: after ∧ touches g = true ∧ after.any touches = false := by
  induction gs with
  | nil => cases h
  | cons x gs ih =>
    by_cases hrest : gs.any touches
    · obtain ⟨before, g, after, rfl, hg, hafter⟩ := ih hrest
      exact ⟨x :: before, g, after, rfl, hg, hafter⟩
    · have hx : touches x = true := by
        rw [any_cons, Bool.or_eq_true] at h
        exact h.resolve_right hrest
      exact ⟨[], x, gs, rfl, hx, by simpa using hrest⟩

end

/-! ## The position -/

namespace GraphMgmtCmd

variable {info : ContGraphInfo} {subGraphId : Addr → ℕ} {cmd : GraphMgmtCmd}

/-- The containers of the graphs that are visited when the search goes on with the given ones. -/
def contsFrom (info : ContGraphInfo) (subGraphId : Addr → ℕ) (cmd : GraphMgmtCmd)
    (gs : List Addr) : List Addr :=
  (visitedFrom (cmd.touches info subGraphId) gs).flatMap fun g => (info.graphs g).containerList

/-- The containers that are still to come. -/
def remaining (info : ContGraphInfo) (subGraphId : Addr → ℕ) (cmd : GraphMgmtCmd) : List Addr :=
  cmd.currContNode.tail ++ cmd.contsFrom info subGraphId cmd.currContGraph.tail

/-- The command is at a container of a graph, and there are no graphs without containers. -/
structure Positioned (info : ContGraphInfo) (cmd : GraphMgmtCmd) : Prop where
  node : cmd.currContNode ≠ []
  graph : cmd.currContGraph ≠ []
  nonempty : ∀ g ∈ cmd.currContGraph, (info.graphs g).containerList ≠ []

/-- **One search.**  Wherever it leads, the first graph that is visited next is there. -/
lemma getContGraphNode_visited {next : List Addr} (hne : next ≠ []) :
    ∃ g rest, (cmd.getContGraphNode info subGraphId next).2 = g :: rest ∧
      visitedFrom (cmd.touches info subGraphId) next =
        g :: visitedFrom (cmd.touches info subGraphId) rest ∧
      ∀ x ∈ g :: rest, x ∈ next := by
  unfold getContGraphNode
  rw [if_neg hne]
  cases hfound : next.dropWhile fun g => !cmd.touches info subGraphId g with
  | nil =>
    -- the search fails, and the position is at the next graph
    obtain ⟨g, rest, rfl⟩ := exists_cons_of_ne_nil hne
    have hnone : (g :: rest).any (cmd.touches info subGraphId) = false := by
      simpa using dropWhile_eq_nil_iff.mp hfound
    refine ⟨g, rest, rfl, ?_, fun x hx => hx⟩
    rw [any_cons, Bool.or_eq_false_iff] at hnone
    rw [visitedFrom_of_none (by simp [hnone]), visitedFrom_of_none hnone.2]
  | cons g rest =>
    refine ⟨g, rest, rfl, visitedFrom_of_found hfound, fun x hx => ?_⟩
    rw [← hfound] at hx
    exact (dropWhile_suffix _).subset hx

/-- **One call.**  It gives the first of the containers that are still to come, if there is
one. -/
lemma getNext_remaining (subGraphId : Addr → ℕ) (h : Positioned info cmd) :
    match cmd.remaining info subGraphId with
    | [] => ∃ cmd', cmd.getNextContInSortedList info subGraphId = some (none, cmd')
    | c :: conts => ∃ cmd', cmd.getNextContInSortedList info subGraphId = some (some c, cmd') ∧
          cmd'.remaining info subGraphId = conts ∧ Positioned info cmd' := by
  obtain ⟨reg, port, graphs, nodes⟩ := cmd
  obtain ⟨hnode, hgraph, hnonempty⟩ := h
  obtain ⟨c₀, nodes, rfl⟩ := exists_cons_of_ne_nil hnode
  obtain ⟨g₀, next, rfl⟩ := exists_cons_of_ne_nil hgraph
  cases nodes with
  | cons c conts =>
    exact ⟨⟨reg, port, g₀ :: next, c :: conts⟩, rfl, rfl, cons_ne_nil c conts, hgraph, hnonempty⟩
  | nil =>
    cases next with
    | nil => exact ⟨_, rfl⟩
    | cons g₁ next =>
      obtain ⟨g, rest, hsearch, hvisited, hmem⟩ := @getContGraphNode_visited info subGraphId
        ⟨reg, port, g₀ :: g₁ :: next, [c₀]⟩ (g₁ :: next) (cons_ne_nil g₁ next)
      have hconts : (info.graphs g).containerList ≠ [] :=
        hnonempty g (mem_cons_of_mem g₀ (hmem g mem_cons_self))
      obtain ⟨c, conts, hc⟩ := exists_cons_of_ne_nil hconts
      simp only [remaining, contsFrom, tail_cons, nil_append, hvisited,
        flatMap_cons, hc, cons_append]
      refine ⟨⟨reg, port, g :: rest, c :: conts⟩, ?_, rfl, cons_ne_nil c conts,
        cons_ne_nil g rest, fun x hx => hnonempty x (mem_cons_of_mem g₀ (hmem x hx))⟩
      simp only [getNextContInSortedList, hsearch, hc]

/-- **All calls.**  They give the containers that are still to come, and come to an end. -/
lemma visitRest_eq (h : Positioned info cmd) {rounds : ℕ}
    (hrounds : (cmd.remaining info subGraphId).length < rounds) :
    visitRest info subGraphId rounds cmd = some (cmd.remaining info subGraphId) := by
  have hnext := getNext_remaining subGraphId h
  generalize hconts : cmd.remaining info subGraphId = conts at hnext hrounds
  induction conts generalizing cmd rounds with
  | nil =>
    obtain ⟨rounds, rfl⟩ := Nat.exists_eq_succ_of_ne_zero (Nat.ne_of_gt hrounds)
    obtain ⟨cmd', hnone⟩ := hnext
    rw [visitRest, hnone]
  | cons c conts ih =>
    obtain ⟨rounds, rfl⟩ := Nat.exists_eq_succ_of_ne_zero (Nat.ne_of_gt (by omega : 0 < rounds))
    obtain ⟨cmd', hsome, hremaining, hpositioned⟩ := hnext
    have hnext' := getNext_remaining subGraphId hpositioned
    rw [hremaining] at hnext'
    rw [visitRest, hsome]
    simp only [ih hpositioned hremaining hnext' (by simpa using hrounds), Option.map_some]

lemma visit_of_none (hnone : info.contGraphList.any (cmd.touches info subGraphId) = false)
    (rounds : ℕ) : cmd.visit info subGraphId rounds = some [] := by
  have hempty : (info.contGraphList.dropWhile fun g => !cmd.touches info subGraphId g) = [] := by
    simpa using hnone
  unfold visit setUpGraphListTraversal getContGraphNode
  rw [hempty]
  split_ifs <;> rfl

/-- Else all the graphs are visited that the searches lead to. -/
lemma visit_of_some (hnonempty : ∀ g ∈ info.contGraphList, (info.graphs g).containerList ≠ [])
    (hsome : info.contGraphList.any (cmd.touches info subGraphId) = true) {rounds : ℕ}
    (hrounds : (cmd.contsFrom info subGraphId info.contGraphList).length ≤ rounds) :
    cmd.visit info subGraphId rounds = some (cmd.contsFrom info subGraphId info.contGraphList) := by
  have hne : info.contGraphList ≠ [] := by
    rintro hnil
    rw [hnil] at hsome
    cases hsome
  cases hfound : info.contGraphList.dropWhile fun g => !cmd.touches info subGraphId g with
  | nil =>
    obtain ⟨g, hg, htouches⟩ := any_eq_true.mp hsome
    have hnot := dropWhile_eq_nil_iff.mp hfound g hg
    rw [htouches] at hnot
    cases hnot
  | cons g rest =>
    have hmem : ∀ x ∈ g :: rest, x ∈ info.contGraphList := by
      rw [← hfound]
      exact fun x hx => (dropWhile_suffix _).subset hx
    obtain ⟨c, conts, hc⟩ := exists_cons_of_ne_nil (hnonempty g (hmem g mem_cons_self))
    have hsetup : cmd.setUpGraphListTraversal info subGraphId =
        (.eok, { cmd with currContGraph := g :: rest, currContNode := c :: conts }) := by
      unfold setUpGraphListTraversal getContGraphNode
      rw [if_neg hne, if_neg hne, hfound]
      dsimp only
      rw [hc]
    have hpositioned : Positioned info
        { cmd with currContGraph := g :: rest, currContNode := c :: conts } :=
      ⟨cons_ne_nil c conts, cons_ne_nil g rest, fun x hx => hnonempty x (hmem x hx)⟩
    have hconts : cmd.contsFrom info subGraphId info.contGraphList = c :: remaining info subGraphId
          { cmd with currContGraph := g :: rest, currContNode := c :: conts } := by
      rw [contsFrom, visitedFrom_of_found hfound, flatMap_cons, hc]
      rfl
    rw [hconts] at hrounds ⊢
    unfold visit
    rw [hsetup]
    dsimp only
    rw [visitRest_eq hpositioned (Nat.lt_of_succ_le hrounds)]
    rfl

lemma nodup_concerned {conts : List Addr} (h : Tidy conts info) :
    (cmd.concerned info subGraphId).Nodup := by
  have hmem : ∀ g ∈ info.contGraphList.filter (cmd.touches info subGraphId),
      g ∈ info.contGraphList := fun g hg => mem_of_mem_filter hg
  rw [concerned, nodup_flatMap]
  refine ⟨fun g hg => (h.graphs g (hmem g hg)).nodup, ?_⟩
  refine List.Pairwise.imp_of_mem ?_ (h.nodup.filter _)
  intro g g' hg hg' hne
  refine disjoint_left.mpr fun c hc hc' => hne ?_
  have hptr := (h.graphs g (hmem g hg)).ptr c hc
  have hptr' := (h.graphs g' (hmem g' hg')).ptr c hc'
  exact Option.some.inj (hptr.symm.trans hptr')

/-- **The traversal.**  When the graphs and the containers agree, the traversal for a command
ends, and visits exactly the containers of the graphs with a sub-graph of the command, each once
and in list order, if and only if no graph has a sub-graph of the command or the last graph of
the list has one. -/
theorem visitsConcerned_iff {conts : List Addr} (h : Tidy conts info) (subGraphId : Addr → ℕ)
    (cmd : GraphMgmtCmd) :
    cmd.VisitsConcerned info subGraphId ↔
      ((∃ g ∈ info.contGraphList, cmd.touches info subGraphId g = true) →
        ∀ g ∈ info.contGraphList.getLast?, cmd.touches info subGraphId g = true) := by
  have hnonempty : ∀ g ∈ info.contGraphList, (info.graphs g).containerList ≠ [] :=
    fun g hg => (h.graphs g hg).nonempty
  rw [← any_eq_true]
  cases hany : info.contGraphList.any (cmd.touches info subGraphId) with
  | false =>
    have hconcerned : cmd.concerned info subGraphId = [] := by
      rw [concerned, filter_eq_nil_iff.mpr (by simpa using hany)]
      rfl
    refine iff_of_true ⟨⟨0, fun rounds _ => ?_⟩, nodup_concerned h⟩ (fun hfalse => by cases hfalse)
    rw [visit_of_none hany, hconcerned]
  | true =>
    obtain ⟨before, g, after, hsplit, hg, hafter⟩ := exists_last_touched hany
    have hvisited : cmd.contsFrom info subGraphId info.contGraphList =
        cmd.concerned info subGraphId ++ after.flatMap fun g => (info.graphs g).containerList := by
      have hfilter : (before ++ g :: after).filter (cmd.touches info subGraphId) =
          before.filter (cmd.touches info subGraphId) ++ [g] := by
        have hnone : after.filter (cmd.touches info subGraphId) = [] :=
          filter_eq_nil_iff.mpr (by simpa using hafter)
        rw [filter_append, filter_cons_of_pos hg, hnone]
      rw [contsFrom, concerned, hsplit, visitedFrom_last hg hafter, hfilter, ← flatMap_append,
        append_assoc]
      rfl
    have hvisit : ∀ rounds ≥ (cmd.contsFrom info subGraphId info.contGraphList).length,
        cmd.visit info subGraphId rounds =
          some (cmd.contsFrom info subGraphId info.contGraphList) :=
      fun rounds hrounds => visit_of_some hnonempty hany hrounds
    have hright : cmd.VisitsConcerned info subGraphId ↔ after = [] := by
      constructor
      · rintro ⟨⟨n, hn⟩, -⟩
        have hsame := (hvisit _ (Nat.le_max_right n _)).symm.trans (hn _ (Nat.le_max_left n _))
        rw [Option.some.injEq, hvisited, append_right_eq_self, flatMap_eq_nil_iff] at hsame
        refine eq_nil_iff_forall_not_mem.mpr fun x hx => hnonempty x ?_ (hsame x hx)
        rw [hsplit]
        simp [hx]
      · rintro rfl
        rw [flatMap_nil, append_nil] at hvisited
        rw [hvisited] at hvisit
        exact ⟨⟨_, hvisit⟩, nodup_concerned h⟩
    rw [hright, hsplit]
    constructor
    · rintro rfl - z hz
      rw [getLast?_concat] at hz
      exact Option.some.inj hz ▸ hg
    · intro hlast
      rcases eq_nil_or_concat' after with rfl | ⟨after, z, rfl⟩
      · rfl
      · have hends : before ++ g :: (after ++ [z]) = (before ++ g :: after) ++ [z] := by simp
        have hz := hlast rfl z (by rw [hends, getLast?_concat]; rfl)
        rw [any_append, any_cons, hz] at hafter
        simp at hafter

end GraphMgmtCmd

/-- Three containers without links, each in a sub-graph of its own and so in a graph of its
own. -/
def threeGraphs : ContGraphInfo :=
  (openGraph (opened (fun c => { bareCont with subGraphList := [c] }) [1, 2, 3]) []).2

lemma tidy_threeGraphs : Tidy [1, 2, 3] threeGraphs := by
  have hfresh : Fresh [1, 2, 3]
      (opened (fun c => { bareCont with subGraphList := [c] }) [1, 2, 3]) :=
    fresh_opened (by decide) fun _ => ⟨rfl, rfl⟩
  have hlinks : ∀ l ∈ ([] : List ContLink), l.Between [1, 2, 3] := by simp
  have hready := hfresh.ready hlinks fun c _ p hp => absurd hp not_mem_nil
  exact (hready.update hfresh.nodup).2.1

/-- A command for the last sub-graph. -/
theorem visitsConcerned_threeGraphs :
    (⟨[3], [], [], []⟩ : GraphMgmtCmd).VisitsConcerned threeGraphs id := by
  refine (GraphMgmtCmd.visitsConcerned_iff tidy_threeGraphs id ⟨[3], [], [], []⟩).mpr ?_
  decide

/-- A command for the first sub-graph: the containers of the other two are visited too. -/
theorem not_visitsConcerned :
    ¬ ∀ (conts : List Addr) (info : ContGraphInfo) (subGraphId : Addr → ℕ) (cmd : GraphMgmtCmd),
      Tidy conts info → cmd.regSgList ++ cmd.contPortHdlSgList ≠ [] →
        cmd.VisitsConcerned info subGraphId := by
  intro h
  obtain ⟨⟨n, hn⟩, -⟩ := h _ _ id ⟨[1], [], [], []⟩ tidy_threeGraphs (by decide)
  have hvisit := @GraphMgmtCmd.visit_of_some threeGraphs id ⟨[1], [], [], []⟩
    (fun g hg => (tidy_threeGraphs.graphs g hg).nonempty) (by decide) _ (Nat.le_max_right n _)
  rw [hn _ (Nat.le_max_left n _)] at hvisit
  exact absurd hvisit (by decide)

end AudioReach
