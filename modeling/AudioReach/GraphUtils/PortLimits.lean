import AudioReach.GraphUtils.Commands
import AudioReach.GraphUtils.PortOpen
import AudioReach.Library.Runs

/-!
# Port limits over opens and closes

`GuWorld.PortLimits` is what `gu_handle_connection` is meant to enforce: every module of the graph
has as many ports as its counters say, within its limits, at indices below the limits.

Two things in the source work against it.  In an asynchronous open the limit check does
not count the ports that already wait, so several links to one running module overrun its
limit.  And a port-info property may lower the limit of a module below the ports it has.
`OpenCond` is the condition under which both are harmless, and
`portLimits_along_of_openCond` the result over all runs of opens and closes that meet it.
-/

namespace AudioReach

open Function (update update_of_ne update_self)
open Library List

/-! ## The statement -/

variable {t : PortTable} {next : Addr}

namespace PortTable

/-- The module has as many ports as its counter says, within its limit, at indices below
the limit. -/
structure Limits (t : PortTable) (m : Addr) : Prop where
  num_le : t.num m ≤ t.max m
  count : t.num m = (t.ports m).length
  index_lt : ∀ p ∈ t.ports m, t.index p < t.max m

/-- A table that is right keeps to the limits. -/
lemma Ok.limits (h : t.Ok next) (m : Addr) : t.Limits m :=
  ⟨(h.count m).trans_le (h.limit m), h.count m, h.below m⟩

/-- The module takes no further port, or has room for `n` of them. -/
def Room (t : PortTable) (m : Addr) (n : ℕ) : Prop :=
  (t.ports m).length = t.max m ∨ (t.ports m).length + n ≤ t.max m

instance (t : PortTable) (m : Addr) (n : ℕ) : Decidable (t.Room m n) :=
  inferInstanceAs (Decidable (_ ∨ _))

end PortTable

namespace GuWorld

/-- Every module of the graph keeps to its limits on both sides. -/
def PortLimits (w : GuWorld) : Prop :=
  ∀ m ∈ w.modules, w.ins.Limits m ∧ w.outs.Limits m

/-- The links of the command that start at a module of the graph. -/
def linksFrom (w : GuWorld) (cmd : GraphOpenCmd) (m : Addr) : ℕ :=
  cmd.modConnList.countP fun conn => w.guFindModule w.gu conn.srcModInstId = some m

/-- The links of the command that end at a module of the graph. -/
def linksTo (w : GuWorld) (cmd : GraphOpenCmd) (m : Addr) : ℕ :=
  cmd.modConnList.countP fun conn => w.guFindModule w.gu conn.dstModInstId = some m

/-- The limits that the command sets for modules of the graph cover the ports these have. -/
def LimitsCover (w : GuWorld) (cmd : GraphOpenCmd) : Prop :=
  ∀ m ∈ w.modules, w.portView.Covers cmd m

/-- The links of the command fit the modules that run, all of them together. -/
def LinksFit (w : GuWorld) (cmd : GraphOpenCmd) : Prop :=
  ∀ m ∈ w.modules, w.moduleGuStatus m ≠ .new →
    w.ins.Room m (w.linksTo cmd m) ∧ w.outs.Room m (w.linksFrom cmd m)

instance (w : GuWorld) (cmd : GraphOpenCmd) : Decidable (w.LimitsCover cmd) :=
  inferInstanceAs (Decidable (∀ m ∈ w.modules, w.portView.Covers cmd m))

instance (w : GuWorld) (cmd : GraphOpenCmd) : Decidable (w.LinksFit cmd) :=
  inferInstanceAs (Decidable (∀ m ∈ w.modules, w.moduleGuStatus m ≠ .new →
    w.ins.Room m (w.linksTo cmd m) ∧ w.outs.Room m (w.linksFrom cmd m)))

/-- The condition on an open command that is accepted.  An asynchronous open of the first graph is a
synchronous one. -/
def OpenCond (w : GuWorld) : GuOp → Prop
  | .openSync _ cmd _ => w.guValidateGraphOpenCmd cmd = .eok → w.LimitsCover cmd
  | .openAsync _ cmd _ => w.guValidateGraphOpenCmd cmd = .eok →
      if w.gu.numSubgraphs = 0 then w.LimitsCover cmd else w.LinksFit cmd
  | _ => True

instance (w : GuWorld) : ∀ op, Decidable (w.OpenCond op)
  | .openSync _ cmd _ =>
      inferInstanceAs (Decidable (w.guValidateGraphOpenCmd cmd = .eok → w.LimitsCover cmd))
  | .openAsync _ cmd _ =>
      inferInstanceAs (Decidable (w.guValidateGraphOpenCmd cmd = .eok →
        if w.gu.numSubgraphs = 0 then w.LimitsCover cmd else w.LinksFit cmd))
  | .prepareCleanup _ => inferInstanceAs (Decidable True)
  | .markClosing _ _ _ _ => inferInstanceAs (Decidable True)
  | .destroy _ => inferInstanceAs (Decidable True)

end GuWorld

/-! ## Between commands -/

/-- The state between two commands, as far as ports are concerned. -/
structure PortView.Rest (v : PortView) : Prop where
  ins : v.ins.Ok v.next
  outs : v.outs.Ok v.next
  sgs : ∀ sg ∈ v.sgs, sg < v.next ∧ ∀ m ∈ v.sgModules sg, m < v.next

/-- The state between two commands: no open is going on. -/
def Idle (w : GuWorld) : Prop :=
  w.portView.Rest ∧ w.asyncGu = none

/-- Between two commands all limits are kept. -/
lemma Idle.portLimits {w : GuWorld} (h : Idle w) : w.PortLimits :=
  fun m _ => ⟨h.1.ins.limits m, h.1.outs.limits m⟩

variable {v : PortView}

/-- The budget holds at rest. -/
lemma PortView.Inv.rest {srcs dsts : List UInt32} (h : Inv srcs dsts v) : v.Rest :=
  ⟨h.ins, h.outs, h.sgs⟩

/-- Only the ports matter between two commands. -/
lemma Idle.of_portView {w w' : GuWorld} (h : Idle w) (heq : w'.portView = w.portView) :
    Idle w' := by
  refine ⟨heq ▸ h.1, ?_⟩
  have hasync : w'.asyncGu.map _ = w.asyncGu.map _ := congrArg PortView.async heq
  rw [h.2] at hasync
  exact Option.map_eq_none_iff.mp hasync

/-! ## Closes -/

section Close

open PortView (Rest)

section

variable (all : Bool) (w : GuWorld) (e : Addr)

/-- An external input port is not in the tables. -/
lemma destroyExtInPort_portView : (w.destroyExtInPort all e).portView = w.portView := by
  unfold GuWorld.destroyExtInPort
  split
  · rfl
  · rfl

/-- An external output port is not in the tables. -/
lemma destroyExtOutPort_portView : (w.destroyExtOutPort all e).portView = w.portView := by
  unfold GuWorld.destroyExtOutPort
  split
  · rfl
  · rfl

/-- An external control port is not in the tables. -/
lemma destroyExtCtrlPort_portView : (w.destroyExtCtrlPort all e).portView = w.portView := by
  unfold GuWorld.destroyExtCtrlPort
  split
  · rfl
  · rfl

end

variable {w : GuWorld}

/-- A module may lose ports. -/
lemma Idle.restrict {w' : GuWorld} (h : Idle w) {m : Addr} {ins outs : List Addr} {n k : ℕ}
    (hins : ins.Sublist (w.inputPortList m)) (hn : n = ins.length)
    (houts : outs.Sublist (w.outputPortList m)) (hk : k = outs.length)
    (heq : w'.portView = { w.portView with
      ins := w.ins.restrict m ins n, outs := w.outs.restrict m outs k }) : Idle w' := by
  refine ⟨?_, ?_⟩
  · rw [heq]
    exact ⟨h.1.ins.restrict hins hn, h.1.outs.restrict houts hk, h.1.sgs⟩
  · have hasync : w'.asyncGu.map _ = w.asyncGu.map _ := congrArg PortView.async heq
    rw [h.2] at hasync
    exact Option.map_eq_none_iff.mp hasync

section

variable (w : GuWorld)

/-- A module leaves its subgraph with its ports. -/
lemma unlistModule_portView (sg m : Addr) : (w.unlistModule sg m).portView = w.portView := by
  unfold GuWorld.unlistModule GuWorld.portView
  by_cases hs : w.gu.sortedModuleList = []
  · simp only [hs, if_true]
    rfl
  · simp only [hs, if_false]
    rfl

/-- A lost connection leaves the ports alone. -/
lemma disconnectInput_portView (i : Addr) : (w.disconnectInput i).portView = w.portView := by
  unfold GuWorld.disconnectInput
  cases w.connOutPort i with
  | none => rfl
  | some o => rfl

/-- A lost connection leaves the ports alone. -/
lemma disconnectOutput_portView (o : Addr) : (w.disconnectOutput o).portView = w.portView := rfl

/-- A lost connection leaves the ports alone. -/
lemma disconnectCtrl_portView (p : Addr) : (w.disconnectCtrl p).portView = w.portView := by
  unfold GuWorld.disconnectCtrl
  cases w.peerCtrlPort p with
  | none => rfl
  | some q => rfl

end

/-- What leaves the ports alone may be repeated. -/
lemma foldl_portView {β : Type} {f : GuWorld → β → GuWorld}
    (hf : ∀ w b, (f w b).portView = w.portView) (l : List β) (w : GuWorld) :
    (l.foldl f w).portView = w.portView :=
  foldlRecOn l f (motive := fun w' => w'.portView = w.portView) rfl
    fun w' hw' b _ => (hf w' b).trans hw'

/-- A destroyed module has no ports. -/
lemma destroyModule_portView (w : GuWorld) (sg m : Addr) :
    (w.destroyModule sg m).portView = { w.portView with
      ins := w.ins.restrict m [] 0, outs := w.outs.restrict m [] 0 } := by
  unfold GuWorld.destroyModule
  extract_lets w₁ w₂ w₃ w₄ w₅ w₆
  have h₁ : w₁.portView = w.portView := unlistModule_portView w sg m
  have h₂ : w₂.portView = w₁.portView := foldl_portView disconnectInput_portView _ _
  have h₄ : w₄.portView = w₃.portView := foldl_portView disconnectOutput_portView _ _
  have h₆ : w₆.portView = w₅.portView := foldl_portView disconnectCtrl_portView _ _
  have h₃ : w₃.portView = { w₂.portView with ins := w₂.portView.ins.restrict m [] 0 } := rfl
  have h₅ : w₅.portView = { w₄.portView with outs := w₄.portView.outs.restrict m [] 0 } := rfl
  change w₆.portView = _
  rw [h₆, h₅, h₄, h₃, h₂, h₁]
  rfl

/-- A module may be destroyed. -/
lemma destroyModule_idle (sg : Addr) (h : Idle w) (m : Addr) : Idle (w.destroyModule sg m) :=
  h.restrict (nil_sublist _) rfl (nil_sublist _) rfl (destroyModule_portView w sg m)

/-- A subgraph may be emptied. -/
lemma Idle.clearSg (h : Idle w) (sg : Addr) :
    Idle { w with sgModuleList := update w.sgModuleList sg [] } := by
  refine ⟨⟨h.1.ins, h.1.outs, ?_⟩, h.2⟩
  intro sg' hsg'
  refine ⟨(h.1.sgs sg' hsg').1, ?_⟩
  intro m hm
  by_cases hss : sg' = sg
  · subst hss
    change m ∈ update w.sgModuleList sg' [] sg' at hm
    rw [update_self] at hm
    cases hm
  · change m ∈ update w.sgModuleList sg [] sg' at hm
    rw [update_of_ne hss] at hm
    exact (h.1.sgs sg' hsg').2 m hm

/-- A subgraph may be destroyed. -/
lemma destroySubgraph_idle (all : Bool) (h : Idle w) (sg : Addr) :
    Idle (w.destroySubgraph all sg) := by
  unfold GuWorld.destroySubgraph
  split
  · have herase : Idle { w with gu := { w.gu with
        numSubgraphs := decU8 w.gu.numSubgraphs
        sgList := w.gu.sgList.erase sg } } :=
      ⟨⟨h.1.ins, h.1.outs, fun sg' hsg' => h.1.sgs sg' (mem_of_mem_erase hsg')⟩, h.2⟩
    have hmodules : Idle ((w.sgModuleList sg).foldl (GuWorld.destroyModule sg) { w with
        gu := { w.gu with
          numSubgraphs := decU8 w.gu.numSubgraphs
          sgList := w.gu.sgList.erase sg } }) :=
      foldlRecOn (w.sgModuleList sg) (GuWorld.destroyModule sg) herase
        fun w' hw' m _ => destroyModule_idle sg hw' m
    exact hmodules.clearSg sg
  · exact h

/-- Counting down within a byte. -/
lemma iterate_decU8 {n k : ℕ} (hk : k ≤ n) (hn : n ≤ 100) : Nat.iterate decU8 k n = n - k := by
  induction k generalizing n with
  | zero => rfl
  | succ k ih =>
    have hdec : decU8 n = n - 1 := by
      unfold decU8
      omega
    rw [Function.iterate_succ_apply, hdec, ih (by omega) (by omega)]
    omega

/-- The input ports of a module may be cleaned up. -/
lemma cleanupInputs_idle (h : Idle w) (m : Addr) : Idle (w.cleanupInputs m) := by
  have hcount := h.1.ins.count m
  have hlimit := h.1.ins.limit m
  have hsmall := h.1.ins.small m
  change w.numInputPorts m = (w.inputPortList m).length at hcount
  have hle : (w.inputPortList m).countP w.danglingIn ≤ (w.inputPortList m).length :=
    countP_le_length
  have hnum : Nat.iterate decU8 ((w.inputPortList m).countP w.danglingIn) (w.numInputPorts m) =
      ((w.inputPortList m).filter fun i => !w.danglingIn i).length := by
    rw [hcount, iterate_decU8 hle (hlimit.trans hsmall), ← countP_eq_length_filter]
    have hsplit := length_eq_countP_add_countP w.danglingIn (l := w.inputPortList m)
    simp only [Bool.not_eq_true] at hsplit
    have hneg : (w.inputPortList m).countP (fun i => !w.danglingIn i) =
        (w.inputPortList m).countP fun i => decide (w.danglingIn i = false) := by
      refine countP_congr ?_
      intro i _
      simp
    omega
  refine ⟨⟨?_, h.1.outs, h.1.sgs⟩, h.2⟩
  exact h.1.ins.restrict filter_sublist hnum

/-- The counter goes down with the list. -/
lemma Idle.decU8_out (h : Idle w) {m : Addr} (hne : w.outputPortList m ≠ []) :
    decU8 (w.numOutputPorts m) = (w.outputPortList m).length - 1 := by
  have hcount := h.1.outs.count m
  have hlimit := h.1.outs.limit m
  have hsmall := h.1.outs.small m
  change w.numOutputPorts m = (w.outputPortList m).length at hcount
  change (w.outputPortList m).length ≤ w.maxOutputPorts m at hlimit
  change w.maxOutputPorts m ≤ 100 at hsmall
  have hpos := length_pos_of_ne_nil hne
  unfold decU8
  omega

/-- What the sweep does to the output ports of a module that gets hung back. -/
lemma rehang_portView (w : GuWorld) (o e : Addr) :
    (w.rehang o e).portView = if w.outputPortList e = [] then w.portView else
      { w.portView with
        outs := w.outs.restrict e (w.outputPortList e).tail (decU8 (w.numOutputPorts e)) } := by
  unfold GuWorld.rehang
  cases hi : (w.inputPortList e).head? with
  | none =>
    by_cases he : w.outputPortList e = []
    · simp only [he, if_true]
      rfl
    · simp only [he, if_false]
      rfl
  | some i =>
    by_cases he : w.outputPortList e = []
    · simp only [he, if_true]
      rfl
    · simp only [he, if_false]
      rfl

/-- A port may go back to its module. -/
lemma rehang_idle (h : Idle w) (o e : Addr) : Idle (w.rehang o e) := by
  have hview := rehang_portView w o e
  by_cases he : w.outputPortList e = []
  · rw [if_pos he] at hview
    exact h.of_portView hview
  · rw [if_neg he] at hview
    refine ⟨?_, ?_⟩
    · rw [hview]
      refine ⟨h.1.ins, h.1.outs.restrict (tail_sublist _) ?_, h.1.sgs⟩
      rw [h.decU8_out he]
      exact (length_tail).symm
    · have hasync : (w.rehang o e).asyncGu.map _ = w.asyncGu.map _ := congrArg PortView.async hview
      rw [h.2] at hasync
      exact Option.map_eq_none_iff.mp hasync

/-- A port that goes back leaves its list. -/
lemma rehang_outputPortList (w : GuWorld) (o e m : Addr) : (w.rehang o e).outputPortList m =
      if m = e then (w.outputPortList m).tail else w.outputPortList m := by
  have hports : (w.rehang o e).outputPortList = (w.rehang o e).portView.outs.ports := rfl
  rw [hports, rehang_portView]
  by_cases hm : m = e
  · subst hm
    rw [if_pos rfl]
    by_cases he : w.outputPortList m = []
    · rw [if_pos he, he]
      exact he
    · rw [if_neg he]
      exact update_self _ _ _
  · rw [if_neg hm]
    by_cases he : w.outputPortList e = []
    · rw [if_pos he]
      rfl
    · rw [if_neg he]
      exact update_of_ne hm _ _

/-- One output port is swept.  The ports still to be looked at stay at the end of the list, even if
the module itself is hung back: it then loses a port that was looked at before. -/
lemma cleanupOutput_idle (h : Idle w) {m o : Addr} {seen rest : List Addr}
    (hports : w.outputPortList m = seen ++ o :: rest) :
    Idle (w.cleanupOutput m o) ∧ ∃ seen', (w.cleanupOutput m o).outputPortList m = seen' ++ rest := by
  unfold GuWorld.cleanupOutput
  split
  · cases w.attachedModule o with
    | some e =>
      refine ⟨rehang_idle h o e, ?_⟩
      simp only [rehang_outputPortList, hports]
      by_cases hm : m = e
      · rw [if_pos hm]
        cases seen with
        | nil => exact ⟨[], rfl⟩
        | cons a seen => exact ⟨seen ++ [o], by simp⟩
      · rw [if_neg hm]
        exact ⟨seen ++ [o], by simp⟩
    | none =>
      have hnotin : o ∉ seen := by
        intro ho
        have hsorted := h.1.outs.sorted m
        change (w.outputPortList m).Pairwise _ at hsorted
        rw [hports] at hsorted
        exact absurd ((pairwise_append.mp hsorted).2.2 o ho o mem_cons_self) (lt_irrefl _)
      have herase : (w.outputPortList m).erase o = seen ++ rest := by
        rw [hports, erase_append_right _ hnotin, erase_cons_head]
      have hne : w.outputPortList m ≠ [] := by
        rw [hports]
        simp
      refine ⟨⟨⟨h.1.ins, ?_, h.1.sgs⟩, h.2⟩, seen, ?_⟩
      · refine h.1.outs.restrict erase_sublist ?_
        rw [h.decU8_out hne]
        rw [herase, hports]
        simp
      · change update w.outputPortList m _ m = _
        rw [update_self, herase]
  · exact ⟨h, seen ++ [o], by rw [hports]; simp⟩

/-- The output ports of a module may be cleaned up. -/
lemma cleanupOutputs_idle (m : Addr) (rest : List Addr) {w : GuWorld} (h : Idle w)
    {seen : List Addr} (hports : w.outputPortList m = seen ++ rest) :
    Idle (rest.foldl (GuWorld.cleanupOutput m) w) := by
  induction rest generalizing w seen with
  | nil => exact h
  | cons o rest ih =>
    obtain ⟨hidle, seen', hrest⟩ := cleanupOutput_idle h hports
    exact ih hidle hrest

/-- The ports of a module may be cleaned up. -/
lemma cleanupPorts_idle (h : Idle w) (m : Addr) : Idle (w.cleanupPorts m) :=
  @cleanupOutputs_idle m _ _ (cleanupInputs_idle h m) [] rfl

/-- A module may be cleaned up. -/
lemma cleanupModule_idle (h : Idle w) (m : Addr) : Idle (w.cleanupModule m) := by
  unfold GuWorld.cleanupModule
  extract_lets sg attached swept updated informed
  have hswept : Idle swept := by
    change Idle (if attached then w else w.cleanupPorts m)
    split
    · exact h
    · exact cleanupPorts_idle h m
  have hinformed : Idle informed := by
    change Idle (if updated then swept.guUpdateModuleSinkSrcInfo m else swept)
    split
    · exact hswept.of_portView rfl
    · exact hswept
  exact hinformed.of_portView rfl

/-- Control ports are not in the tables. -/
lemma cleanupCtrl_portView (w : GuWorld) (m : Addr) : (w.cleanupCtrl m).portView = w.portView := rfl

/-- **Closes.** Destroying a graph, in whole or in part, keeps the ports in order. -/
theorem guDestroyGraph_idle (all : Bool) (h : Idle w) : Idle (w.guDestroyGraph all) := by
  unfold GuWorld.guDestroyGraph
  extract_lets w₁ w₂ w₃ w₄
  have h₁ : Idle w₁ := h.of_portView (foldl_portView (destroyExtInPort_portView all) _ _)
  have h₂ : Idle w₂ := h₁.of_portView (foldl_portView (destroyExtOutPort_portView all) _ _)
  have h₃ : Idle w₃ := h₂.of_portView (foldl_portView (destroyExtCtrlPort_portView all) _ _)
  have h₄ : Idle w₄ := foldlRecOn w₃.gu.sgList (GuWorld.destroySubgraph all) h₃
    fun w' hw' sg _ => destroySubgraph_idle all hw' sg
  have h₅ : Idle w₄.guCleanupDanglingDataPorts :=
    foldlRecOn w₄.modules GuWorld.cleanupModule h₄
      fun w' hw' m _ => cleanupModule_idle hw' m
  exact h₅.of_portView (foldl_portView cleanupCtrl_portView _ _)

end Close

/-! ## The end of an asynchronous open -/

/-- The ports that wait fit their modules. -/
structure PortTable.Waiting (t : PortTable) (next : Addr) (pending : List Addr) : Prop where
  nodup : pending.Nodup
  unlisted : ∀ p ∈ pending, p ∉ t.ports (t.owner p)
  allocated : ∀ p ∈ pending, p < next
  room : ∀ m, (t.ports m).length + t.waiting pending m ≤ t.max m

/-- Ports within the budget fit when they wait. -/
lemma PortView.Budget.waiting {status : Addr → GuStatus} {pending : List Addr} {links : Addr → ℕ}
    (h : Budget next status links t pending) (ht : t.Ok next) : t.Waiting next pending := by
  refine ⟨h.nodup, h.unlisted, fun p hp => (h.allocated p hp).1, ?_⟩
  intro m
  have hlimit := ht.limit m
  by_cases hm : status m = .new
  · rw [h.new m hm]
    exact hlimit
  · rcases h.room m hm with ⟨-, hzero⟩ | hroom
    · rw [hzero]
      exact hlimit
    · omega

/-- The first port that waits is inserted. -/
lemma PortTable.Waiting.insert {p : Addr} {pending : List Addr} (h : t.Waiting next (p :: pending))
    (ht : t.Ok next) :
    (t.insert (t.owner p) p).Ok next ∧ (t.insert (t.owner p) p).Waiting next pending := by
  obtain ⟨hp, hnodup⟩ := nodup_cons.mp h.nodup
  have hunlisted := h.unlisted p mem_cons_self
  have hwaiting : ∀ m, t.waiting (p :: pending) m =
      t.waiting pending m + if t.owner p = m then 1 else 0 := by
    intro m
    simp only [PortTable.waiting, countP_cons, decide_eq_true_eq]
  have hroom := h.room (t.owner p)
  rw [hwaiting, if_pos rfl] at hroom
  refine ⟨ht.insert rfl hunlisted (h.allocated p mem_cons_self) (by omega), hnodup, ?_,
    fun q hq => h.allocated q (mem_cons_of_mem p hq), ?_⟩
  · intro q hq hmem
    have hq' := h.unlisted q (mem_cons_of_mem p hq)
    change q ∈ (t.insert (t.owner p) p).ports (t.owner q) at hmem
    by_cases hm : t.owner q = t.owner p
    · rw [hm] at hmem hq'
      rcases ht.mem_insert.mp hmem with rfl | hmem
      · exact hp hq
      · exact hq' hmem
    · simp only [PortTable.insert, update_of_ne hm] at hmem
      exact hq' hmem
  · intro m
    have hroom := h.room m
    rw [hwaiting] at hroom
    change ((t.insert (t.owner p) p).ports m).length + t.waiting pending m ≤ t.max m
    by_cases hm : m = t.owner p
    · subst hm
      rw [ht.length_insert]
      omega
    · rw [if_neg fun h => hm h.symm] at hroom
      simp only [PortTable.insert, update_of_ne hm]
      exact hroom

section Finish

open PortView (Rest Inv)

/-- The graphs are merged and the ports of the list wait. -/
structure Merging (ports : List GuCmnPort) (v : PortView) : Prop where
  rest : v.Rest
  ins : v.ins.Waiting v.next (pendingIns ports)
  outs : v.outs.Waiting v.next (pendingOuts ports)

/-- A waiting input port is inserted. -/
lemma Merging.input {i : Addr} {ports : List GuCmnPort} (h : Merging (.input i :: ports) v)
    (status : Addr → GuStatus) :
    Merging ports { v with ins := v.ins.insert (v.ins.owner i) i, status := status } := by
  obtain ⟨hok, hwaiting⟩ := @PortTable.Waiting.insert _ _ i (pendingIns ports) h.ins h.rest.ins
  exact ⟨⟨hok, h.rest.outs, h.rest.sgs⟩, hwaiting, h.outs⟩

/-- A waiting output port is inserted. -/
lemma Merging.output {o : Addr} {ports : List GuCmnPort} (h : Merging (.output o :: ports) v)
    (status : Addr → GuStatus) :
    Merging ports { v with outs := v.outs.insert (v.outs.owner o) o, status := status } := by
  obtain ⟨hok, hwaiting⟩ := @PortTable.Waiting.insert _ _ o (pendingOuts ports) h.outs h.rest.outs
  exact ⟨⟨h.rest.ins, hok, h.rest.sgs⟩, h.ins, hwaiting⟩

/-- One port that waits is inserted. -/
lemma guInsertPendingPort_merging (port : GuCmnPort) (ports : List GuCmnPort) :
    Triple (On (Merging (port :: ports))) (guInsertPendingPort port)
      (fun _ => On (Merging ports)) (On Rest) := by
  have hrest : ∀ {α : Type} {x : GuM α}, Leaves GuWorld.portView x →
      Triple (On (Merging ports)) x (fun _ => On (Merging ports)) (On Rest) := fun hx =>
    (keepsOn hx).exits fun _ h => h.rest
  cases port with
  | input i =>
    refine Triple.get_bind fun w hw =>
      Triple.bind ?_ fun _ =>
        Triple.bind (hrest (Leaves.modify fun _ => rfl)) fun _ =>
          Triple.bind (hrest (Leaves.modify fun _ => rfl)) fun _ =>
            hrest (guParseAndAttach_leaves _ _)
    refine (guInsertInputPort_on w.portView _ i).conseq ?_ ?_ ?_
    · rintro w' ⟨rfl, -⟩
      rfl
    · rintro _ w' ⟨status, -, heq⟩
      change Merging ports w'.portView
      rw [heq]
      exact hw.input status
    · intro w' heq
      change Rest w'.portView
      rw [show w'.portView = w.portView from heq]
      exact hw.rest
  | output o =>
    refine Triple.get_bind fun w hw =>
      Triple.bind ?_ fun _ =>
        Triple.bind (hrest (Leaves.modify fun _ => rfl)) fun _ =>
          Triple.bind (hrest (Leaves.modify fun _ => rfl)) fun _ =>
            hrest (guParseAndAttach_leaves _ _)
    refine (guInsertOutputPort_on w.portView _ o).conseq ?_ ?_ ?_
    · rintro w' ⟨rfl, -⟩
      rfl
    · rintro _ w' ⟨status, -, heq⟩
      change Merging ports w'.portView
      rw [heq]
      exact hw.output status
    · intro w' heq
      change Rest w'.portView
      rw [show w'.portView = w.portView from heq]
      exact hw.rest

/-- An open has built its part: once the two graphs are merged the ports that wait fit. -/
def Pended (w : GuWorld) : Prop :=
  match w.asyncGu with
  | none => w.portView.Rest
  | some async => Merging async.portList
      { w.portView with sgs := w.gu.sgList ++ async.gu.sgList }

/-- When nothing more is to come the open has built its part. -/
lemma Inv.pended {w : GuWorld} (h : Inv [] [] w.portView) : Pended w := by
  unfold Pended
  cases ha : w.asyncGu with
  | none => exact h.rest
  | some async =>
    have hview : w.portView.async = some (async.gu.sgList, async.portList) := by
      simp only [GuWorld.portView, ha, Option.map_some]
    refine ⟨⟨h.ins, h.outs, ?_⟩, (h.in_budget _ hview).waiting h.ins,
      (h.out_budget _ hview).waiting h.outs⟩
    intro sg hsg
    rcases mem_append.mp hsg with hsg | hsg
    · exact h.sgs sg hsg
    · obtain ⟨hsg', -, hms⟩ := h.async_sgs _ hview sg hsg
      exact ⟨hsg', fun m hm => (hms m hm).1⟩

/-- Without a second graph nothing waits. -/
lemma Pended.idle {w : GuWorld} (h : Pended w) (hasync : w.asyncGu = none) : Idle w := by
  unfold Pended at h
  rw [hasync] at h
  exact ⟨h, hasync⟩

/-- After a merge the second graph goes. -/
lemma idle_dropAsync {w : GuWorld} (h : On Rest w) : Idle w.dropAsync :=
  ⟨⟨h.ins, h.outs, h.sgs⟩, rfl⟩

/-- **The end of an asynchronous open.** All ports that wait are inserted within the limits. -/
theorem guFinishAsyncCreate_idle : Triple Pended guFinishAsyncCreate (fun _ => Idle) Idle := by
  refine Triple.get_bind fun w hw => ?_
  cases ha : w.asyncGu with
  | none =>
    refine Triple.pure ?_
    rintro w' ⟨rfl, hw'⟩
    exact Pended.idle hw' ha
  | some async =>
    have hmerge : Triple (fun w' => w' = w ∧ Pended w') (guMergeAsyncCreate async)
        (fun _ => On Rest) (On Rest) := by
      refine Triple.bind (Q := fun _ => On (Merging async.portList)) (Triple.modify ?_) fun _ =>
          Triple.bind (Q := fun _ => On (Merging [])) ?_ fun _ => ?_
      · rintro w' ⟨rfl, hw'⟩
        unfold Pended at hw'
        rw [ha] at hw'
        exact hw'
      · exact @Triple.forM_rest _ _ _ _ (fun l => On (Merging l)) _ _
          fun port ports => guInsertPendingPort_merging port ports
      · exact (Keeps.ite (keepsOn guUpdateSortedList_leaves) (Keeps.pure _)).conseq
          (fun _ h => h.rest) (fun _ _ h => h) fun _ h => h
    exact Triple.bind (hmerge.onError fun _ => idle_dropAsync) fun _ =>
      Triple.modify fun _ => idle_dropAsync

end Finish

/-! ## Commands -/

section Commands

open PortView (Inv Phase)

/-- The creation of the modules changes the status only. -/
lemma genTopoCreateModules_portView (w : GuWorld) : w.genTopoCreateModules.portView =
        { w.portView with status := w.genTopoCreateModules.moduleGuStatus } ∧
      w.genTopoCreateModules.asyncGu = w.asyncGu := by
  refine foldlRecOn w.openGu.sgList GuWorld.settleSubgraph
    (motive := fun w' => w'.portView = { w.portView with status := w'.moduleGuStatus } ∧
      w'.asyncGu = w.asyncGu) ⟨rfl, rfl⟩ ?_
  rintro w' ⟨hview, hasync⟩ sg -
  unfold GuWorld.settleSubgraph
  split
  · exact ⟨hview, hasync⟩
  · refine ⟨?_, hasync⟩
    exact congrArg (fun v : PortView => { v with
      status := fun m => if m ∈ w'.sgModuleList sg then .default else w'.moduleGuStatus m }) hview

variable {w : GuWorld} {cmd : GraphOpenCmd}

/-- Modules may be created between two commands. -/
lemma Idle.genTopoCreateModules (h : Idle w) : Idle w.genTopoCreateModules := by
  obtain ⟨hview, hasync⟩ := genTopoCreateModules_portView w
  refine ⟨?_, hasync.trans h.2⟩
  rw [hview]
  exact ⟨h.1.ins, h.1.outs, h.1.sgs⟩

/-- Modules may be created before the merge. -/
lemma Pended.genTopoCreateModules (h : Pended w) : Pended w.genTopoCreateModules := by
  obtain ⟨hview, hasync⟩ := genTopoCreateModules_portView w
  have hsgs : w.genTopoCreateModules.gu.sgList = w.gu.sgList := congrArg PortView.sgs hview
  unfold Pended at h ⊢
  rw [hasync]
  cases ha : w.asyncGu with
  | none =>
    rw [ha] at h
    rw [hview]
    exact ⟨h.ins, h.outs, h.sgs⟩
  | some async =>
    rw [ha] at h
    rw [hsgs, hview]
    exact ⟨⟨h.rest.ins, h.rest.outs, h.rest.sgs⟩, h.ins, h.outs⟩

/-- An accepted open creates no instance twice. -/
lemma not_mem_newIids (hvalid : w.guValidateGraphOpenCmd cmd = .eok) :
    ∀ m ∈ w.modules, w.moduleInstanceId m ∉ cmd.newIids := by
  intro m hm hiid
  obtain ⟨cfg, hcfg, heq⟩ := mem_map.mp hiid
  have hfound : (w.guFindModule w.gu cfg.instanceId).isSome := by
    refine find?_isSome.mpr ⟨m, hm, ?_⟩
    simpa using heq.symm
  unfold GuWorld.guValidateGraphOpenCmd at hvalid
  split at hvalid
  · cases hvalid
  · split at hvalid
    · split at hvalid
      · cases hvalid
      · cases hvalid
    · rename_i hnone
      have := find?_eq_none.mp hnone cfg hcfg
      simp [hfound] at this

/-- The sources of the links of a command. -/
def GraphOpenCmd.srcs (cmd : GraphOpenCmd) : List UInt32 :=
  cmd.modConnList.map ApmModuleConnCfg.srcModInstId

/-- The destinations of the links of a command. -/
def GraphOpenCmd.dsts (cmd : GraphOpenCmd) : List UInt32 :=
  cmd.modConnList.map ApmModuleConnCfg.dstModInstId

/-- A synchronous open begins in the first phase. -/
lemma Idle.phase_sync (h : Idle w)
    (hvalid : w.guValidateGraphOpenCmd cmd = .eok) (hcover : w.LimitsCover cmd) :
    On (Phase w.next cmd cmd.srcs cmd.dsts) w := by
  have hasync : w.portView.async = none := by simp only [GuWorld.portView, h.2, Option.map_none]
  have hmods : w.portView.openModules = w.modules := by
    unfold PortView.openModules PortView.openSgs
    rw [hasync]
    rfl
  refine ⟨Inv.of_sync h.1.ins h.1.outs h.1.sgs hasync, le_rfl, ?_, ?_⟩
  · intro m hm _
    rw [hmods] at hm
    exact ⟨not_mem_newIids hvalid m hm, hcover m hm⟩
  · intro m hm hle
    rw [hmods] at hm
    obtain ⟨sg, hsg, hm⟩ := mem_flatMap.mp hm
    exact absurd ((h.1.sgs sg hsg).2 m hm) hle.not_gt

/-- The graph of an asynchronous open, at its start. -/
def GuWorld.startAsync (w : GuWorld) : GuWorld :=
  { w with asyncGu := some ⟨Gu.empty, []⟩ }

/-- An asynchronous open starts within budget if its links fit. -/
lemma Idle.phase_async (h : Idle w) (hfit : w.LinksFit cmd) :
    On (Phase w.next cmd cmd.srcs cmd.dsts) w.startAsync := by
  have hbudget : ∀ {t : PortTable} {iids : List UInt32}, t.Ok w.next →
      (∀ m ∈ w.modules, w.moduleGuStatus m ≠ .new → t.Room m (w.portView.links iids m)) →
      PortView.Budget w.next w.moduleGuStatus (w.portView.links iids) t [] := by
    intro t iids ht hroom
    refine ⟨nodup_nil, by simp, by simp, fun _ _ => rfl, ?_⟩
    intro m hm
    by_cases hmem : m ∈ w.modules
    · exact (hroom m hmem hm).imp (fun hfull => ⟨hfull, rfl⟩) fun hfits => hfits
    · -- no link leads to a module outside the graph
      have hzero : w.portView.links iids m = 0 := by
        refine countP_eq_zero.mpr ?_
        intro iid _ hfind
        exact hmem (mem_of_find?_eq_some (of_decide_eq_true hfind))
      right
      rw [hzero]
      exact ht.limit m
  have hfrom : ∀ m, w.portView.links cmd.srcs m = w.linksFrom cmd m := by
    intro m
    exact countP_map
  have hto : ∀ m, w.portView.links cmd.dsts m = w.linksTo cmd m := by
    intro m
    exact countP_map
  have hinv : Inv cmd.srcs cmd.dsts w.startAsync.portView := by
    refine ⟨h.1.ins, h.1.outs, h.1.sgs, ?_, ?_, ?_⟩
    · rintro a ⟨⟩ sg hsg
      cases hsg
    · rintro a ⟨⟩
      refine hbudget h.1.ins fun m hm hold => ?_
      rw [hto]
      exact (hfit m hm hold).1
    · rintro a ⟨⟩
      refine hbudget h.1.outs fun m hm hold => ?_
      rw [hfrom]
      exact (hfit m hm hold).2
  refine ⟨hinv, le_rfl, ?_, ?_⟩
  · intro m hm
    cases hm
  · intro m hm
    cases hm

/-- An open builds its part, or fails with what it has. -/
lemma graphOpen_pended (env : OpenEnv) (cmd : GraphOpenCmd) (base : Addr) :
    Triple (On (Phase base cmd cmd.srcs cmd.dsts)) (graphOpen env cmd) (fun _ => Pended) Pended := by
  refine Triple.bind ((guCreateGraph_on env cmd base).post
    (fun _ _ h => Inv.pended h) fun _ h => Inv.pended h) fun _ => Triple.modify ?_
  exact fun _ h => Pended.genTopoCreateModules h

/-- An open stays what it is, synchronous or not. -/
lemma graphOpen_leaves_isAsync (env : OpenEnv) (cmd : GraphOpenCmd) :
    Leaves isAsync (graphOpen env cmd) := by
  refine Leaves.bind (guCreateGraph_leaves_isAsync env cmd) fun _ => Leaves.modify fun w => ?_
  unfold isAsync
  rw [(genTopoCreateModules_portView w).1]

section

variable (env : OpenEnv) (h : Idle w) (hvalid : w.guValidateGraphOpenCmd cmd = .eok)
include h hvalid

/-- After a synchronous open the limits are kept. -/
lemma graphOpen_idle (hcover : w.LimitsCover cmd) : Idle (endState (graphOpen env cmd) w) := by
  have hpended := (graphOpen_pended env cmd w.next).endState (h.phase_sync hvalid hcover)
  refine hpended.idle ?_
  have hasync := graphOpen_leaves_isAsync env cmd w
  simpa [isAsync, GuWorld.portView, h.2] using hasync

/-- An asynchronous open, successful or not. -/
lemma graphOpenAsync_idle
    (hcond : if w.gu.numSubgraphs = 0 then w.LimitsCover cmd else w.LinksFit cmd) :
    Idle (endState (graphOpenAsync env cmd) w) := by
  have hprepare : Triple (· = w) guPrepareAsyncCreate
      (fun _ => On (Phase w.next cmd cmd.srcs cmd.dsts)) Idle := by
    refine Triple.get_bind fun w' hw' => ?_
    subst hw'
    refine Triple.ite (fun hsome => ?_) fun _ => Triple.ite (fun hzero => ?_) fun hzero => ?_
    · rw [h.2] at hsome
      cases hsome
    · rw [if_pos hzero] at hcond
      refine Triple.pure ?_
      rintro w'' ⟨rfl, -⟩
      exact h.phase_sync hvalid hcond
    · rw [if_neg hzero] at hcond
      let Same (v : GuWorld) : Prop := ∃ mallocs, v = { w' with mallocs := mallocs }
      have hmalloc : Triple (fun v => v = w' ∧ v = w') malloc (fun _ => Same) Same := by
        refine Triple.get_bind fun v _ =>
          Triple.bind (Triple.modify ?_) fun _ =>
            Triple.ite (fun _ => Triple.pure fun _ h => h) fun _ => Triple.throw fun _ h => h
        rintro v' ⟨-, rfl, -⟩
        exact ⟨_, rfl⟩
      refine (Triple.bind (hmalloc.exits ?_) fun _ =>
        Triple.modify ?_)
      · rintro v ⟨mallocs, rfl⟩
        exact h.of_portView rfl
      · rintro v ⟨mallocs, rfl⟩
        exact h.phase_async hcond
  have hrun : Triple (· = w) (graphOpenAsync env cmd) (fun _ => Idle) Idle := by
    refine Triple.bind hprepare fun _ => Triple.bind ?_ fun _ =>
      Triple.bind guFinishAsyncCreate_idle fun _ =>
        Triple.modify fun _ h => Idle.genTopoCreateModules h
    exact (graphOpen_pended env cmd w.next).onError fun _ h => guFinishAsyncCreate_idle.endState h
  exact hrun.endState rfl

end

/-- The preparation of a clean-up leaves the ports alone. -/
lemma prepareCleanup_portView (w : GuWorld) (cmd : GraphOpenCmd) :
    (w.guPrepareCleanupForGraphOpenFailure cmd).portView = w.portView := by
  have hsg : ∀ (w : GuWorld) (cfg : ApmSubGraphCfg),
      (w.prepareCleanupSg cfg).portView = w.portView := by
    intro w cfg
    unfold GuWorld.prepareCleanupSg
    split
    · rfl
    · rfl
  have hconn : ∀ (w : GuWorld) (conn : ApmModuleConnCfg),
      (w.prepareCleanupConn conn).portView = w.portView := by
    intro w conn
    unfold GuWorld.prepareCleanupConn
    split
    · rfl
    · split
      · rfl
      · split
        · rfl
        · rfl
    · split
      · rfl
      · split
        · rfl
        · rfl
    · rfl
  have hport : ∀ (w : GuWorld) (p : Addr) (iid port : UInt32),
      (w.prepareCleanupCtrlPort p iid port).portView = w.portView := by
    intro w p iid port
    unfold GuWorld.prepareCleanupCtrlPort
    split
    · rfl
    · split
      · rfl
      · rfl
  have hlink : ∀ (w : GuWorld) (link : ApmModuleCtrlLinkCfg),
      (w.prepareCleanupCtrlLink link).portView = w.portView := by
    intro w link
    unfold GuWorld.prepareCleanupCtrlLink
    split
    · exact hport _ _ _ _
    · exact hport _ _ _ _
    · rfl
  exact (foldl_portView hlink _ _).trans ((foldl_portView hconn _ _).trans (foldl_portView hsg _ _))

/-- The limits are kept after every command that meets the condition. -/
lemma step_idle {op : GuOp} (h : Idle w) (hcond : w.OpenCond op) : Idle (w.step op) := by
  cases op with
  | openSync env cmd mallocs =>
    change Idle (w.validated cmd (graphOpen env cmd) mallocs)
    unfold GuWorld.validated
    split
    · exact graphOpen_idle env (h.of_portView rfl) ‹_›
        (hcond ‹_›)
    · exact h
  | openAsync env cmd mallocs =>
    change Idle (w.validated cmd (graphOpenAsync env cmd) mallocs)
    unfold GuWorld.validated
    split
    · exact graphOpenAsync_idle env (h.of_portView rfl) ‹_›
        (hcond ‹_›)
    · exact h
  | prepareCleanup cmd => exact h.of_portView (prepareCleanup_portView w cmd)
  | markClosing sgs extIns extOuts extCtrls => exact h.of_portView rfl
  | destroy all => exact guDestroyGraph_idle all h

/-- At first there are no ports. -/
lemma init_idle : Idle GuWorld.init := by
  have hok : ∀ {next : Addr}, (GuWorld.init.ins).Ok next :=
    ⟨fun _ => rfl, fun _ => List.Pairwise.nil, fun _ p hp => absurd hp not_mem_nil,
      fun _ => le_rfl, fun _ => Nat.zero_le _, fun _ p hp => absurd hp not_mem_nil,
      fun _ p hp => absurd hp not_mem_nil⟩
  refine ⟨⟨hok, hok, ?_⟩, rfl⟩
  intro sg hsg
  cases hsg

end Commands

/-- **Port limits.** Along every run of opens and closes whose opens meet the condition,
every module has as many ports as its counters say, within its limits and at indices below them. -/
theorem portLimits_along_of_openCond (ops : List GuOp)
    (hops : Meets GuWorld.step GuWorld.OpenCond GuWorld.init ops) :
    Along GuWorld.step GuWorld.PortLimits GuWorld.init ops := by
  refine Along.mono (fun _ => Idle.portLimits) ?_
  exact along_of_meets (fun _ _ => step_idle) init_idle hops

/-! ## Two links to one free port -/

/-- A module database that knows every module. -/
def knownModules : OpenEnv where
  amdb := fun _ => ⟨true, AMDB_INTERFACE_TYPE_CAPI, 3, true, false, none⟩
  island := false
  hostDomainId := 2

/-- The first open: a source in a subgraph of its own, with the given limit on its outputs. -/
def openSource (maxOpPort : UInt32) : GraphOpenCmd where
  sgCfgList := [⟨0xA1, []⟩]
  modList := [⟨0xA1, [⟨0x07001234, 0x4001⟩]⟩]
  modPropCfgList := [⟨0x4001, [.portInfo 8 0 maxOpPort]⟩]
  modConnList := []
  modCtrlLinkCfgList := []
  imclPeerDomainInfo := []

/-- The second open: a module with two inputs in another subgraph, both linked to the source. -/
def openTwoLinks : GraphOpenCmd where
  sgCfgList := [⟨0xA2, []⟩]
  modList := [⟨0xA2, [⟨0x07001235, 0x4002⟩]⟩]
  modPropCfgList := [⟨0x4002, [.portInfo 8 2 0]⟩]
  modConnList := [⟨0x4001, 1, 0x4002, 2⟩, ⟨0x4001, 3, 0x4002, 4⟩]
  modCtrlLinkCfgList := []
  imclPeerDomainInfo := []

/-- The two opens, the second one in parallel to the data path. -/
def twoOpens (maxOpPort : UInt32) : List GuOp :=
  [.openSync knownModules (openSource maxOpPort) [], .openAsync knownModules openTwoLinks []]

/-- **The limit is overrun.** A running source with room for one output port gets two. -/
theorem not_portLimits_along : ¬ ∀ ops, Along GuWorld.step GuWorld.PortLimits GuWorld.init ops := by
  intro h
  have hlimits := (h (twoOpens 1)).last 1 (by decide +kernel)
  have hover : ¬ (run GuWorld.step GuWorld.init (twoOpens 1)).outs.num 1 ≤
      (run GuWorld.step GuWorld.init (twoOpens 1)).outs.max 1 := by
    decide +kernel
  exact hover hlimits.2.num_le

/-- With room for both links the source gets its two ports and the limits hold along the same
two opens. -/
theorem portLimits_along_twoOpens : (run GuWorld.step GuWorld.init (twoOpens 2)).outs.num 1 = 2 ∧
      Along GuWorld.step GuWorld.PortLimits GuWorld.init (twoOpens 2) :=
  ⟨by decide +kernel, portLimits_along_of_openCond (twoOpens 2) (by decide +kernel)⟩

end AudioReach
