import AudioReach.ParallelCmds.Bookkeeping

/-!
# Commands that clash do not run in parallel

A command that arrives is checked against all pending ones, and a deferred one again before
it is resumed.  Which of the two commands is the current one in the check depends on the
order of arrival, so a pair is kept apart in every order only if the check sees it from both
sides.  `Apart` is the invariant: pairs that should not run in parallel are seen, and no two
of them are active.

A proxy command is the exception: it runs in spite of an overlap when there is no
`GRAPH_CLOSE` in parallel.  Such commands are marked exempt.
-/

namespace AudioReach

open CmdCtrl AudioReach.Library ApmCmds
open List

/-- No two commands that are related by `R` are active, exempt proxy commands apart. -/
def NeverBothActive (R : CmdCtrl → CmdCtrl → Prop) (s : CmdRun) : Prop :=
  ∀ i j, s.Active i → s.Active j → i ≠ j → i ∉ s.exempt → j ∉ s.exempt →
    (s.cmd i).cmdOpcode.isGraphMgmt = true → (s.cmd j).cmdOpcode.isGraphMgmt = true →
      ¬ R (s.cmd i) (s.cmd j)

/-- Pending commands that are related by `R` see each other. -/
def AllSeen (conns : List SgConn) (R : CmdCtrl → CmdCtrl → Prop) (s : CmdRun) : Prop :=
  ∀ i ∈ s.accepted, ∀ j ∈ s.accepted, i ≠ j → R (s.cmd i) (s.cmd j) → (s.cmd i).Sees conns (s.cmd j)

/-- A command that arrives and a pending one that are related by `R` see each other. -/
def ArrivesSeen (conns : List SgConn) (R : CmdCtrl → CmdCtrl → Prop) (s : CmdRun) : CmdCall → Prop
  | .arrive cmd _ _ => ∀ j ∈ s.accepted, R (cmd.toCtrl s.apm.freeSlot) (s.cmd j) →
      (cmd.toCtrl s.apm.freeSlot).Sees conns (s.cmd j) ∧
        (s.cmd j).Sees conns (cmd.toCtrl s.apm.freeSlot)
  | .arriveFailed _ => True
  | .finish _ => True

/-- The command runs although it may overlap: it should wait, but no list node is to be had,
or it is a proxy command that is not direct, with a `GRAPH_CLOSE` pending. -/
def RunsUnchecked (n : NumMaxParallelCmd) (s : CmdRun) (cmd : NewCmd) (direct allocated : Bool) :
    Prop :=
  allocated = false ∨ (cmd.cmdOpcode.isProxyGraphMgmt = true ∧ direct = false ∧
    s.apm.graphCloseCmdActive n = true)

/-- A command that runs unchecked is not related by `R` to a pending one. -/
def UncheckedApart (n : NumMaxParallelCmd) (R : CmdCtrl → CmdCtrl → Prop) (s : CmdRun) :
    CmdCall → Prop
  | .arrive cmd direct allocated => RunsUnchecked n s cmd direct allocated →
      ∀ j ∈ s.accepted, ¬ R (cmd.toCtrl s.apm.freeSlot) (s.cmd j)
  | .arriveFailed _ => True
  | .finish _ => True

variable {n : NumMaxParallelCmd} {conns : List SgConn} {R : CmdCtrl → CmdCtrl → Prop}

/-! ## Related commands see each other -/

lemma allSeen_init : AllSeen conns R CmdRun.init := by
  intro i hi
  exact absurd hi not_mem_nil

variable {r s s' : CmdRun} {call : CmdCall} {P : CmdCtrl → CmdCtrl → Prop}

lemma AllSeen.fewer (h : AllSeen conns R s) (hfewer : Fewer r s) : AllSeen conns R r := by
  intro i hi j hj hij hR
  rw [hfewer.cmd i hi, hfewer.cmd j hj] at hR ⊢
  exact h i (hfewer.accepted i hi) j (hfewer.accepted j hj) hij hR

/-- A new command sees the pending ones and is seen by them. -/
lemma AllSeen.arrived (hsymm : ∀ c l, R c l → R l c) {cmd : NewCmd}
    {direct allocated : Bool} {apm : ApmCmds} (hbooked : Booked n s) (h : AllSeen conns R s)
    (halloc : s.apm.allocateCmdCtrlObj n cmd = some apm)
    (hseen : ArrivesSeen conns R s (.arrive cmd direct allocated))
    (harrived : Arrived n conns s cmd direct allocated apm s') : AllSeen conns R s' := by
  have hne : ∀ j ∈ s.accepted, j ≠ s.apm.freeSlot := by
    rintro j hj rfl
    exact (hbooked.freeSlot_of_alloc halloc).2 hj
  intro i hi j hj hij hR
  rw [harrived.accepted, mem_append, mem_singleton] at hi hj
  rcases hi with hi | rfl
  · rw [harrived.cmd_of_ne halloc (hne i hi)] at hR ⊢
    rcases hj with hj | rfl
    · rw [harrived.cmd_of_ne halloc (hne j hj)] at hR ⊢
      exact h i hi j hj hij hR
    · rw [harrived.cmd_self halloc] at hR ⊢
      exact (hseen i hi (hsymm _ _ hR)).2
  · rw [harrived.cmd_self halloc] at hR ⊢
    have hj := hj.resolve_right (Ne.symm hij)
    rw [harrived.cmd_of_ne halloc (hne j hj)] at hR ⊢
    exact (hseen j hj hR).1

lemma AllSeen.reevaluated (hpeers : ∀ a b, Adjacent conns a b → b ≠ 0)
    (hbooked : Booked n r) (h : AllSeen conns R r) (hbusy : r.apm.NoneBusy n conns) :
    AllSeen conns R (r.reevaluated n conns) := by
  rcases hbooked.reevaluated_cases hpeers hbusy with heq | ⟨pre, i, post, -, heq, -⟩
  · rw [heq]
    exact h
  · rw [heq]
    exact h

/-- The invariant of the runs: the books are kept and related commands see each other. -/
structure BookedSeen (n : NumMaxParallelCmd) (conns : List SgConn)
    (R : CmdCtrl → CmdCtrl → Prop) (s : CmdRun) : Prop where
  booked : Booked n s
  seen : AllSeen conns R s

lemma BookedSeen.cmdStep (hpeers : ∀ a b, Adjacent conns a b → b ≠ 0)
    (hsymm : ∀ c l, R c l → R l c) (h : BookedSeen n conns R s)
    (hvalid : ArrivesValid call) (hbusy : NoneBusyIn n conns s call)
    (hseen : ArrivesSeen conns R s call) : BookedSeen n conns R (cmdStep n conns s call) := by
  refine ⟨h.booked.cmdStep hpeers hvalid hbusy, ?_⟩
  have hstepped := stepped_cmdStep hpeers h.booked hvalid
  generalize AudioReach.cmdStep n conns s call = s' at hstepped
  cases hstepped with
  | refused => exact h.seen
  | arrived halloc harrived => exact h.seen.arrived hsymm h.booked halloc hseen harrived
  | ended hfewer hnext hreevaluates =>
    exact (h.seen.fewer hfewer).reevaluated hpeers hnext (hbusy _ hreevaluates)

/-! ## Related commands are not both active -/

lemma neverBothActive_init : NeverBothActive R CmdRun.init := by
  intro i j hi
  exact absurd hi.1 not_mem_nil

lemma NeverBothActive.fewer (h : NeverBothActive R s) (hfewer : Fewer r s) :
    NeverBothActive R r := by
  have hactive : ∀ j, r.Active j → s.Active j := fun j hj =>
    ⟨hfewer.accepted j hj.1, hfewer.deferred ▸ hj.2⟩
  intro i j hi hj hij hxi hxj hgi hgj hR
  rw [hfewer.cmd i hi.1] at hgi hR
  rw [hfewer.cmd j hj.1] at hgj hR
  exact h i j (hactive i hi) (hactive j hj) hij
    (fun hex => hxi (hfewer.exempt i hi.1 hex)) (fun hex => hxj (hfewer.exempt j hj.1 hex))
    hgi hgj hR

lemma NeverBothActive.extend (hsymm : ∀ c l, R c l → R l c) {i : ℕ} (h : NeverBothActive R s)
    (hcmd : ∀ j, j ≠ i → s'.cmd j = s.cmd j) (hactive : ∀ j, j ≠ i → s'.Active j → s.Active j)
    (hexempt : ∀ j ∈ s.exempt, j ∈ s'.exempt)
    (hnew : s'.Active i → i ∉ s'.exempt → (s'.cmd i).cmdOpcode.isGraphMgmt = true →
      ∀ j, j ≠ i → s.Active j → ¬ R (s'.cmd i) (s.cmd j)) : NeverBothActive R s' := by
  intro j k hj hk hjk hxj hxk hgj hgk hR
  by_cases hji : j = i
  · subst hji
    rw [hcmd k (Ne.symm hjk)] at hR
    exact hnew hj hxj hgj k (Ne.symm hjk) (hactive k (Ne.symm hjk) hk) hR
  · rw [hcmd j hji] at hR hgj
    by_cases hki : k = i
    · subst hki
      exact hnew hk hxk hgk j hji (hactive j hji hj) (hsymm _ _ hR)
    · rw [hcmd k hki] at hR hgk
      exact h j k (hactive j hji hj) (hactive k hki hk) hjk (fun hex => hxj (hexempt j hex))
        (fun hex => hxk (hexempt k hex)) hgj hgk hR

lemma not_rel_of_not_blocked {i j : ℕ} (hbooked : Booked n s) (hj : j ∈ s.accepted) (hij : j ≠ i)
    (hseen : R (s.cmd i) (s.cmd j) → (s.cmd i).Sees conns (s.cmd j))
    (hfree : ¬ Blocked n conns s.apm.cmdCtrlList i) : ¬ R (s.cmd i) (s.cmd j) := by
  intro hR
  exact hfree ⟨j, hbooked.lt j hj, ⟨(hbooked.pending j).mpr hj, hij⟩, Or.inr (hseen hR)⟩

/-- A new command is apart from the active ones, or waits, or is exempt. -/
lemma NeverBothActive.arrived (hsymm : ∀ c l, R c l → R l c) {cmd : NewCmd}
    {direct allocated : Bool} {apm : ApmCmds} (hbooked : Booked n s) (h : NeverBothActive R s)
    (halloc : s.apm.allocateCmdCtrlObj n cmd = some apm)
    (hvalid : (cmd.toCtrl s.apm.freeSlot).ValidIds)
    (hseen : ArrivesSeen conns R s (.arrive cmd direct allocated))
    (hunchecked : UncheckedApart n R s (.arrive cmd direct allocated))
    (harrived : Arrived n conns s cmd direct allocated apm s') : NeverBothActive R s' := by
  have hactive : ∀ j, j ≠ s.apm.freeSlot → s'.Active j → s.Active j := by
    rintro j hne ⟨hacc, hnot⟩
    rw [harrived.accepted, mem_append, mem_singleton] at hacc
    exact ⟨hacc.resolve_right hne, fun hmem => hnot (harrived.mem_deferred halloc hmem)⟩
  refine h.extend hsymm (fun j hne => harrived.cmd_of_ne halloc hne) hactive
    harrived.mem_exempt ?_
  rw [harrived.cmd_self halloc]
  intro hself hexempt hgm j hne hj
  cases harrived with
  | active hwhy =>
    rcases hwhy with hnot | halone | hfree
    · change cmd.cmdOpcode.isGraphMgmt = true at hgm
      rw [hnot] at hgm
      cases hgm
    · rw [CmdRun.Active, halone] at hj
      exact absurd hj.1 not_mem_nil
    · have hnext : Booked n (s.accept apm s.exempt) := hbooked.accept halloc hvalid
      have hmem : j ∈ (s.accept apm s.exempt).accepted := mem_append_left _ hj.1
      rw [← cmd_accept_self halloc, ← cmd_accept_of_ne halloc hne]
      refine not_rel_of_not_blocked hnext hmem hne (fun hR => ?_) hfree
      rw [cmd_accept_self halloc, cmd_accept_of_ne halloc hne] at hR ⊢
      exact (hseen j hj.1 hR).1
  | failed hfail => exact hunchecked (Or.inl hfail) j hj.1
  | exempt _ => exact absurd mem_cons_self hexempt
  | unchecked hproxy hdirect hclose =>
    exact hunchecked (Or.inr ⟨hproxy, hdirect, hclose⟩) j hj.1
  | deferred _ => exact absurd (mem_append_right _ mem_cons_self) hself.2

section

variable (hpeers : ∀ a b, Adjacent conns a b → b ≠ 0) (hsymm : ∀ c l, R c l → R l c)
include hpeers hsymm

/-- The resumed command is apart from the active ones. -/
lemma NeverBothActive.reevaluated (hbooked : Booked n r) (hseen : AllSeen conns R r)
    (h : NeverBothActive R r) (hbusy : r.apm.NoneBusy n conns) :
    NeverBothActive R (r.reevaluated n conns) := by
  rcases hbooked.reevaluated_cases hpeers hbusy with heq | ⟨pre, i, post, hlist, heq, hwhich⟩
  · rw [heq]
    exact h
  · have hi : i ∈ r.accepted := by
      refine hbooked.order.subset ?_
      rw [hlist]
      exact mem_append_right _ mem_cons_self
    rw [heq]
    refine h.extend hsymm (i := i) (fun j _ => rfl) ?_ (fun j hj => hj) ?_
    · rintro j hji ⟨hacc, hnot⟩
      refine ⟨hacc, fun hmem => hnot ?_⟩
      exact (mem_erase_of_ne hji).mpr hmem
    · intro _ _ _ j hji hja
      rcases hwhich with ⟨hall, -⟩ | ⟨-, -, hfree⟩
      · -- nothing else is active
        have hdeferred := hall j (hbooked.lt j hja.1) ((hbooked.pending j).mpr hja.1)
        exact absurd hdeferred hja.2
      · exact not_rel_of_not_blocked hbooked hja.1 hji (hseen i hi j hja.1 (Ne.symm hji)) hfree

lemma NeverBothActive.cmdStep (h : NeverBothActive R s) (hs : BookedSeen n conns R s)
    (hvalid : ArrivesValid call) (hbusy : NoneBusyIn n conns s call)
    (hseen : ArrivesSeen conns R s call) (hunchecked : UncheckedApart n R s call) :
    NeverBothActive R (cmdStep n conns s call) := by
  have hstepped := stepped_cmdStep hpeers hs.booked hvalid
  generalize AudioReach.cmdStep n conns s call = s' at hstepped
  cases hstepped with
  | refused => exact h
  | arrived halloc harrived =>
    exact h.arrived hsymm hs.booked halloc hvalid hseen hunchecked harrived
  | ended hfewer hnext hreevaluates =>
    exact (h.fewer hfewer).reevaluated hpeers hsymm hnext (hs.seen.fewer hfewer)
      (hbusy _ hreevaluates)

end

/-! ## What has to be seen -/

lemma CmdCtrl.Conflicts.cases {c l : CmdCtrl} (h : c.Conflicts conns l) :
    c.Clashes conns l ∨ c.Shared l ∨ Beside conns c.contPortHdlSgList l.contPortHdlSgList := by
  obtain ⟨a, b, ha, hb, rfl | hab⟩ := h
  · exact Or.inr (Or.inl ⟨a, ha, hb⟩)
  · rcases ha with ha | ha
    · exact Or.inl (Or.inr ⟨a, b, ha, hb, Or.inr hab⟩)
    · rcases hb with hb | hb
      · exact Or.inl (Or.inl ⟨a, b, Or.inr ha, hb, Or.inr hab⟩)
      · exact Or.inr (Or.inr ⟨a, ha, b, hb, hab⟩)

section

variable {c l : CmdCtrl} (hsymm : ∀ a b, Adjacent conns a b → Adjacent conns b a)
include hsymm

lemma CmdCtrl.Clashes.symm (c l : CmdCtrl) (h : c.Clashes conns l) : l.Clashes conns c := by
  rcases h with ⟨a, b, ha, hb, hab⟩ | ⟨a, b, ha, hb, hab⟩
  · exact Or.inr ⟨b, a, hb, ha, hab.imp Eq.symm (hsymm a b)⟩
  · exact Or.inl ⟨b, a, hb, ha, hab.imp Eq.symm (hsymm a b)⟩

lemma CmdCtrl.Conflicts.symm (c l : CmdCtrl) (h : c.Conflicts conns l) : l.Conflicts conns c := by
  obtain ⟨a, b, ha, hb, hab⟩ := h
  exact ⟨b, a, hb, ha, hab.imp Eq.symm (hsymm a b)⟩

lemma CmdCtrl.Mutual.sees_comm (h : c.Mutual conns l) (hsees : c.Sees conns l) :
    l.Sees conns c := by
  rw [sees_symm hsymm c l]
  rcases hsees with hshared | hdirect | hlinked
  · exact Or.inl hshared
  · exact Or.inr (Or.inl hdirect)
  · exact h.imp_right fun h => h.imp_right fun hlinks => hlinks.mp hlinked

lemma CmdCtrl.Mutual.sees_of_conflicts (h : c.Mutual conns l) (hlinks : c.LinksSeen conns l)
    (hconflicts : c.Conflicts conns l) : c.Sees conns l ∧ l.Sees conns c := by
  rcases hconflicts.cases with hclash | hshared | hbeside
  · exact h.sees hsymm hclash
  · exact ⟨Or.inl hshared, h.sees_comm hsymm (Or.inl hshared)⟩
  · have hsees := hlinks hbeside
    exact ⟨hsees, h.sees_comm hsymm hsees⟩

end

/-- An event in good order: the ids of a command that arrives are valid, it and each pending
command satisfy `P`, and no deferred command is found busy when a command ends. -/
def Orderly (n : NumMaxParallelCmd) (conns : List SgConn) (P : CmdCtrl → CmdCtrl → Prop)
    (s : CmdRun) (call : CmdCall) : Prop :=
  ArrivesValid call ∧ NoneBusyIn n conns s call ∧
    match call with
    | .arrive cmd _ _ => ∀ j ∈ s.accepted, P (cmd.toCtrl s.apm.freeSlot) (s.cmd j)
    | _ => True

lemma Orderly.arrivesSeen (hP : ∀ c l, P c l → R c l → c.Sees conns l ∧ l.Sees conns c)
    (h : Orderly n conns P s call) : ArrivesSeen conns R s call := by
  cases call with
  | arrive cmd direct allocated =>
    intro j hj hR
    exact hP _ _ (h.2.2 j hj) hR
  | arriveFailed _ => trivial
  | finish _ => trivial

section

variable (conns : ConnList) (hsymm : ∀ c l, R c l → R l c)
  (hP : ∀ c l, P c l → R c l → c.Sees conns.conns l ∧ l.Sees conns.conns c)
include hsymm hP

lemma BookedSeen.orderly (h : BookedSeen n conns.conns R s) (hcall : Orderly n conns.conns P s call)
    : BookedSeen n conns.conns R (AudioReach.cmdStep n conns.conns s call) :=
  h.cmdStep conns.peer_ne_zero hsymm hcall.1 hcall.2.1 (hcall.arrivesSeen hP)

lemma neverBothActive_along {calls : List CmdCall}
    (hcalls : Meets (cmdStep n conns.conns) (fun s call => Orderly n conns.conns P s call ∧
      UncheckedApart n R s call) CmdRun.init calls)
    : Along (cmdStep n conns.conns) (NeverBothActive R) CmdRun.init calls := by
  have halong : Along (cmdStep n conns.conns)
      (fun s => BookedSeen n conns.conns R s ∧ NeverBothActive R s) CmdRun.init calls := by
    refine along_of_meets ?_ ⟨⟨booked_init, allSeen_init⟩, neverBothActive_init⟩ hcalls
    rintro s call ⟨hs, hapart⟩ ⟨horderly, hunchecked⟩
    exact ⟨hs.orderly conns hsymm hP horderly, hapart.cmdStep conns.peer_ne_zero hsymm hs
      horderly.1 horderly.2.1 (horderly.arrivesSeen hP) hunchecked⟩
  exact halong.mono fun s hs => hs.2

end

/-- **Parallel commands and what they exclude.** For two commands, the check gives the same
answer in both orders and reports every pair that clashes exactly when the links of the two are
mutual.  In every run whose arrivals are in that order no two commands that clash are both
active; and if besides adjacent links are seen, no two commands that touch the same or
adjacent sub-graphs are. -/
theorem parallelCmds_exclude_iff_mutual (n : NumMaxParallelCmd) (conns : ConnList) :
    (∀ c l : CmdCtrl, c.ValidIds → l.ValidIds →
      (c.Excludes conns.conns l ↔ c.Mutual conns.conns l)) ∧
    (∀ calls : List CmdCall, Meets (cmdStep n conns.conns)
        (fun s call => Orderly n conns.conns (fun c l => c.Mutual conns.conns l) s call ∧
          UncheckedApart n (fun c l => c.Clashes conns.conns l) s call) CmdRun.init calls →
      Along (cmdStep n conns.conns) (NeverBothActive fun c l => c.Clashes conns.conns l)
        CmdRun.init calls) ∧
    ∀ calls : List CmdCall, Meets (cmdStep n conns.conns) (fun s call => Orderly n conns.conns
            (fun c l => c.Mutual conns.conns l ∧ c.LinksSeen conns.conns l) s call ∧
          UncheckedApart n (fun c l => c.Conflicts conns.conns l) s call) CmdRun.init calls →
      Along (cmdStep n conns.conns) (NeverBothActive fun c l => c.Conflicts conns.conns l)
        CmdRun.init calls := by
  refine ⟨fun c l hc hl => excludes_iff conns hc hl, fun calls hcalls => ?_, fun calls hcalls => ?_⟩
  · exact neverBothActive_along conns (Clashes.symm conns.symm)
      (fun c l hmutual hclash => hmutual.sees conns.symm hclash) hcalls
  · exact neverBothActive_along conns (Conflicts.symm conns.symm)
      (fun c l h hconflicts => h.1.sees_of_conflicts conns.symm h.2 hconflicts) hcalls

/-! ### Fixed commands -/

/-- Closes sub-graph 1 and a link at sub-graph 2. -/
def closeWithLink : NewCmd := ⟨.graphClose, [1], [2]⟩

/-- Starts the neighbour of that link. -/
def startNeighbour : NewCmd := ⟨.graphStart, [3], []⟩

lemma closeWithLink_clashes :
    (closeWithLink.toCtrl 1).Clashes connList23.conns (startNeighbour.toCtrl 0) :=
  Or.inl ⟨2, 3, Or.inr mem_cons_self, mem_cons_self, Or.inr mem_cons_self⟩

/-- The check does not see the neighbour of a link from the side of the link: the answer
depends on the order, and when the neighbour is started first both commands run. -/
theorem not_parallelCmds_exclude :
    (¬ ∀ (conns : ConnList) (c l : CmdCtrl), c.ValidIds → l.ValidIds → c.Excludes conns.conns l) ∧
    ¬ ∀ (n : NumMaxParallelCmd) (conns : ConnList) (calls : List CmdCall),
      Meets (cmdStep n conns.conns) (fun _ call => ArrivesValid call) CmdRun.init calls →
      Along (cmdStep n conns.conns) (NeverBothActive fun c l => c.Clashes conns.conns l)
        CmdRun.init calls := by
  constructor
  · intro hall
    have hpair := hall connList23 (closeWithLink.toCtrl 1) (startNeighbour.toCtrl 0)
      (by simp [ValidIds, Touches, NewCmd.toCtrl, closeWithLink])
      (by simp [ValidIds, Touches, NewCmd.toCtrl, startNeighbour])
    exact absurd hpair.1 (by decide)
  · intro hall
    have hrun := hall defaultNumMaxParallelCmd connList23
      [.arrive startNeighbour true true, .arrive closeWithLink true true]
      ⟨by simp [ArrivesValid, startNeighbour], by simp [ArrivesValid, closeWithLink], trivial⟩
    exact hrun.last 1 0 (by decide) (by decide) (by decide) (by decide) (by decide) (by decide)
      (by decide) closeWithLink_clashes

/-- Two commands for one sub-graph: the check is the same in both orders, and the second
command waits. -/
theorem parallelCmds_exclude_shared :
    (closeWithLink.toCtrl 0).Excludes connList23.conns (closeWithLink.toCtrl 1) ∧
    Along (cmdStep defaultNumMaxParallelCmd connList23.conns)
      (NeverBothActive fun c l => c.Conflicts connList23.conns l) CmdRun.init
      [.arrive closeWithLink true true, .arrive closeWithLink true true, .finish 0] := by
  obtain ⟨hpair, -, hruns⟩ := parallelCmds_exclude_iff_mutual defaultNumMaxParallelCmd connList23
  have hvalid : ∀ i, (closeWithLink.toCtrl i).ValidIds := by
    simp [ValidIds, Touches, NewCmd.toCtrl, closeWithLink]
  have hshared : ∀ i j, (closeWithLink.toCtrl i).Shared (closeWithLink.toCtrl j) := fun i j =>
    ⟨1, Or.inl mem_cons_self, Or.inl mem_cons_self⟩
  have harrives : ArrivesValid (.arrive closeWithLink true true) := by
    simp [ArrivesValid, closeWithLink]
  have hunchecked : ∀ s, ¬ RunsUnchecked defaultNumMaxParallelCmd s closeWithLink true true := by
    rintro s (h | ⟨h, -⟩)
    · cases h
    · cases h
  refine ⟨(hpair _ _ (hvalid 0) (hvalid 1)).mpr (Or.inl (hshared 0 1)), hruns _ ?_⟩
  refine ⟨⟨⟨harrives, ?_, fun j hj => absurd hj not_mem_nil⟩,
    fun h => absurd h (hunchecked _)⟩, ⟨⟨harrives, ?_, ?_⟩, fun h => absurd h (hunchecked _)⟩,
    ⟨⟨trivial, ?_, trivial⟩, trivial⟩, trivial⟩
  · intro r hr
    exact absurd hr (not_reevaluates_arrive rfl)
  · intro r hr
    exact absurd hr (not_reevaluates_arrive rfl)
  · intro j hj
    have hzero : j = 0 := mem_singleton.mp hj
    subst hzero
    exact ⟨Or.inl (hshared _ 0), fun _ => Or.inl (hshared _ 0)⟩
  · -- the second command is all that is left
    rintro r ⟨-, rfl⟩
    exact Or.inl (by decide)

end AudioReach
