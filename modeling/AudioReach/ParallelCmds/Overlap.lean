import AudioReach.ParallelCmds.Model

/-!
# What the overlap check of two commands sees

`apm_gm_cmd_check_sg_list_overlap` looks for a sub-graph that both commands touch, and for a
sub-graph that the current command *addresses directly* next to one that the other command
touches.  The neighbours of the sub-graphs that the current command reaches through links
are not looked at, so the check sees less from one side than from the other.  `Mutual` says
when both sides see the same; `excludes_iff` that the check does what it is for exactly then.
-/

namespace AudioReach

open List

/-- The connection list has the connection from `a` to `b`. -/
def Adjacent (conns : List SgConn) (a b : ℕ) : Prop :=
  (⟨some a, some b⟩ : SgConn) ∈ conns

/-- A connection list as the APM keeps it: each connection is there in both directions, and
no sub-graph has the id that the check refuses. -/
structure ConnList where
  /-- `sub_graph_conn_list_ptr`. -/
  conns : List SgConn
  symm : ∀ a b, Adjacent conns a b → Adjacent conns b a
  peer_ne_zero : ∀ a b, Adjacent conns a b → b ≠ 0

/-- Sub-graphs 2 and 3 are connected. -/
def connList23 : ConnList where
  conns := [⟨some 2, some 3⟩, ⟨some 3, some 2⟩]
  symm := by
    intro a b h
    simp only [Adjacent, mem_cons, SgConn.mk.injEq, Option.some.injEq, not_mem_nil, or_false] at h ⊢
    exact h.symm.imp (fun h => ⟨h.2, h.1⟩) (fun h => ⟨h.2, h.1⟩)
  peer_ne_zero := by
    intro a b h
    simp only [Adjacent, mem_cons, SgConn.mk.injEq, Option.some.injEq, not_mem_nil, or_false] at h
    omega

namespace CmdCtrl

/-- The command touches the sub-graph, directly or through a link. -/
def Touches (c : CmdCtrl) (a : ℕ) : Prop :=
  a ∈ c.cmdSgIdList ∨ a ∈ c.contPortHdlSgList

/-- All ids of the command are ids of sub-graphs. -/
def ValidIds (c : CmdCtrl) : Prop :=
  ∀ a, c.Touches a → a ≠ 0

variable (conns : List SgConn)

/-- Both commands touch one sub-graph. -/
def Shared (c l : CmdCtrl) : Prop :=
  ∃ a, c.Touches a ∧ l.Touches a

/-- A sub-graph of the first list is next to one of the second. -/
def Beside (as bs : List ℕ) : Prop :=
  ∃ a ∈ as, ∃ b ∈ bs, Adjacent conns a b

/-- What the check sees with `c` as the current command. -/
def Sees (c l : CmdCtrl) : Prop :=
  c.Shared l ∨ Beside conns c.cmdSgIdList l.cmdSgIdList ∨
    Beside conns c.cmdSgIdList l.contPortHdlSgList

/-- A sub-graph touched by one command equals, or is connected to, a sub-graph that the
other addresses directly. -/
def Clashes (c l : CmdCtrl) : Prop :=
  (∃ a b, c.Touches a ∧ b ∈ l.cmdSgIdList ∧ (a = b ∨ Adjacent conns a b)) ∨
    ∃ a b, a ∈ c.cmdSgIdList ∧ l.Touches b ∧ (a = b ∨ Adjacent conns a b)

/-- The commands touch the same or adjacent sub-graphs. -/
def Conflicts (c l : CmdCtrl) : Prop :=
  ∃ a b, c.Touches a ∧ l.Touches b ∧ (a = b ∨ Adjacent conns a b)

/-- Unless the commands share a sub-graph or address adjacent ones, a link of either is next
to what the other addresses, or no link is. -/
def Mutual (c l : CmdCtrl) : Prop :=
  c.Shared l ∨ Beside conns c.cmdSgIdList l.cmdSgIdList ∨
    (Beside conns c.cmdSgIdList l.contPortHdlSgList ↔
      Beside conns c.contPortHdlSgList l.cmdSgIdList)

/-- Two sub-graphs reached through links are adjacent only when the check sees the pair. -/
def LinksSeen (c l : CmdCtrl) : Prop :=
  Beside conns c.contPortHdlSgList l.contPortHdlSgList → c.Sees conns l

/-- What the check is for: the answer is the same with the commands exchanged, and an
overlap is reported whenever the commands clash. -/
def Excludes (c l : CmdCtrl) : Prop :=
  checkSgListOverlap conns c l = checkSgListOverlap conns l c ∧
    (c.Clashes conns l → checkSgListOverlap conns c l = (.eok, true))

instance (c : CmdCtrl) (a : ℕ) : Decidable (c.Touches a) :=
  inferInstanceAs (Decidable (_ ∨ _))

end CmdCtrl

open CmdCtrl

/-! ## The loops of the check -/

variable {conns : List SgConn} {c l : CmdCtrl}

lemma checkOverlapForSingleSgId_eq {tgt : ℕ} (h : tgt ≠ 0) (overlap : Bool) :
    checkOverlapForSingleSgId l tgt overlap = (.eok, overlap || decide (l.Touches tgt)) := by
  unfold checkOverlapForSingleSgId CmdCtrl.Touches
  by_cases hdirect : tgt ∈ l.cmdSgIdList
  · simp [h, hdirect]
  · by_cases hlinked : tgt ∈ l.contPortHdlSgList
    · simp [h, hdirect, hlinked]
    · simp [h, hdirect, hlinked]

/-- The loop over the peers of a sub-graph finds those that the other command touches. -/
lemma checkPeers_eq (tgt : ℕ) (hvalid : ∀ a b, Adjacent conns a b → b ≠ 0) :
    (checkPeers l tgt conns false).1 = .eok ∧
      ((checkPeers l tgt conns false).2 = true ↔ ∃ b, Adjacent conns tgt b ∧ l.Touches b) := by
  induction conns with
  | nil => simp [checkPeers, Adjacent]
  | cons conn conns ih =>
    have hrest := ih fun a b hab => hvalid a b (mem_cons_of_mem _ hab)
    obtain ⟨self, peer⟩ := conn
    -- a node without both ends, or of another sub-graph, is passed over
    have hskip : (¬ ∃ b, self = some tgt ∧ peer = some b) →
        ((∃ b, Adjacent (⟨self, peer⟩ :: conns) tgt b ∧ l.Touches b) ↔
          ∃ b, Adjacent conns tgt b ∧ l.Touches b) := by
      intro hne
      constructor
      · rintro ⟨b, hadj, htouch⟩
        rcases mem_cons.mp hadj with heq | hmem
        · simp only [SgConn.mk.injEq] at heq
          exact absurd ⟨b, heq.1.symm, heq.2.symm⟩ hne
        · exact ⟨b, hmem, htouch⟩
      · rintro ⟨b, hadj, htouch⟩
        exact ⟨b, mem_cons_of_mem _ hadj, htouch⟩
    cases self with
    | none =>
      rw [hskip (by simp)]
      simpa [checkPeers] using hrest
    | some self =>
      cases peer with
      | none =>
        rw [hskip (by simp)]
        simpa [checkPeers] using hrest
      | some peer =>
        by_cases hself : tgt = self
        · subst hself
          have hpeer : peer ≠ 0 := hvalid tgt peer mem_cons_self
          by_cases htouch : l.Touches peer
          · have hfound : ∃ b, Adjacent (⟨some tgt, some peer⟩ :: conns) tgt b ∧ l.Touches b :=
              ⟨peer, mem_cons_self, htouch⟩
            simp [checkPeers, checkOverlapForSingleSgId_eq hpeer, htouch, hfound]
          · have hsame : (∃ b, Adjacent (⟨some tgt, some peer⟩ :: conns) tgt b ∧ l.Touches b) ↔
                ∃ b, Adjacent conns tgt b ∧ l.Touches b := by
              constructor
              · rintro ⟨b, hadj, hb⟩
                rcases mem_cons.mp hadj with heq | hmem
                · simp only [SgConn.mk.injEq, Option.some.injEq] at heq
                  exact absurd (heq.2 ▸ hb) htouch
                · exact ⟨b, hmem, hb⟩
              · rintro ⟨b, hadj, hb⟩
                exact ⟨b, mem_cons_of_mem _ hadj, hb⟩
            rw [hsame]
            simpa [checkPeers, checkOverlapForSingleSgId_eq hpeer, htouch] using hrest
        · rw [hskip (by rintro ⟨b, heq, -⟩; exact hself (Option.some.inj heq).symm)]
          simpa [checkPeers, hself] using hrest

/-- The loop over the directly addressed sub-graphs. -/
lemma checkDirect_eq (hvalid : ∀ a b, Adjacent conns a b → b ≠ 0) {ids : List ℕ}
    (hids : ∀ a ∈ ids, a ≠ 0) :
    (checkDirect conns l ids false).1 = .eok ∧ ((checkDirect conns l ids false).2 = true ↔
        ∃ a ∈ ids, l.Touches a ∨ ∃ b, Adjacent conns a b ∧ l.Touches b) := by
  induction ids with
  | nil => simp [checkDirect]
  | cons a ids ih =>
    have hrest := ih fun b hb => hids b (mem_cons_of_mem _ hb)
    obtain ⟨hresult, hpeers⟩ := checkPeers_eq a hvalid
    have ha := hids a mem_cons_self
    by_cases htouch : l.Touches a
    · simp [checkDirect, checkOverlapForSingleSgId_eq ha, htouch]
    · cases hfound : (checkPeers l a conns false).2 with
      | true =>
        have hpeer := hpeers.mp hfound
        simp [checkDirect, checkOverlapForSingleSgId_eq ha, htouch, hresult, hfound, hpeer]
      | false =>
        have hpeer : ¬ ∃ b, Adjacent conns a b ∧ l.Touches b := by
          intro h
          rw [hpeers.mpr h] at hfound
          cases hfound
        simpa [checkDirect, exists_mem_cons, checkOverlapForSingleSgId_eq ha, htouch, hresult, hfound, hpeer]
          using hrest

lemma checkLinked_eq {ids : List ℕ} (hids : ∀ a ∈ ids, a ≠ 0) (overlap : Bool) :
    (checkLinked l ids overlap).1 = .eok ∧
      ((checkLinked l ids overlap).2 = true ↔ overlap = true ∨ ∃ a ∈ ids, l.Touches a) := by
  induction ids generalizing overlap with
  | nil => simp [checkLinked]
  | cons a ids ih =>
    have ha := hids a mem_cons_self
    have hrest := ih (fun b hb => hids b (mem_cons_of_mem _ hb)) (overlap || decide (l.Touches a))
    simpa [checkLinked, checkOverlapForSingleSgId_eq ha, or_assoc] using hrest

/-! ## The check of two commands -/

section

variable (hvalid : ∀ a b, Adjacent conns a b → b ≠ 0) (hc : c.ValidIds)
include hvalid hc

/-- The check answers whether the current command sees the other. -/
lemma checkSgListOverlap_spec :
    (checkSgListOverlap conns c l).1 = .eok ∧
      ((checkSgListOverlap conns c l).2 = true ↔ c.Sees conns l) := by
  obtain ⟨hdirectResult, hdirect⟩ := checkDirect_eq (l := l) hvalid
    (fun a (ha : a ∈ c.cmdSgIdList) => hc a (Or.inl ha))
  obtain ⟨hlinkedResult, hlinked⟩ := checkLinked_eq
    (fun a (ha : a ∈ c.contPortHdlSgList) => hc a (Or.inr ha)) false
  have hsees : c.Sees conns l ↔
      (∃ a ∈ c.cmdSgIdList, l.Touches a ∨ ∃ b, Adjacent conns a b ∧ l.Touches b) ∨
        ∃ a ∈ c.contPortHdlSgList, l.Touches a := by
    unfold CmdCtrl.Sees CmdCtrl.Shared CmdCtrl.Beside CmdCtrl.Touches
    grind
  unfold checkSgListOverlap
  rw [hsees]
  cases hfound : (checkDirect conns l c.cmdSgIdList false).2 with
  | true => simp [hdirectResult, hfound, hdirect.mp hfound]
  | false =>
    have hnone : ¬ ∃ a ∈ c.cmdSgIdList, l.Touches a ∨ ∃ b, Adjacent conns a b ∧ l.Touches b := by
      intro h
      rw [hdirect.mpr h] at hfound
      cases hfound
    simp only [hdirectResult, hfound, hnone, false_or]
    simpa using And.intro hlinkedResult hlinked

lemma checkSgListOverlap_eq_true :
    checkSgListOverlap conns c l = (.eok, true) ↔ c.Sees conns l := by
  obtain ⟨hresult, hfound⟩ := checkSgListOverlap_spec hvalid hc
  rw [← hfound, Prod.ext_iff]
  simp [hresult]

end

/-! ## Both sides of the check -/

section

variable (hsymm : ∀ a b, Adjacent conns a b → Adjacent conns b a)

include hsymm

lemma CmdCtrl.Beside.symm {as bs : List ℕ} (h : Beside conns as bs) : Beside conns bs as := by
  obtain ⟨a, ha, b, hb, hab⟩ := h
  exact ⟨b, hb, a, ha, hsymm a b hab⟩

lemma CmdCtrl.beside_comm (as bs : List ℕ) : Beside conns as bs ↔ Beside conns bs as :=
  ⟨Beside.symm hsymm, Beside.symm hsymm⟩

omit hsymm in
lemma CmdCtrl.shared_comm (c l : CmdCtrl) : c.Shared l ↔ l.Shared c := by
  unfold CmdCtrl.Shared
  grind

omit hsymm in
lemma CmdCtrl.Clashes.cases (h : c.Clashes conns l) :
    c.Shared l ∨ Beside conns c.cmdSgIdList l.cmdSgIdList ∨
      Beside conns c.cmdSgIdList l.contPortHdlSgList ∨
      Beside conns c.contPortHdlSgList l.cmdSgIdList := by
  unfold CmdCtrl.Clashes CmdCtrl.Touches at h
  unfold CmdCtrl.Shared CmdCtrl.Beside CmdCtrl.Touches
  grind

lemma CmdCtrl.sees_symm (c l : CmdCtrl) : l.Sees conns c ↔ c.Shared l ∨
    Beside conns c.cmdSgIdList l.cmdSgIdList ∨ Beside conns c.contPortHdlSgList l.cmdSgIdList := by
  unfold CmdCtrl.Sees
  rw [shared_comm l c, beside_comm hsymm l.cmdSgIdList c.cmdSgIdList,
    beside_comm hsymm l.cmdSgIdList c.contPortHdlSgList]

omit hsymm in
lemma CmdCtrl.clashes_of_beside {c l : CmdCtrl}
    (h : Beside conns c.cmdSgIdList l.contPortHdlSgList ∨
      Beside conns c.contPortHdlSgList l.cmdSgIdList) : c.Clashes conns l := by
  unfold CmdCtrl.Beside at h
  unfold CmdCtrl.Clashes CmdCtrl.Touches
  grind

lemma CmdCtrl.Mutual.sees (h : c.Mutual conns l) (hclash : c.Clashes conns l) :
    c.Sees conns l ∧ l.Sees conns c := by
  have hcases := hclash.cases
  rw [sees_symm hsymm c l]
  unfold CmdCtrl.Mutual at h
  tauto

end

/-- The check treats two commands the same and reports every pair that clashes exactly when
the links of the two are mutual. -/
lemma excludes_iff (conns : ConnList) (hc : c.ValidIds) (hl : l.ValidIds) :
    c.Excludes conns.conns l ↔ c.Mutual conns.conns l := by
  obtain ⟨hresult, hfound⟩ := checkSgListOverlap_spec conns.peer_ne_zero hc
  obtain ⟨hresult', hfound'⟩ := checkSgListOverlap_spec conns.peer_ne_zero hl
  have hanswer : checkSgListOverlap conns.conns c l = checkSgListOverlap conns.conns l c ↔
      (c.Sees conns.conns l ↔ l.Sees conns.conns c) := by
    rw [Prod.ext_iff, hresult, hresult', ← hfound, ← hfound', Bool.eq_iff_iff]
    simp
  unfold CmdCtrl.Excludes
  rw [hanswer, checkSgListOverlap_eq_true conns.peer_ne_zero hc, sees_symm conns.symm c l]
  constructor
  · rintro ⟨hsame, hreport⟩
    by_cases hshared : c.Shared l
    · exact Or.inl hshared
    by_cases hdirect : Beside conns.conns c.cmdSgIdList l.cmdSgIdList
    · exact Or.inr (Or.inl hdirect)
    refine Or.inr (Or.inr ⟨fun h => ?_, fun h => ?_⟩)
    · have hother := hsame.mp (Or.inr (Or.inr h))
      simpa [hshared, hdirect] using hother
    · have hthis := hreport (clashes_of_beside (Or.inr h))
      simpa [CmdCtrl.Sees, hshared, hdirect] using hthis
  · intro hmutual
    refine ⟨?_, fun hclash => (hmutual.sees conns.symm hclash).1⟩
    rcases hmutual with hshared | hdirect | hlinks
    · simp [CmdCtrl.Sees, hshared]
    · simp [CmdCtrl.Sees, hdirect]
    · simp [CmdCtrl.Sees, hlinks]

end AudioReach
