import AudioReach.Trigger.Model

/-!
# What a trigger policy means

A group has the ports that count for it.  With the mandatory policy the module is triggered if
some group that has such ports has them all satisfied; with the optional policy if every group
that has such ports has one that is satisfied, and there is such a group.  Nothing here depends on
the order of the groups or of the ports.

The loops of the code compute just this, for the data and for the signal trigger: a loop over
ports is an and or an or over the ports that count, and so is the loop over the groups, the other
way round.
-/

namespace AudioReach.Trigger

open Library (loopBreak Ors Ands Notices)

/-- When a port with an affinity to a group is satisfied. -/
structure Satisfied where
  input : Affinity → InputPort → Prop
  output : Affinity → OutputPort → Prop

namespace Module

/-! ## The meaning -/

/-- The input ports that decide: those of a source do not. -/
def decidingInputs (m : Module) : List InputPort := if m.isSource then [] else m.inputPorts

/-- The output ports that decide: those of a sink do not. -/
def decidingOutputs (m : Module) : List OutputPort := if m.isSink then [] else m.outputPorts

/-- The group has ports that count. -/
def GroupCounts (m : Module) (t : TriggerKind) (g : TriggerGroup) : Prop :=
  (∃ p ∈ m.decidingInputs, m.countsInput t g p = true) ∨
    ∃ p ∈ m.decidingOutputs, m.countsOutput t g p = true

/-- All ports of the group that count are satisfied. -/
def GroupAll (m : Module) (t : TriggerKind) (sat : Satisfied) (g : TriggerGroup) : Prop :=
  (∀ p ∈ m.decidingInputs, m.countsInput t g p = true → sat.input (g.inPortGrpAffinity p.index) p) ∧
    ∀ p ∈ m.decidingOutputs, m.countsOutput t g p = true →
      sat.output (g.outPortGrpAffinity p.index) p

/-- Some port of the group that counts is satisfied. -/
def GroupAny (m : Module) (t : TriggerKind) (sat : Satisfied) (g : TriggerGroup) : Prop :=
  (∃ p ∈ m.decidingInputs, m.countsInput t g p = true ∧ sat.input (g.inPortGrpAffinity p.index) p) ∨
    ∃ p ∈ m.decidingOutputs, m.countsOutput t g p = true ∧
      sat.output (g.outPortGrpAffinity p.index) p

/-- The module is triggered. -/
def Triggered (m : Module) (t : TriggerKind) (sat : Satisfied) : Prop :=
  match m.getPortTriggerPolicy t with
  | .mandatory => ∃ g ∈ m.triggerGroups t, m.GroupCounts t g ∧ m.GroupAll t sat g
  | .optional => (∃ g ∈ m.triggerGroups t, m.GroupCounts t g) ∧
      ∀ g ∈ m.triggerGroups t, m.GroupCounts t g → m.GroupAny t sat g

/-- The two modules differ in the order of their groups and of their ports. -/
structure Reordered (m m' : Module) (t : TriggerKind) : Prop where
  inputs : m.inputPorts.Perm m'.inputPorts
  outputs : m.outputPorts.Perm m'.outputPorts
  groups : (m.triggerGroups t).Perm (m'.triggerGroups t)
  sink : m.isSink = m'.isSink
  source : m.isSource = m'.isSource
  policy : m.getPortTriggerPolicy t = m'.getPortTriggerPolicy t
  nontriggerInput : ∀ p, m.getNontriggerPolicyForInput p t = m'.getNontriggerPolicyForInput p t
  nontriggerOutput : ∀ p, m.getNontriggerPolicyForOutput p t = m'.getNontriggerPolicyForOutput p t

/-! ## Sinks and sources -/

/-- In a group in which output ports of a sink or input ports of a source count, ports on the other
side count, too.  (A sink that keeps to `max_output_ports` has no output ports, and a source that
keeps to `max_input_ports` no input ports.) -/
structure Sided (m : Module) (t : TriggerKind) (g : TriggerGroup) : Prop where
  sink : m.isSink = true → (∃ p ∈ m.outputPorts, m.countsOutput t g p = true) →
    ∃ p ∈ m.inputPorts, m.countsInput t g p = true
  source : m.isSource = true → (∃ p ∈ m.inputPorts, m.countsInput t g p = true) →
    ∃ p ∈ m.outputPorts, m.countsOutput t g p = true

/-- A sink that is a source has no ports. -/
lemma inputPorts_of_isSink_isSource {m : Module} (hsink : m.isSink = true)
    (hsource : m.isSource = true) : m.inputPorts = [] := by
  rw [isSink, decide_eq_true_iff] at hsink
  rw [isSource, decide_eq_true_iff] at hsource
  exact List.length_eq_zero_iff.mp (hsource.2.resolve_left hsink.1).2

variable {m : Module}

lemma exists_decidingInputs {P : InputPort → Prop} :
    (∃ p ∈ m.decidingInputs, P p) ↔ m.isSource = false ∧ ∃ p ∈ m.inputPorts, P p := by
  unfold decidingInputs
  cases m.isSource <;> simp

lemma exists_decidingOutputs {P : OutputPort → Prop} :
    (∃ p ∈ m.decidingOutputs, P p) ↔ m.isSink = false ∧ ∃ p ∈ m.outputPorts, P p := by
  unfold decidingOutputs
  cases m.isSink <;> simp

lemma forall_decidingInputs {P : InputPort → Prop} :
    (∀ p ∈ m.decidingInputs, P p) ↔ m.isSource = true ∨ ∀ p ∈ m.inputPorts, P p := by
  unfold decidingInputs
  cases m.isSource <;> simp

lemma forall_decidingOutputs {P : OutputPort → Prop} :
    (∀ p ∈ m.decidingOutputs, P p) ↔ m.isSink = true ∨ ∀ p ∈ m.outputPorts, P p := by
  unfold decidingOutputs
  cases m.isSink <;> simp

section Reordered

variable {m' : Module} {t : TriggerKind} (h : m.Reordered m' t)
include h

/-- Whether an input counts does not depend on the order. -/
lemma Reordered.countsInput_eq (g : TriggerGroup) : m.countsInput t g = m'.countsInput t g := by
  funext p
  rw [countsInput, countsInput, h.nontriggerInput]

/-- Whether an output counts does not depend on the order. -/
lemma Reordered.countsOutput_eq (g : TriggerGroup) : m.countsOutput t g = m'.countsOutput t g := by
  funext p
  rw [countsOutput, countsOutput, h.nontriggerOutput]

lemma Reordered.mem_decidingInputs (p : InputPort) :
    p ∈ m.decidingInputs ↔ p ∈ m'.decidingInputs := by
  unfold decidingInputs
  rw [h.source]
  split
  · rfl
  · exact h.inputs.mem_iff

lemma Reordered.mem_decidingOutputs (p : OutputPort) :
    p ∈ m.decidingOutputs ↔ p ∈ m'.decidingOutputs := by
  unfold decidingOutputs
  rw [h.sink]
  split
  · rfl
  · exact h.outputs.mem_iff

/-- The side condition does not depend on the order. -/
lemma Reordered.sided {g : TriggerGroup} (hg : m.Sided t g) : m'.Sided t g := by
  obtain ⟨hsink, hsource⟩ := hg
  simp only [h.sink, h.source, h.countsInput_eq, h.countsOutput_eq, h.inputs.mem_iff,
    h.outputs.mem_iff] at hsink hsource
  exact ⟨hsink, hsource⟩

/-- Whether a group counts does not depend on the order. -/
lemma Reordered.groupCounts_iff (g : TriggerGroup) : m.GroupCounts t g ↔ m'.GroupCounts t g := by
  simp only [GroupCounts, h.countsInput_eq, h.countsOutput_eq, h.mem_decidingInputs,
    h.mem_decidingOutputs]

/-- Whether a port of a group is satisfied does not depend on the order. -/
lemma Reordered.groupAny_iff (sat : Satisfied) (g : TriggerGroup) :
    m.GroupAny t sat g ↔ m'.GroupAny t sat g := by
  simp only [GroupAny, h.countsInput_eq, h.countsOutput_eq, h.mem_decidingInputs,
    h.mem_decidingOutputs]

/-- The meaning does not depend on the order. -/
lemma Reordered.triggered_iff (sat : Satisfied) : m.Triggered t sat ↔ m'.Triggered t sat := by
  have hall : ∀ g, m.GroupAll t sat g ↔ m'.GroupAll t sat g := fun g => by
    simp only [GroupAll, h.countsInput_eq, h.countsOutput_eq, h.mem_decidingInputs,
      h.mem_decidingOutputs]
  rw [Triggered, Triggered, h.policy]
  cases m'.getPortTriggerPolicy t with
  | mandatory => simp only [h.groupCounts_iff, hall, h.groups.mem_iff]
  | optional => simp only [h.groupCounts_iff, h.groupAny_iff, h.groups.mem_iff]

end Reordered

end Module

/-! ## The loop over the ports -/

section Ports

variable {P σ : Type} {counts : P → Bool} {visit : P → σ → Bool × σ} {sat : P → Prop}

/-- A round notices a port that counts. -/
lemma portBody_notices (policy : PortTriggerPolicy) :
    Notices (portBody policy counts visit) PortLoop.dictating (counts · = true) where
  skip p s hskip := by
    rw [portBody, if_neg hskip]
    exact ⟨rfl, rfl⟩
  mark p s hcounts := by
    rw [portBody, if_pos hcounts]
    cases policy <;> dsimp only <;> split <;> rfl

/-- The loop dictates iff some port counts. -/
lemma portLoop_dictating (policy : PortTriggerPolicy) (ports : List P) (scratch : σ) :
    (portLoop policy counts visit ports scratch).dictating = true ↔
      ∃ p ∈ ports, counts p = true := by
  rw [portLoop, (portBody_notices policy).loop, or_iff_right Bool.false_ne_true]

section

variable (hvisit : ∀ p s, (visit p s).1 = true ↔ sat p)
include hvisit

/-- With the mandatory policy the rounds build a conjunction. -/
lemma portBody_ands (ports : List P) : Ands ports (portBody .mandatory counts visit)
      PortLoop.satisfied (counts · = true) sat where
  skip p _ s hskip := by
    rw [portBody, if_neg hskip]
    exact ⟨rfl, rfl⟩
  hit p _ s hcounts hsat := by
    rw [portBody, if_pos hcounts]
    dsimp only
    rw [if_pos ((hvisit p _).mpr hsat)]
    exact ⟨rfl, rfl⟩
  fail p _ s hcounts hsat := by
    rw [portBody, if_pos hcounts]
    dsimp only
    rw [if_neg (mt (hvisit p _).mp hsat)]
    exact ⟨rfl, rfl⟩

/-- With the optional policy the rounds build a disjunction. -/
lemma portBody_ors (ports : List P) : Ors ports (portBody .optional counts visit)
      PortLoop.satisfied (fun p => counts p = true ∧ sat p) where
  hit p _ s hgood := by
    rw [portBody, if_pos hgood.1]
    dsimp only
    rw [if_pos ((hvisit p _).mpr hgood.2)]
    exact ⟨rfl, rfl⟩
  miss p _ s hbad := by
    rw [portBody]
    split
    · rename_i hcounts
      dsimp only
      rw [if_neg fun h => hbad ⟨hcounts, (hvisit p _).mp h⟩]
      exact ⟨rfl, rfl⟩
    · exact ⟨rfl, rfl⟩

section

variable (ports : List P) (scratch : σ)

/-- The mandatory loop asks for all ports that count, and for one. -/
lemma portLoop_mandatory :
    (portLoop .mandatory counts visit ports scratch).satisfied = true ↔
      (∃ p ∈ ports, counts p = true) ∧ ∀ p ∈ ports, counts p = true → sat p := by
  rw [portLoop, (portBody_ands hvisit ports).loop, or_iff_right Bool.false_ne_true]

/-- A loop that does not dictate leaves the mandatory verdict open. -/
lemma portLoop_mandatory_all :
    (!(portLoop .mandatory counts visit ports scratch).dictating ||
        (portLoop .mandatory counts visit ports scratch).satisfied) = true ↔
      ∀ p ∈ ports, counts p = true → sat p := by
  rw [Bool.or_eq_true, Bool.not_eq_true', ← Bool.not_eq_true, portLoop_dictating,
    portLoop_mandatory hvisit]
  constructor
  · rintro (hnone | ⟨-, hall⟩) p hp hcounts
    · exact absurd ⟨p, hp, hcounts⟩ hnone
    · exact hall p hp hcounts
  · intro hall
    by_cases hsome : ∃ p ∈ ports, counts p = true
    · exact Or.inr ⟨hsome, hall⟩
    · exact Or.inl hsome

/-- The optional loop asks for one satisfied port that counts. -/
lemma portLoop_optional :
    (portLoop .optional counts visit ports scratch).satisfied = true ↔
      ∃ p ∈ ports, counts p = true ∧ sat p := by
  rw [portLoop, (portBody_ors hvisit ports).loop, or_iff_right Bool.false_ne_true]

end

end

end Ports

/-! ## The loop over the groups -/

section Groups

variable {m : Module} {t : TriggerKind} {σ : Type} {visits : Visits σ} {sat : Satisfied}

/-- What is decided from the results of a group, if a side that does not decide does not count
alone. -/
lemma aggregate_eq {iSat oSat iDict oDict : Bool}
    (hsink : m.isSink = true → oDict = true → iDict = true)
    (hsource : m.isSource = true → iDict = true → oDict = true)
    (hboth : m.isSink = true → m.isSource = true → iDict = false)
    (hi : iSat = true → iDict = true) (ho : oSat = true → oDict = true) (b : Bool) :
    aggregateAcrossGroupsAndPorts m t iSat oSat iDict oDict b =
      match m.getPortTriggerPolicy t with
      | .mandatory => if (!m.isSource && iDict || !m.isSink && oDict) &&
            (m.isSource || !iDict || iSat) && (m.isSink || !oDict || oSat) then (true, true)
        else (false, b)
      | .optional => if !m.isSource && iDict || !m.isSink && oDict then
          if !m.isSource && iSat || !m.isSink && oSat then (false, true) else (true, false)
        else (false, b) := by
  rw [aggregateAcrossGroupsAndPorts]
  revert hsink hsource hboth hi ho
  generalize m.isSink = sink
  generalize m.isSource = source
  revert sink source iSat oSat iDict oDict b
  cases m.getPortTriggerPolicy t <;> decide

/-- A module without ports of either side has no dictating input. -/
lemma not_dictating_of_isSink_isSource {g : TriggerGroup} {iDict : Bool}
    (hi : iDict = true ↔ ∃ p ∈ m.inputPorts, m.countsInput t g p = true)
    (hsink : m.isSink = true) (hsource : m.isSource = true) : iDict = false := by
  rw [Module.inputPorts_of_isSink_isSource hsink hsource] at hi
  simpa using hi

/-- What looking at the ports finds is when they are satisfied. -/
structure Visits.Finds (visits : Visits σ) (sat : Satisfied) : Prop where
  input : ∀ a p s, (visits.input a p s).1 = true ↔ sat.input a p
  output : ∀ a p s, (visits.output a p s).1 = true ↔ sat.output a p

/-- With the mandatory policy the groups are or-ed. -/
lemma groupBody_ors (h : visits.Finds sat) (hpolicy : m.getPortTriggerPolicy t = .mandatory)
    (hsided : ∀ g ∈ m.triggerGroups t, m.Sided t g) :
    Ors (m.triggerGroups t) (groupBody m t visits) Prod.fst
      (fun g => m.GroupCounts t g ∧ m.GroupAll t sat g) := by
  have hbody : ∀ g ∈ m.triggerGroups t, ∀ s, (m.GroupCounts t g ∧ m.GroupAll t sat g →
      (groupBody m t visits g s).1 = true ∧ (groupBody m t visits g s).2.1 = true) ∧
      (¬ (m.GroupCounts t g ∧ m.GroupAll t sat g) →
        (groupBody m t visits g s).1 = false ∧ (groupBody m t visits g s).2.1 = s.1) := by
    intro g hg s
    obtain ⟨hsink, hsource⟩ := hsided g hg
    rw [groupBody, hpolicy]
    generalize hi : portLoop .mandatory (m.countsInput t g)
      (fun p => visits.input (g.inPortGrpAffinity p.index) p) m.inputPorts s.2 = i
    generalize ho : portLoop .mandatory (m.countsOutput t g)
      (fun p => visits.output (g.outPortGrpAffinity p.index) p) m.outputPorts i.scratch = o
    have hiDict : i.dictating = true ↔ _ := hi ▸ portLoop_dictating _ _ _
    have hoDict : o.dictating = true ↔ _ := ho ▸ portLoop_dictating _ _ _
    have hiSat : i.satisfied = true ↔ _ := hi ▸ portLoop_mandatory (fun p => h.input _ p) _ _
    have hoSat : o.satisfied = true ↔ _ := ho ▸ portLoop_mandatory (fun p => h.output _ p) _ _
    have hiAll : (!i.dictating || i.satisfied) = true ↔ _ :=
      hi ▸ portLoop_mandatory_all (fun p => h.input _ p) _ _
    have hoAll : (!o.dictating || o.satisfied) = true ↔ _ :=
      ho ▸ portLoop_mandatory_all (fun p => h.output _ p) _ _
    rw [← hiDict, ← hoDict] at hsink hsource
    have hgood : ((!m.isSource && i.dictating || !m.isSink && o.dictating) &&
        (m.isSource || !i.dictating || i.satisfied) &&
        (m.isSink || !o.dictating || o.satisfied)) = true ↔
          m.GroupCounts t g ∧ m.GroupAll t sat g := by
      simp only [Bool.and_eq_true, Bool.or_assoc, Bool.or_eq_true m.isSource,
        Bool.or_eq_true m.isSink, Bool.or_eq_true (!m.isSource && i.dictating), Bool.not_eq_true',
        hiDict, hoDict, hiAll, hoAll, and_assoc, Module.GroupCounts, Module.GroupAll,
        Module.exists_decidingInputs, Module.exists_decidingOutputs,
        Module.forall_decidingInputs, Module.forall_decidingOutputs]
    rw [aggregate_eq hsink hsource (not_dictating_of_isSink_isSource hiDict)
      (fun hsat => hiDict.mpr (hiSat.mp hsat).1) (fun hsat => hoDict.mpr (hoSat.mp hsat).1),
      hpolicy, ← hgood]
    dsimp only
    refine ⟨fun hyes => ?_, fun hno => ?_⟩
    · rw [if_pos hyes]
      exact ⟨rfl, rfl⟩
    · rw [if_neg hno]
      exact ⟨rfl, rfl⟩
  exact ⟨fun g hg s => (hbody g hg s).1, fun g hg s => (hbody g hg s).2⟩

/-- With the optional policy the groups are and-ed. -/
lemma groupBody_ands (h : visits.Finds sat) (hpolicy : m.getPortTriggerPolicy t = .optional)
    (hsided : ∀ g ∈ m.triggerGroups t, m.Sided t g) :
    Ands (m.triggerGroups t) (groupBody m t visits) Prod.fst (m.GroupCounts t)
      (m.GroupAny t sat) := by
  have hbody : ∀ g ∈ m.triggerGroups t, ∀ s, (¬ m.GroupCounts t g →
        (groupBody m t visits g s).1 = false ∧ (groupBody m t visits g s).2.1 = s.1) ∧
      (m.GroupCounts t g → m.GroupAny t sat g →
        (groupBody m t visits g s).1 = false ∧ (groupBody m t visits g s).2.1 = true) ∧
      (m.GroupCounts t g → ¬ m.GroupAny t sat g →
        (groupBody m t visits g s).1 = true ∧ (groupBody m t visits g s).2.1 = false) := by
    intro g hg s
    obtain ⟨hsink, hsource⟩ := hsided g hg
    rw [groupBody, hpolicy]
    generalize hi : portLoop .optional (m.countsInput t g)
      (fun p => visits.input (g.inPortGrpAffinity p.index) p) m.inputPorts s.2 = i
    generalize ho : portLoop .optional (m.countsOutput t g)
      (fun p => visits.output (g.outPortGrpAffinity p.index) p) m.outputPorts i.scratch = o
    have hiDict : i.dictating = true ↔ _ := hi ▸ portLoop_dictating _ _ _
    have hoDict : o.dictating = true ↔ _ := ho ▸ portLoop_dictating _ _ _
    have hiSat : i.satisfied = true ↔ _ := hi ▸ portLoop_optional (fun p => h.input _ p) _ _
    have hoSat : o.satisfied = true ↔ _ := ho ▸ portLoop_optional (fun p => h.output _ p) _ _
    rw [← hiDict, ← hoDict] at hsink hsource
    have hcounts : (!m.isSource && i.dictating || !m.isSink && o.dictating) = true ↔
        m.GroupCounts t g := by
      simp only [Bool.and_eq_true, Bool.or_eq_true, Bool.not_eq_true', hiDict, hoDict,
        Module.GroupCounts, Module.exists_decidingInputs, Module.exists_decidingOutputs]
    have hany : (!m.isSource && i.satisfied || !m.isSink && o.satisfied) = true ↔
        m.GroupAny t sat g := by
      simp only [Bool.and_eq_true, Bool.or_eq_true, Bool.not_eq_true', hiSat, hoSat,
        Module.GroupAny, Module.exists_decidingInputs, Module.exists_decidingOutputs]
    have hiHas : i.satisfied = true → i.dictating = true := fun hsat => by
      obtain ⟨p, hp, hpcounts, -⟩ := hiSat.mp hsat
      exact hiDict.mpr ⟨p, hp, hpcounts⟩
    have hoHas : o.satisfied = true → o.dictating = true := fun hsat => by
      obtain ⟨p, hp, hpcounts, -⟩ := hoSat.mp hsat
      exact hoDict.mpr ⟨p, hp, hpcounts⟩
    rw [aggregate_eq hsink hsource (not_dictating_of_isSink_isSource hiDict) hiHas hoHas, hpolicy,
      ← hcounts, ← hany]
    dsimp only
    refine ⟨fun hskip => ?_, fun hdict hsat => ?_, fun hdict hsat => ?_⟩
    · rw [if_neg hskip]
      exact ⟨rfl, rfl⟩
    · rw [if_pos hdict, if_pos hsat]
      exact ⟨rfl, rfl⟩
    · rw [if_pos hdict, if_neg hsat]
      exact ⟨rfl, rfl⟩
  exact ⟨fun g hg s => (hbody g hg s).1, fun g hg s => (hbody g hg s).2.1,
    fun g hg s => (hbody g hg s).2.2⟩

/-- **The loops compute the meaning.** -/
lemma groupLoop_iff (h : visits.Finds sat) (hsided : ∀ g ∈ m.triggerGroups t, m.Sided t g)
    (scratch : σ) : (groupLoop m t visits scratch).1 = true ↔ m.Triggered t sat := by
  rw [groupLoop, Module.Triggered]
  cases hpolicy : m.getPortTriggerPolicy t with
  | mandatory =>
    rw [(groupBody_ors h hpolicy hsided).loop, or_iff_right Bool.false_ne_true]
  | optional =>
    rw [(groupBody_ands h hpolicy hsided).loop, or_iff_right Bool.false_ne_true]

end Groups

/-! ## The two triggers -/

/-- Whether the trigger of a port is present, and whether it is absent. -/
structure Presence where
  inputPresent : InputPort → Bool
  inputAbsent : InputPort → Bool
  outputPresent : OutputPort → Bool
  outputAbsent : OutputPort → Bool

/-- The data trigger of a port is what the functions of the topology say. -/
def TriggerVtable.presence (vtable : TriggerVtable) : Presence where
  inputPresent p := (vtable.inputPortIsTriggerPresent p).1
  inputAbsent := vtable.inputPortIsTriggerAbsent
  outputPresent p := (vtable.outputPortIsTriggerPresent p).1
  outputAbsent := vtable.outputPortIsTriggerAbsent

/-- The signal trigger of a port is a buffer, at an output port an empty one. -/
def signalPresence : Presence where
  inputPresent p := p.dataPtr ≠ none
  inputAbsent p := p.dataPtr = none
  outputPresent p := p.hasEmptyBuffer
  outputAbsent p := !p.hasEmptyBuffer

/-- A port is satisfied as its affinity demands. -/
def Presence.demanded (presence : Presence) : Satisfied where
  input a p := if a = .present then presence.inputPresent p = true
    else presence.inputAbsent p = true
  output a p := if a = .present then presence.outputPresent p = true
    else presence.outputAbsent p = true

/-- An input port is satisfied as its affinity demands and if its media format is valid. -/
def Presence.satisfied (presence : Presence) : Satisfied where
  input a p := p.isMfValid = true ∧ presence.demanded.input a p
  output := presence.demanded.output

/-- The visits of the data trigger find what is satisfied. -/
lemma dataVisits_finds (vtable : TriggerVtable) :
    Visits.Finds ⟨dataVisitInput vtable, dataVisitOutput vtable⟩
      vtable.presence.satisfied where
  input a p s := by
    unfold dataVisitInput
    dsimp only [Presence.satisfied, Presence.demanded, TriggerVtable.presence]
    by_cases ha : a = .present
    · rw [if_pos ha, if_pos ha]
      cases (vtable.inputPortIsTriggerPresent p).1 <;> simp
    · rw [if_neg ha, if_neg ha]
      cases vtable.inputPortIsTriggerAbsent p <;> simp
  output a p s := by
    unfold dataVisitOutput
    dsimp only [Presence.satisfied, Presence.demanded, TriggerVtable.presence]
    by_cases ha : a = .present
    · rw [if_pos ha, if_pos ha]
      cases (vtable.outputPortIsTriggerPresent p).1 <;> simp
    · rw [if_neg ha, if_neg ha]
      cases vtable.outputPortIsTriggerAbsent p <;> simp

/-- The visits of the signal trigger find what is satisfied. -/
lemma signalVisits_finds :
    Visits.Finds ⟨signalVisitInput, signalVisitOutput⟩ signalPresence.satisfied where
  input a p s := by
    unfold signalVisitInput
    dsimp only [Presence.satisfied, Presence.demanded, signalPresence]
    by_cases ha : a = .present
    · rw [if_pos ha, if_pos ha, Bool.and_eq_true]
    · rw [if_neg ha, if_neg ha, Bool.and_eq_true]
  output a p s := by
    unfold signalVisitOutput
    dsimp only [Presence.satisfied, Presence.demanded, signalPresence]
    by_cases ha : a = .present
    · rw [if_pos ha, if_pos ha]
    · rw [if_neg ha, if_neg ha]

/-- Both triggers are as the policy means, with `sat` and `sat'` for when a port is satisfied, and
neither depends on the order of the groups and of the ports. -/
structure TriggersMean (vtable : TriggerVtable) (m : Module) (sat sat' : Satisfied) : Prop where
  data : ∀ inScratch outScratch,
    (isDataTriggerSatisfiedForTriggerPolicyModule vtable m inScratch outScratch).1 = true ↔
      m.Triggered .data sat
  signal : isSignalTriggerSatisfiedForTriggerPolicyModule m = true ↔ m.Triggered .signal sat'
  /-- The order does not matter for the data trigger. -/
  dataOrder : ∀ m', m.Reordered m' .data → ∀ inScratch outScratch,
    (isDataTriggerSatisfiedForTriggerPolicyModule vtable m' inScratch outScratch).1
      = (isDataTriggerSatisfiedForTriggerPolicyModule vtable m inScratch outScratch).1
  /-- The order does not matter for the signal trigger. -/
  signalOrder : ∀ m', m.Reordered m' .signal → isSignalTriggerSatisfiedForTriggerPolicyModule m'
      = isSignalTriggerSatisfiedForTriggerPolicyModule m

/-- **Triggers mean what the policy says**, for every table of functions and every order, if an
input port also needs a valid media format to be satisfied, and for every module in whose groups no
side that does not decide counts alone. -/
theorem triggers_mean (vtable : TriggerVtable) (m : Module)
    (hsided : ∀ t, ∀ g ∈ m.triggerGroups t, m.Sided t g) :
    TriggersMean vtable m vtable.presence.satisfied signalPresence.satisfied where
  data _ _ := groupLoop_iff (dataVisits_finds vtable) (hsided .data) _
  signal := groupLoop_iff signalVisits_finds (hsided .signal) _
  dataOrder m' h inScratch outScratch := by
    have hm := groupLoop_iff (dataVisits_finds vtable) (hsided .data)
      ⟨false, inScratch, outScratch⟩
    have hm' := groupLoop_iff (dataVisits_finds vtable)
      (fun g hg => h.sided (hsided .data g (h.groups.mem_iff.mpr hg))) ⟨false, inScratch, outScratch⟩
    exact Bool.eq_iff_iff.mpr (hm'.trans ((h.triggered_iff _).symm.trans hm.symm))
  signalOrder m' h := by
    have hm := groupLoop_iff signalVisits_finds (hsided .signal) ()
    have hm' := groupLoop_iff signalVisits_finds
      (fun g hg => h.sided (hsided .signal g (h.groups.mem_iff.mpr hg))) ()
    exact Bool.eq_iff_iff.mpr (hm'.trans ((h.triggered_iff _).symm.trans hm.symm))

/-- A sink that has got an output port, which counts and has no buffer. -/
def sinkWithOutput : Module where
  maxInputPorts := 1
  maxOutputPorts := 0
  minInputPorts := 1
  minOutputPorts := 0
  inputPorts := [⟨0, true, some 8⟩]
  outputPorts := [⟨0, none, 0⟩]
  needStmExtn := false
  allowedDataTriggerInStCntr := false
  tp _ := some ⟨none, none, .mandatory, [⟨fun _ => .present, fun _ => .present⟩]⟩

/-- A topology in which all triggers are both present and absent. -/
def bothVtable : TriggerVtable :=
  ⟨fun _ => (true, false), fun _ => true, fun _ => (true, false), fun _ => true⟩

/-- The output port does not decide: the sink is triggered. -/
theorem triggers_mean_sinkWithOutput : sinkWithOutput.Triggered .signal signalPresence.satisfied :=
  (triggers_mean bothVtable sinkWithOutput fun t g hg => by
    obtain rfl := List.mem_singleton.mp hg
    exact ⟨fun _ _ => ⟨⟨0, true, some 8⟩, by decide, rfl⟩, fun h => absurd h (by decide)⟩).signal.mp
    (by decide)

/-- A module with an input port whose trigger is to be absent, before the port has a format. -/
def unformatted : Module where
  maxInputPorts := 1
  maxOutputPorts := 1
  minInputPorts := 1
  minOutputPorts := 1
  inputPorts := [⟨0, false, none⟩]
  outputPorts := []
  needStmExtn := false
  allowedDataTriggerInStCntr := false
  tp _ := some ⟨none, none, .mandatory, [⟨fun _ => .absent, fun _ => .none⟩]⟩

/-- The same sink before it has input ports, with an empty buffer at the output port. -/
def onlyOutput : Module :=
  { sinkWithOutput with
    inputPorts := []
    outputPorts := [⟨0, some 8, 0⟩] }

/-- **The claim fails.** A port is not satisfied by its affinity alone; and the output port of a
sink decides in a group in which no input port counts. -/
theorem not_triggers_mean : (¬ ∀ (vtable : TriggerVtable) (m : Module),
      TriggersMean vtable m vtable.presence.demanded signalPresence.demanded) ∧
    ¬ ∀ (vtable : TriggerVtable) (m : Module),
      TriggersMean vtable m vtable.presence.satisfied signalPresence.satisfied := by
  constructor
  · intro h
    have hmeans := (h bothVtable unformatted).signal
    have htriggered : unformatted.Triggered .signal signalPresence.demanded := by
      refine ⟨_, List.mem_singleton_self _, Or.inl ?_, ?_, ?_⟩
      · exact ⟨⟨0, false, none⟩, by decide, by decide⟩
      · intro p hp _
        obtain rfl := List.mem_singleton.mp hp
        simp [Presence.demanded, signalPresence]
      · intro p hp
        contradiction
    exact absurd (hmeans.mpr htriggered) (by decide)
  · intro h
    obtain ⟨g, -, hcounts, -⟩ := (h bothVtable onlyOutput).signal.mp (by decide)
    rcases hcounts with ⟨p, hp, -⟩ | ⟨p, hp, -⟩
    · cases hp
    · cases hp

end AudioReach.Trigger
