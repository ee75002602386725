import Mathlib.Data.List.Perm.Basic
import AudioReach.ArResult
import AudioReach.Library.EarlyExit

/-!
# Triggers of a module with a trigger policy

A module of a generic container can say when it wants to be called: it gives groups of ports, the
affinity of each port to each group, ports that never trigger, and whether the ports of a group
are and-ed (mandatory) or or-ed (optional).  `gen_topo_trigger_policy_island.c` evaluates this
once for the data trigger and once for the signal trigger: a loop over the groups, in it a loop
over the input ports and one over the output ports, each with early breaks, and a function that
puts the results of a group together.

Both evaluations are one loop here (`groupLoop`), which has as parameters what it means to look at
a port.  The data trigger looks through a table of functions that the topology gives, and keeps
notes on the way; these functions are parameters.
-/

namespace AudioReach.Trigger

open Function (update)
open Library (loopBreak)

/-! ## Policies -/

/-- `fwk_extn_port_trigger_affinity_t`. -/
inductive Affinity
  | none
  | present
  | absent
  deriving DecidableEq

/-- `fwk_extn_port_nontrigger_policy_t`. -/
inductive NontriggerPolicy
  | invalid
  | optional
  | blocked
  deriving DecidableEq

/-- `fwk_extn_port_trigger_policy_t`. -/
inductive PortTriggerPolicy
  | mandatory
  | optional
  deriving DecidableEq

/-- `gen_topo_trigger_t`, the two kinds with a policy. -/
inductive TriggerKind
  | data
  | signal
  deriving DecidableEq

/-- `fwk_extn_port_trigger_group_t`: the affinities at the indexes of the ports. -/
structure TriggerGroup where
  /-- `in_port_grp_affinity_ptr`. -/
  inPortGrpAffinity : ℕ → Affinity
  /-- `out_port_grp_affinity_ptr`. -/
  outPortGrpAffinity : ℕ → Affinity

/-- `gen_topo_trigger_policy_t`. -/
structure TriggerPolicy where
  /-- `in_port_grp_policy_ptr`, which may be null. -/
  inPortGrpPolicy : Option (ℕ → NontriggerPolicy)
  /-- `out_port_grp_policy_ptr`, which may be null. -/
  outPortGrpPolicy : Option (ℕ → NontriggerPolicy)
  portTriggerPolicy : PortTriggerPolicy
  /-- The `num_trigger_groups` groups at `trigger_groups_ptr`. -/
  triggerGroups : List TriggerGroup

/-! ## Ports and modules -/

/-- The part of a `gen_topo_input_port_t` that the evaluation reads. -/
structure InputPort where
  index : ℕ
  isMfValid : Bool
  dataPtr : Option Addr
  deriving DecidableEq

/-- The part of a `gen_topo_output_port_t` that the evaluation reads. -/
structure OutputPort where
  index : ℕ
  dataPtr : Option Addr
  actualDataLen : UInt32
  deriving DecidableEq

/-- `gen_topo_output_has_empty_buffer`. -/
def OutputPort.hasEmptyBuffer (p : OutputPort) : Bool := p.dataPtr ≠ none ∧ p.actualDataLen = 0

/-- The part of a `gen_topo_module_t` that the evaluation reads. -/
structure Module where
  maxInputPorts : ℕ
  maxOutputPorts : ℕ
  minInputPorts : ℕ
  minOutputPorts : ℕ
  /-- `input_port_list_ptr`, with `num_input_ports` ports. -/
  inputPorts : List InputPort
  /-- `output_port_list_ptr`, with `num_output_ports` ports. -/
  outputPorts : List OutputPort
  needStmExtn : Bool
  /-- `gen_topo_has_module_allowed_data_trigger_in_st_cntr`. -/
  allowedDataTriggerInStCntr : Bool
  /-- `tp_ptr`, each of which may be null. -/
  tp : TriggerKind → Option TriggerPolicy

namespace Module

/-- `is_sink`, as `gu_update_module_sink_src_info` sets it. -/
def isSink (m : Module) : Bool :=
  m.maxInputPorts ≠ 0 ∧ (m.maxOutputPorts = 0 ∨ m.minOutputPorts = 0 ∧ m.outputPorts.length = 0)

/-- `is_source`, as `gu_update_module_sink_src_info` sets it. -/
def isSource (m : Module) : Bool :=
  m.maxOutputPorts ≠ 0 ∧ (m.maxInputPorts = 0 ∨ m.minInputPorts = 0 ∧ m.inputPorts.length = 0)

/-- `gen_topo_get_port_trigger_policy`. -/
def getPortTriggerPolicy (m : Module) (t : TriggerKind) : PortTriggerPolicy :=
  match m.tp t with
  | some tp => tp.portTriggerPolicy
  | none => .mandatory

/-- The groups that are evaluated: those of the policy, or one that all ports trigger
(`gen_topo_get_num_trigger_groups` and `gen_topo_get_port_affinity_to_group_for_input` and
`..._for_output`). -/
def triggerGroups (m : Module) (t : TriggerKind) : List TriggerGroup :=
  match m.tp t with
  | some tp => tp.triggerGroups
  | none => [⟨fun _ => .present, fun _ => .present⟩]

/-- `gen_topo_get_default_nontrigger_policy`. -/
def getDefaultNontriggerPolicy (m : Module) (t : TriggerKind) : NontriggerPolicy :=
  if m.needStmExtn ∧ t = .data ∧ m.allowedDataTriggerInStCntr = false then .blocked else .invalid

/-- `gen_topo_get_nontrigger_policy_for_input`. -/
def getNontriggerPolicyForInput (m : Module) (p : InputPort) (t : TriggerKind) : NontriggerPolicy :=
  match (m.tp t).bind (·.inPortGrpPolicy) with
  | some policy => policy p.index
  | none => m.getDefaultNontriggerPolicy t

/-- `gen_topo_get_nontrigger_policy_for_output`. -/
def getNontriggerPolicyForOutput (m : Module) (p : OutputPort) (t : TriggerKind) :
    NontriggerPolicy :=
  match (m.tp t).bind (·.outPortGrpPolicy) with
  | some policy => policy p.index
  | none => m.getDefaultNontriggerPolicy t

end Module

/-- `GEN_TOPO_IS_NON_TRIGGERABLE_PORT`. -/
def isNonTriggerablePort (policy : NontriggerPolicy) : Bool := policy ≠ .invalid

/-! ## The loop over the ports -/

/-- The loop over the ports of one direction: `in_ports_satisfied`, `is_in_port_dictating_policy`
and what else is written (or the same for the output ports). -/
structure PortLoop (σ : Type) where
  /-- `in_ports_satisfied`. -/
  satisfied : Bool
  /-- `is_in_port_dictating_policy`. -/
  dictating : Bool
  scratch : σ

variable {P σ : Type}

/-- The body of the loop: `counts` says whether the port is not skipped, and `visit` gives
`port_satisfied`. -/
def portBody (policy : PortTriggerPolicy) (counts : P → Bool) (visit : P → σ → Bool × σ) (p : P)
    (s : PortLoop σ) : Bool × PortLoop σ :=
  if counts p then
    let r := visit p s.scratch
    match policy with
    | .mandatory => if r.1 then (false, ⟨true, true, r.2⟩) else (true, ⟨false, true, r.2⟩)
    | .optional => if r.1 then (true, ⟨true, true, r.2⟩) else (false, ⟨s.satisfied, true, r.2⟩)
  else (false, s)

/-- The loop over the ports of one direction. -/
def portLoop (policy : PortTriggerPolicy) (counts : P → Bool) (visit : P → σ → Bool × σ)
    (ports : List P) (scratch : σ) : PortLoop σ :=
  loopBreak (portBody policy counts visit) ports ⟨false, false, scratch⟩

/-! ## A group -/

/-- `gen_topo_aggregate_across_groups_and_ports`: whether to break, and
`accross_group_satisfied`. -/
def aggregateAcrossGroupsAndPorts (m : Module) (t : TriggerKind)
    (inPortsSatisfied outPortsSatisfied isInPortDictatingPolicy isOutPortDictatingPolicy : Bool)
    (accrossGroupSatisfied : Bool) : Bool × Bool :=
  match m.getPortTriggerPolicy t with
  | .mandatory =>
    if m.isSink && inPortsSatisfied then (true, true)
    else if m.isSource && outPortsSatisfied then (true, true)
    else if (!isInPortDictatingPolicy && outPortsSatisfied) ||
        (!isOutPortDictatingPolicy && inPortsSatisfied) ||
        (isInPortDictatingPolicy && isOutPortDictatingPolicy && inPortsSatisfied &&
          outPortsSatisfied) then (true, true)
    else (false, accrossGroupSatisfied)
  | .optional =>
    let unsatisfied :=
      if m.isSink then isInPortDictatingPolicy && !inPortsSatisfied
      else if m.isSource then isOutPortDictatingPolicy && !outPortsSatisfied
      else if isInPortDictatingPolicy && isOutPortDictatingPolicy then
        !inPortsSatisfied && !outPortsSatisfied
      else if isInPortDictatingPolicy then !inPortsSatisfied
      else if isOutPortDictatingPolicy then !outPortsSatisfied
      else false
    if unsatisfied then (true, false)
    else if isInPortDictatingPolicy || isOutPortDictatingPolicy then (false, true)
    else (false, accrossGroupSatisfied)

/-- What it means to look at an input port and at an output port with an affinity that is not
`none`: `port_satisfied`, and what is written. -/
structure Visits (σ : Type) where
  input : Affinity → InputPort → σ → Bool × σ
  output : Affinity → OutputPort → σ → Bool × σ

/-- An input port is not skipped in a group. -/
def Module.countsInput (m : Module) (t : TriggerKind) (g : TriggerGroup) (p : InputPort) : Bool :=
  !isNonTriggerablePort (m.getNontriggerPolicyForInput p t) &&
    g.inPortGrpAffinity p.index ≠ .none

/-- An output port is not skipped in a group. -/
def Module.countsOutput (m : Module) (t : TriggerKind) (g : TriggerGroup) (p : OutputPort) : Bool :=
  !isNonTriggerablePort (m.getNontriggerPolicyForOutput p t) &&
    g.outPortGrpAffinity p.index ≠ .none

/-- The body of the loop over the groups. -/
def groupBody (m : Module) (t : TriggerKind) (visits : Visits σ) (g : TriggerGroup)
    (s : Bool × σ) : Bool × Bool × σ :=
  let i := portLoop (m.getPortTriggerPolicy t) (m.countsInput t g)
    (fun p => visits.input (g.inPortGrpAffinity p.index) p) m.inputPorts s.2
  let o := portLoop (m.getPortTriggerPolicy t) (m.countsOutput t g)
    (fun p => visits.output (g.outPortGrpAffinity p.index) p) m.outputPorts i.scratch
  let r := aggregateAcrossGroupsAndPorts m t i.satisfied o.satisfied i.dictating o.dictating s.1
  (r.1, r.2, o.scratch)

/-- The loop over the groups: `accross_group_satisfied`, and what is written. -/
def groupLoop (m : Module) (t : TriggerKind) (visits : Visits σ) (scratch : σ) : Bool × σ :=
  loopBreak (groupBody m t visits) (m.triggerGroups t) (false, scratch)

/-! ## The data trigger -/

/-- The functions of `gen_topo_vtable_ptr` that look at ports. -/
structure TriggerVtable where
  /-- `input_port_is_trigger_present`, with what it writes for an external port. -/
  inputPortIsTriggerPresent : InputPort → Bool × Bool
  inputPortIsTriggerAbsent : InputPort → Bool
  /-- `output_port_is_trigger_present`, with what it writes for an external port. -/
  outputPortIsTriggerPresent : OutputPort → Bool × Bool
  outputPortIsTriggerAbsent : OutputPort → Bool

/-- `is_trigger_present` of the scratch of a port. -/
inductive TriggerScratch
  | notEvaluated
  | notPresent
  | isPresent
  deriving DecidableEq

/-- What the evaluation of the data trigger writes. -/
structure DataScratch where
  anyExtPortNeedsDataBuf : Bool
  /-- `in_port_scratch_ptr`. -/
  inPortScratch : ℕ → TriggerScratch
  /-- `out_port_scratch_ptr`. -/
  outPortScratch : ℕ → TriggerScratch

/-- A look at an input port for the data trigger. -/
def dataVisitInput (vtable : TriggerVtable) (a : Affinity) (p : InputPort) (s : DataScratch) :
    Bool × DataScratch :=
  if a = .present then
    let r := vtable.inputPortIsTriggerPresent p
    if r.1 then
      (p.isMfValid, { s with inPortScratch := update s.inPortScratch p.index .isPresent })
    else
      (false, { s with
        anyExtPortNeedsDataBuf := s.anyExtPortNeedsDataBuf || r.2
        inPortScratch := update s.inPortScratch p.index .notPresent })
  else if vtable.inputPortIsTriggerAbsent p then (p.isMfValid, s)
  else (false, s)

/-- A look at an output port for the data trigger. -/
def dataVisitOutput (vtable : TriggerVtable) (a : Affinity) (p : OutputPort) (s : DataScratch) :
    Bool × DataScratch :=
  if a = .present then
    let r := vtable.outputPortIsTriggerPresent p
    if r.1 then
      (true, { s with outPortScratch := update s.outPortScratch p.index .isPresent })
    else
      (false, { s with
        anyExtPortNeedsDataBuf := s.anyExtPortNeedsDataBuf || r.2
        outPortScratch := update s.outPortScratch p.index .notPresent })
  else if vtable.outputPortIsTriggerAbsent p then (true, s)
  else (false, s)

/-- `gen_topo_is_data_trigger_satisfied_for_trigger_policy_module`: the answer, what is written to
`is_ext_trigger_not_satisfied_ptr`, if anything, and the scratch of the ports. -/
def isDataTriggerSatisfiedForTriggerPolicyModule (vtable : TriggerVtable) (m : Module)
    (inScratch outScratch : ℕ → TriggerScratch) : Bool × Option Bool × DataScratch :=
  let r := groupLoop m .data ⟨dataVisitInput vtable, dataVisitOutput vtable⟩
    ⟨false, inScratch, outScratch⟩
  (r.1, if r.1 then none else some r.2.anyExtPortNeedsDataBuf, r.2)

/-! ## The signal trigger -/

/-- A look at an input port for the signal trigger. -/
def signalVisitInput (a : Affinity) (p : InputPort) (s : Unit) : Bool × Unit :=
  if a = .present then (p.isMfValid && p.dataPtr ≠ none, s)
  else (p.isMfValid && p.dataPtr = none, s)

/-- A look at an output port for the signal trigger. -/
def signalVisitOutput (a : Affinity) (p : OutputPort) (s : Unit) : Bool × Unit :=
  if a = .present then (p.hasEmptyBuffer, s) else (!p.hasEmptyBuffer, s)

/-- `gen_topo_is_signal_trigger_satisfied_for_trigger_policy_module`. -/
def isSignalTriggerSatisfiedForTriggerPolicyModule (m : Module) : Bool :=
  (groupLoop m .signal ⟨signalVisitInput, signalVisitOutput⟩ ()).1

end AudioReach.Trigger
