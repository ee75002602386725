import AudioReach.GraphUtils.Commands
import AudioReach.Library.Pairing

/-!
# The links of a graph

Ports, external ports and attached modules are tied by cross pointers: data links between
output and input ports, external links between ports and external ports, and attachments
between output ports and modules.  `LinkView.Wired` is the state these pointers are meant
to be in: each of the four kinds is a pairing among the objects in use, a port has at most one kind
of connection, and an attached module has one input and one output, both without
connection, and sits next to its host in the same subgraph.

The operations on links are followed on the `LinkView`, the part of the graph that
matters for links; this file shows which of its updates keep it wired.
-/

namespace AudioReach

open Function (update update_eq_self_iff update_idem update_of_ne update_self)
open Library List

/-- The part of the graph that matters for links. -/
structure LinkView where
  next : Addr
  sgs : List Addr
  sgMods : Addr → List Addr
  sg : Addr → Addr
  iid : Addr → UInt32
  ins : Addr → List Addr
  outs : Addr → List Addr
  numIn : Addr → ℕ
  numOut : Addr → ℕ
  maxIn : Addr → ℕ
  maxOut : Addr → ℕ
  inMod : Addr → Addr
  outMod : Addr → Addr
  connIn : Addr → Option Addr
  connOut : Addr → Option Addr
  extOut : Addr → Option Addr
  extIn : Addr → Option Addr
  extOuts : List Addr
  extIns : List Addr
  intOut : Addr → Option Addr
  intIn : Addr → Option Addr
  extOutSg : Addr → Addr
  extInSg : Addr → Addr
  attached : Addr → Option Addr
  host : Addr → Option Addr
  /-- Modules with one input and one output, as noted down. -/
  siso : Addr → Bool
  status : Addr → GuStatus
  pending : Addr → Bool
  /-- Modules with an output at a boundary, as noted down. -/
  flag : Addr → Bool

/-- The view of a graph. -/
def GuWorld.linkView (w : GuWorld) : LinkView where
  next := w.next
  sgs := w.gu.sgList
  sgMods := w.sgModuleList
  sg := w.moduleSg
  iid := w.moduleInstanceId
  ins := w.inputPortList
  outs := w.outputPortList
  numIn := w.numInputPorts
  numOut := w.numOutputPorts
  maxIn := w.maxInputPorts
  maxOut := w.maxOutputPorts
  inMod := w.inModule
  outMod := w.outModule
  connIn := w.connInPort
  connOut := w.connOutPort
  extOut := w.extOutPort
  extIn := w.extInPort
  extOuts := w.gu.extOutPortList
  extIns := w.gu.extInPortList
  intOut := w.intOutPort
  intIn := w.intInPort
  extOutSg := w.extOutSg
  extInSg := w.extInSg
  attached := w.attachedModule
  host := w.hostOutputPort
  siso := w.isSiso
  status := w.moduleGuStatus
  pending := w.elementaryPendingAttachment
  flag := w.isDsAtSgOrCntrBoundary

/-- The elements of a list with one more at the end. -/
lemma mem_concat_iff {α : Type} (l : List α) (a x : α) : x ∈ l ++ [a] ↔ x = a ∨ x ∈ l := by
  rw [mem_append, mem_singleton, or_comm]

/-- One list gets one more element. -/
lemma mem_update_concat {f : Addr → List Addr} {a b x y : Addr} :
    x ∈ update f a (f a ++ [y]) b ↔ b = a ∧ x = y ∨ x ∈ f b := by
  by_cases hba : b = a
  · subst hba
    rw [update_self, mem_concat_iff, and_iff_right rfl]
  · rw [update_of_ne hba, or_iff_right fun h => hba h.1]

/-! ## Ports in lists

The input ports and the output ports of the modules are kept in the same way. -/

/-- A port of a module in `M`. -/
def PortLive (M : Addr → Prop) (ports : Addr → List Addr) (owner : Addr → Addr) (p : Addr) : Prop :=
  M (owner p) ∧ p ∈ ports (owner p)

/-- The ports of the modules in `M` know their module and were allocated, and the counters are
right. -/
structure PortLists (M : Addr → Prop) (next : Addr) (ports : Addr → List Addr) (num : Addr → ℕ)
    (owner : Addr → Addr) : Prop where
  own : ∀ m, M m → ∀ p ∈ ports m, owner p = m ∧ p < next
  nodup : ∀ m, M m → (ports m).Nodup
  num : ∀ m, M m → num m = (ports m).length ∧ num m ≤ 100

namespace PortLists

variable {M M' : Addr → Prop} {next m p : Addr} {ports ports' : Addr → List Addr}
  {num num' : Addr → ℕ} {owner : Addr → Addr} {l : List Addr}

/-- Only the modules in use matter. -/
lemma congr (h : PortLists M next ports num owner) (hports : ∀ m, M m → ports' m = ports m)
    (hnum : ∀ m, M m → num' m = num m) : PortLists M next ports' num' owner := by
  refine ⟨fun m hm => ?_, fun m hm => ?_, fun m hm => ?_⟩
  · rw [hports m hm]
    exact h.own m hm
  · rw [hports m hm]
    exact h.nodup m hm
  · rw [hports m hm, hnum m hm]
    exact h.num m hm

/-- A module without ports comes into use. -/
lemma adopt (h : PortLists M next ports num owner) (hM : ∀ x, M' x ↔ x = m ∨ M x)
    (hports : ports m = []) (hnum : num m = 0) : PortLists M' next ports num owner := by
  have hcases : ∀ {q : Addr → Prop}, q m → (∀ m', M m' → q m') → ∀ m', M' m' → q m' := by
    intro q hq h m' hm'
    rcases (hM m').mp hm' with rfl | hm'
    · exact hq
    · exact h m' hm'
  refine ⟨hcases ?_ h.own, hcases ?_ h.nodup, hcases ?_ h.num⟩
  · simp [hports]
  · simp [hports]
  · simp [hports, hnum]

/-- A module without ports brings none into use. -/
lemma live_adopt (hM : ∀ x, M' x ↔ x = m ∨ M x) (hports : ports m = []) :
    PortLive M' ports owner = PortLive M ports owner := by
  funext x
  refine propext ⟨?_, fun hx => ⟨(hM _).mpr (Or.inr hx.1), hx.2⟩⟩
  rintro ⟨howner, hx⟩
  rcases (hM _).mp howner with heq | howner
  · rw [heq, hports] at hx
    cases hx
  · exact ⟨howner, hx⟩

/-- One more port is in use. -/
lemma live_insert (hm : M m) (hl : l.Perm (p :: ports m)) (x : Addr) :
    PortLive M (update ports m l) (update owner p m) x ↔ x = p ∨ PortLive M ports owner x := by
  unfold PortLive
  by_cases hx : x = p
  · subst hx
    simp [hm, hl.mem_iff]
  · rw [update_of_ne hx, or_iff_right hx]
    refine and_congr_right fun _ => ?_
    by_cases hmx : owner x = m
    · rw [hmx, update_self, hl.mem_iff, mem_cons]
      exact or_iff_right hx
    · rw [update_of_ne hmx]

/-- A new port joins a module. -/
lemma insert (h : PortLists M next ports num owner) (hm : M m) (hp : p < next)
    (hfresh : ∀ m, M m → p ∉ ports m) (hl : l.Perm (p :: ports m)) (hroom : num m < 100) :
    PortLists M next (update ports m l) (update num m (incU8 (num m))) (update owner p m) := by
  have hold : ∀ m', M m' → ∀ q ∈ ports m', update owner p m q = m' ∧ q < next := by
    intro m' hm' q hq
    have hne : q ≠ p := by
      rintro rfl
      exact hfresh m' hm' hq
    rw [update_of_ne hne]
    exact h.own m' hm' q hq
  refine ⟨?_, ?_, ?_⟩
  · refine forall_update (p := fun m' l => M m' → ∀ q ∈ l, update owner p m q = m' ∧ q < next) hold
      fun _ q hq => ?_
    rcases mem_cons.mp (hl.mem_iff.mp hq) with rfl | hq
    · exact ⟨update_self .., hp⟩
    · exact hold m hm q hq
  · exact forall_update (p := fun m (l : List Addr) => M m → l.Nodup) h.nodup fun _ =>
      hl.nodup_iff.mpr (nodup_cons.mpr ⟨hfresh m hm, h.nodup m hm⟩)
  · refine forall_update₂ (p := fun m n (l : List Addr) => M m → n = l.length ∧ n ≤ 100) h.num
      fun _ => ?_
    have hnum := (h.num m hm).1
    rw [hl.length_eq, length_cons, incU8]
    omega

end PortLists

namespace LinkView

/-- The modules of the graph. -/
def mods (v : LinkView) : List Addr :=
  v.sgs.flatMap v.sgMods

/-- Output ports of modules in `M`. -/
def OutLive (v : LinkView) (M : Addr → Prop) (o : Addr) : Prop :=
  M (v.outMod o) ∧ o ∈ v.outs (v.outMod o)

/-- Input ports of modules in `M`. -/
def InLive (v : LinkView) (M : Addr → Prop) (i : Addr) : Prop :=
  M (v.inMod i) ∧ i ∈ v.ins (v.inMod i)

/-- The ports of an attached module: one input and one output, both without connection, and no
module attached to the output. -/
def Free (v : LinkView) (e : Addr) : Prop :=
  ∃ i o, v.ins e = [i] ∧ v.outs e = [o] ∧ v.connOut i = none ∧ v.extIn i = none ∧
    v.connIn o = none ∧ v.extOut o = none ∧ v.attached o = none

/-- The module `e` is attached to the port `op`: its ports are free, and the host is in the same
subgraph and not attached itself. -/
def Shape (v : LinkView) (e op : Addr) : Prop :=
  v.Free e ∧ v.sg (v.outMod op) = v.sg e ∧ v.host (v.outMod op) = none

/-- The links among the modules in `M` agree, and so do the attachments among those in `N`.  The two
differ only while a subgraph is being destroyed. -/
structure Wires (M N : Addr → Prop) (v : LinkView) : Prop where
  mods_lt : ∀ m, M m → m < v.next
  /-- Output ports know their module and were allocated. -/
  outs_own : ∀ m, M m → ∀ o ∈ v.outs m, v.outMod o = m ∧ o < v.next
  /-- Input ports know their module and were allocated. -/
  ins_own : ∀ m, M m → ∀ i ∈ v.ins m, v.inMod i = m ∧ i < v.next
  outs_nodup : ∀ m, M m → (v.outs m).Nodup
  ins_nodup : ∀ m, M m → (v.ins m).Nodup
  extOuts_lt : ∀ e ∈ v.extOuts, e < v.next
  extIns_lt : ∀ e ∈ v.extIns, e < v.next
  num_out : ∀ m, M m → v.numOut m = (v.outs m).length ∧ v.numOut m ≤ 100
  num_in : ∀ m, M m → v.numIn m = (v.ins m).length ∧ v.numIn m ≤ 100
  /-- Limits are far from the range of the counters. -/
  max_le : ∀ m, M m → v.maxIn m ≤ 100 ∧ v.maxOut m ≤ 100
  conn : Paired (v.OutLive M) (v.InLive M) v.connIn v.connOut
  ext_out : Paired (v.OutLive M) (· ∈ v.extOuts) v.extOut v.intOut
  ext_in : Paired (v.InLive M) (· ∈ v.extIns) v.extIn v.intIn
  att : Paired (v.OutLive N) N v.attached v.host
  out_one : ∀ o, v.OutLive M o → v.connIn o = none ∨ v.extOut o = none
  in_one : ∀ i, v.InLive M i → v.connOut i = none ∨ v.extIn i = none
  /-- An external output port knows the subgraph of its port. -/
  extOut_sg : ∀ e ∈ v.extOuts, ∀ o, v.intOut e = some o → v.extOutSg e = v.sg (v.outMod o)
  /-- An external input port knows the subgraph of its port. -/
  extIn_sg : ∀ e ∈ v.extIns, ∀ i, v.intIn e = some i → v.extInSg e = v.sg (v.inMod i)
  shape : ∀ e, N e → ∀ op, v.host e = some op → v.Shape e op

/-- Every port of a module of `M` that is not attached has a connection. -/
def Connected (M : Addr → Prop) (v : LinkView) : Prop :=
  ∀ m, M m → v.host m = none → (∀ o ∈ v.outs m, v.connIn o ≠ none ∨ v.extOut o ≠ none) ∧
    ∀ i ∈ v.ins m, v.connOut i ≠ none ∨ v.extIn i ≠ none

/-- The links of a graph agree. -/
structure Wired (v : LinkView) : Prop where
  sgs_lt : ∀ sg ∈ v.sgs, sg < v.next
  mod_sg : ∀ sg ∈ v.sgs, ∀ m ∈ v.sgMods sg, v.sg m = sg
  mods_nodup : ∀ sg ∈ v.sgs, (v.sgMods sg).Nodup
  wires : Wires (· ∈ v.mods) (· ∈ v.mods) v

namespace Wires

variable {M N : Addr → Prop} {v : LinkView}

section

variable {o : Addr} (h : Wires M N v)
include h

/-- The lists of the output ports. -/
lemma listedOuts : PortLists M v.next v.outs v.numOut v.outMod :=
  ⟨h.outs_own, h.outs_nodup, h.num_out⟩

/-- The lists of the input ports. -/
lemma listedIns : PortLists M v.next v.ins v.numIn v.inMod :=
  ⟨h.ins_own, h.ins_nodup, h.num_in⟩

/-- An output port in a list is one of the graph. -/
lemma outLive {m : Addr} (hm : M m) (ho : o ∈ v.outs m) : v.OutLive M o := by
  have howner := (h.outs_own m hm o ho).1
  unfold OutLive
  rw [howner]
  exact ⟨hm, ho⟩

/-- An input port in a list is one of the graph. -/
lemma inLive {m i : Addr} (hm : M m) (hi : i ∈ v.ins m) : v.InLive M i := by
  have howner := (h.ins_own m hm i hi).1
  unfold InLive
  rw [howner]
  exact ⟨hm, hi⟩

/-- An output port was allocated. -/
lemma outLive_lt (ho : v.OutLive M o) : o < v.next :=
  (h.outs_own _ ho.1 o ho.2).2

/-- An input port was allocated. -/
lemma inLive_lt {i : Addr} (hi : v.InLive M i) : i < v.next :=
  (h.ins_own _ hi.1 i hi.2).2

/-- A connected output port has no external port. -/
lemma extOut_none {i : Addr} (ho : v.OutLive M o) (hc : v.connIn o = some i) : v.extOut o = none :=
  (h.out_one o ho).resolve_left (hc ▸ Option.some_ne_none i)

/-- An output port with an external port is not connected. -/
lemma connIn_none {e : Addr} (ho : v.OutLive M o) (hx : v.extOut o = some e) : v.connIn o = none :=
  (h.out_one o ho).resolve_right (hx ▸ Option.some_ne_none e)

/-- A connected input port has no external port. -/
lemma extIn_none {i : Addr} (hi : v.InLive M i) (hc : v.connOut i = some o) : v.extIn i = none :=
  (h.in_one i hi).resolve_left (hc ▸ Option.some_ne_none o)

/-- An allocation keeps the links. -/
lemma alloc : Wires M N { v with next := v.next + 1 } :=
  have hlt : ∀ {a : Addr}, a < v.next → a < v.next + 1 := fun ha => Nat.lt_succ_of_lt ha
  { h with
    mods_lt := fun m hm => hlt (h.mods_lt m hm)
    outs_own := fun m hm o ho => ⟨(h.outs_own m hm o ho).1, hlt (h.outs_own m hm o ho).2⟩
    ins_own := fun m hm i hi => ⟨(h.ins_own m hm i hi).1, hlt (h.ins_own m hm i hi).2⟩
    extOuts_lt := fun e he => hlt (h.extOuts_lt e he)
    extIns_lt := fun e he => hlt (h.extIns_lt e he) }

end

end Wires

/-! ## New modules -/

/-- The fields of a new module. -/
def blank (v : LinkView) (m : Addr) : LinkView :=
  { v with
    iid := update v.iid m 0
    ins := update v.ins m []
    outs := update v.outs m []
    numIn := update v.numIn m 0
    numOut := update v.numOut m 0
    maxIn := update v.maxIn m 0
    maxOut := update v.maxOut m 0
    host := update v.host m none
    siso := update v.siso m false
    status := update v.status m .new
    flag := update v.flag m false }

/-- The module joins a subgraph. -/
def adopt (v : LinkView) (sg m : Addr) (iid : UInt32) : LinkView :=
  { v with
    sgMods := update v.sgMods sg (v.sgMods sg ++ [m])
    sg := update v.sg m sg
    iid := update v.iid m iid }

namespace Wires

variable {M M' : Addr → Prop} {v : LinkView}

/-- A module that is not in use may be cleared. -/
lemma blank (h : Wires M M v) {m : Addr} (hm : ¬ M m) : Wires M M (v.blank m) := by
  have hne : ∀ {m'}, M m' → m' ≠ m := by
    rintro m' hm' rfl
    exact hm hm'
  have hout : (v.blank m).OutLive M = v.OutLive M := by
    funext o
    refine propext (and_congr_right fun ho => ?_)
    have hne' : v.outMod o ≠ m := hne ho
    simp only [LinkView.blank, update_of_ne hne']
  have hin : (v.blank m).InLive M = v.InLive M := by
    funext i
    refine propext (and_congr_right fun hi => ?_)
    have hne' : v.inMod i ≠ m := hne hi
    simp only [LinkView.blank, update_of_ne hne']
  have hkeep : ∀ {α : Type} (f : Addr → α) (x : α) m', M m' → update f m x m' = f m' :=
    fun f x m' hm' => update_of_ne (hne hm') x f
  have hins := h.listedIns.congr (hkeep v.ins []) (hkeep v.numIn 0)
  have houts := h.listedOuts.congr (hkeep v.outs []) (hkeep v.numOut 0)
  refine ⟨h.mods_lt, houts.own, hins.own, houts.nodup, hins.nodup, h.extOuts_lt, h.extIns_lt,
    houts.num, hins.num, ?_, ?_, ?_, ?_, ?_, ?_, ?_, h.extOut_sg, h.extIn_sg, ?_⟩
  · intro m' hm'
    simp only [LinkView.blank, update_of_ne (hne hm')]
    exact h.max_le m' hm'
  · rw [hout, hin]
    exact h.conn
  · rw [hout]
    exact h.ext_out
  · rw [hin]
    exact h.ext_in
  · rw [hout]
    exact h.att.congr (fun _ _ => rfl) (hkeep v.host none)
  · rw [hout]
    exact h.out_one
  · rw [hin]
    exact h.in_one
  · intro e he op hop
    obtain ⟨⟨i, o, hi, ho, hfree⟩, hsg, hunhosted⟩ :=
      h.shape e he op ((hkeep v.host none e he).symm.trans hop)
    refine ⟨⟨i, o, (hkeep v.ins [] e he).trans hi, (hkeep v.outs [] e he).trans ho, hfree⟩, hsg, ?_⟩
    exact (hkeep v.host none _ (h.att.left e op he (hkeep v.host none e he ▸ hop)).1.1).trans
      hunhosted

/-- A cleared module comes into use. -/
lemma adopt (h : Wires M M v) {sg m : Addr} {iid : UInt32} (hM : ∀ x, M' x ↔ x = m ∨ M x)
    (hm : ¬ M m) (hlt : m < v.next) (houts : v.outs m = []) (hins : v.ins m = [])
    (hnum : v.numOut m = 0 ∧ v.numIn m = 0) (hmax : v.maxIn m ≤ 100 ∧ v.maxOut m ≤ 100)
    (hhost : v.host m = none) : Wires M' M' (v.adopt sg m iid) := by
  have hout : (v.adopt sg m iid).OutLive M' = v.OutLive M := PortLists.live_adopt hM houts
  have hin : (v.adopt sg m iid).InLive M' = v.InLive M := PortLists.live_adopt hM hins
  have hsg : ∀ {m'}, M m' → (v.adopt sg m iid).sg m' = v.sg m' := by
    intro m' hm'
    refine update_of_ne ?_ _ _
    rintro rfl
    exact hm hm'
  have hins' := h.listedIns.adopt hM hins hnum.2
  have houts' := h.listedOuts.adopt hM houts hnum.1
  refine ⟨?_, houts'.own, hins'.own, houts'.nodup, hins'.nodup, h.extOuts_lt, h.extIns_lt,
    houts'.num, hins'.num, ?_, ?_, ?_, ?_, ?_, ?_, ?_, ?_, ?_, ?_⟩
  · intro m' hm'
    rcases (hM m').mp hm' with rfl | hm'
    · exact hlt
    · exact h.mods_lt m' hm'
  · intro m' hm'
    rcases (hM m').mp hm' with rfl | hm'
    · exact hmax
    · exact h.max_le m' hm'
  · rw [hout, hin]
    exact h.conn
  · rw [hout]
    exact h.ext_out
  · rw [hin]
    exact h.ext_in
  · rw [hout]
    refine ((h.att.symm.extend hM hm).congr ?_ fun _ _ => rfl).symm
    intro x _
    by_cases hx : x = m
    · subst hx
      rw [update_self]
      exact hhost
    · exact (update_of_ne hx _ _).symm
  · rw [hout]
    exact h.out_one
  · rw [hin]
    exact h.in_one
  · intro e he o ho
    exact (h.extOut_sg e he o ho).trans (hsg (h.ext_out.left e o he ho).1.1).symm
  · intro e he i hi
    exact (h.extIn_sg e he i hi).trans (hsg (h.ext_in.left e i he hi).1.1).symm
  · intro e he op hop
    rcases (hM e).mp he with rfl | he
    · rw [show (v.adopt sg e iid).host e = none from hhost] at hop
      cases hop
    · obtain ⟨hfree, hsame, hunhosted⟩ := h.shape e he op hop
      refine ⟨hfree, ?_, hunhosted⟩
      have hop' := (h.att.left e op he hop).1.1
      exact (hsg hop').trans (hsame.trans (hsg he).symm)

end Wires

/-! ## New ports and new links -/

/-- The port `o` joins the module `m`; its ports are then `ports`. -/
def addOut (v : LinkView) (m o : Addr) (ports : List Addr) (status : Addr → GuStatus)
    (boundary : Bool) : LinkView :=
  { v with
    outMod := update v.outMod o m
    outs := update v.outs m ports
    numOut := update v.numOut m (incU8 (v.numOut m))
    connIn := update v.connIn o none
    extOut := update v.extOut o none
    attached := update v.attached o none
    pending := update v.pending o false
    status := status
    flag := update v.flag m (v.flag m || boundary) }

/-- The port `i` joins the module `m`; its ports are then `ports`. -/
def addIn (v : LinkView) (m i : Addr) (ports : List Addr) (status : Addr → GuStatus) : LinkView :=
  { v with
    inMod := update v.inMod i m
    ins := update v.ins m ports
    numIn := update v.numIn m (incU8 (v.numIn m))
    connOut := update v.connOut i none
    extIn := update v.extIn i none
    status := status }

/-- Two ports are connected. -/
def connect (v : LinkView) (o i : Addr) : LinkView :=
  { v with
    connIn := update v.connIn o (some i)
    connOut := update v.connOut i (some o)
    extOut := update v.extOut o none
    extIn := update v.extIn i none }

/-- The output port `o` gets the external port `e`. -/
def extendOut (v : LinkView) (o e : Addr) : LinkView :=
  { v with
    connIn := update v.connIn o none
    extOuts := v.extOuts ++ [e]
    extOutSg := update v.extOutSg e (v.sg (v.outMod o))
    intOut := update v.intOut e (some o)
    extOut := update v.extOut o (some e) }

/-- The input port `i` gets the external port `e`. -/
def extendIn (v : LinkView) (i e : Addr) : LinkView :=
  { v with
    connOut := update v.connOut i none
    extIns := v.extIns ++ [e]
    extInSg := update v.extInSg e (v.sg (v.inMod i))
    intIn := update v.intIn e (some i)
    extIn := update v.extIn i (some e) }

namespace Wires

variable {M : Addr → Prop} {v : LinkView} {m : Addr} {ports : List Addr} {status : Addr → GuStatus}

section AddOut

variable {o : Addr} {boundary : Bool}

/-- The output ports with one more. -/
lemma outLive_addOut (hm : M m) (hports : ports.Perm (o :: v.outs m)) (x : Addr) :
    (v.addOut m o ports status boundary).OutLive M x ↔ x = o ∨ v.OutLive M x :=
  PortLists.live_insert hm hports x

/-- A new output port joins a module that is not attached and has room. -/
lemma addOut (h : Wires M M v) (hm : M m) (ho : o < v.next) (hfresh : ∀ m, M m → o ∉ v.outs m)
    (hports : ports.Perm (o :: v.outs m)) (hroom : v.numOut m < v.maxOut m)
    (hhost : v.host m = none) : Wires M M (v.addOut m o ports status boundary) := by
  have hlive : ∀ x, (v.addOut m o ports status boundary).OutLive M x ↔ x = o ∨ v.OutLive M x :=
    outLive_addOut hm hports
  have hdead : ¬ v.OutLive M o := fun hlive => hfresh _ hlive.1 hlive.2
  have hne : ∀ {x}, v.OutLive M x → x ≠ o := by
    rintro x hx rfl
    exact hdead hx
  have howner : ∀ {x}, v.OutLive M x → (v.addOut m o ports status boundary).outMod x = v.outMod x :=
    fun hx => update_of_ne (hne hx) _ _
  have hl := h.listedOuts.insert hm ho hfresh hports (Nat.lt_of_lt_of_le hroom (h.max_le m hm).2)
  refine { h with
    outs_own := hl.own, outs_nodup := hl.nodup, num_out := hl.num, conn := ?_, ext_out := ?_
    att := ?_
    out_one := ?_, extOut_sg := ?_, shape := ?_ }
  · exact h.conn.extend hlive hdead
  · exact h.ext_out.extend hlive hdead
  · exact h.att.extend hlive hdead
  · intro x hx
    by_cases hxo : x = o
    · subst hxo
      exact Or.inl (update_self _ _ _)
    · simp only [LinkView.addOut, update_of_ne hxo]
      exact h.out_one x (((hlive x).mp hx).resolve_left hxo)
  · intro e he x hx
    have hlx := (h.ext_out.left e x he hx).1
    exact (h.extOut_sg e he x hx).trans (congrArg v.sg (howner hlx).symm)
  · intro e he op hop
    obtain ⟨⟨i, o', hi, ho', hconn, hext, hconn', hext', hatt⟩, hsg, hunhosted⟩ := h.shape e he op hop
    have hem : e ≠ m := by
      rintro rfl
      rw [show v.host e = some op from hop] at hhost
      cases hhost
    have hlo : v.OutLive M o' := h.outLive he (ho' ▸ mem_singleton.mpr rfl)
    have hlop := (h.att.left e op he hop).1
    refine ⟨⟨i, o', hi, (update_of_ne hem _ _).trans ho', hconn, hext,
      (update_of_ne (hne hlo) _ _).trans hconn',
      (update_of_ne (hne hlo) _ _).trans hext',
      (update_of_ne (hne hlo) _ _).trans hatt⟩, ?_, ?_⟩
    · exact (congrArg v.sg (howner hlop)).trans hsg
    · exact (congrArg v.host (howner hlop)).trans hunhosted

end AddOut

section AddIn

variable {i : Addr}

/-- The input ports with one more. -/
lemma inLive_addIn (hm : M m) (hports : ports.Perm (i :: v.ins m)) (x : Addr) :
    (v.addIn m i ports status).InLive M x ↔ x = i ∨ v.InLive M x :=
  PortLists.live_insert hm hports x

/-- A new input port joins a module that is not attached and has room. -/
lemma addIn (h : Wires M M v) (hm : M m) (hi : i < v.next) (hfresh : ∀ m, M m → i ∉ v.ins m)
    (hports : ports.Perm (i :: v.ins m)) (hroom : v.numIn m < v.maxIn m)
    (hhost : v.host m = none) : Wires M M (v.addIn m i ports status) := by
  have hlive : ∀ x, (v.addIn m i ports status).InLive M x ↔ x = i ∨ v.InLive M x :=
    inLive_addIn hm hports
  have hdead : ¬ v.InLive M i := fun hlive => hfresh _ hlive.1 hlive.2
  have hne : ∀ {x}, v.InLive M x → x ≠ i := by
    rintro x hx rfl
    exact hdead hx
  have howner : ∀ {x}, v.InLive M x → (v.addIn m i ports status).inMod x = v.inMod x :=
    fun hx => update_of_ne (hne hx) _ _
  have hl := h.listedIns.insert hm hi hfresh hports (Nat.lt_of_lt_of_le hroom (h.max_le m hm).1)
  refine { h with
    ins_own := hl.own, ins_nodup := hl.nodup, num_in := hl.num, conn := ?_, ext_in := ?_
    in_one := ?_, extIn_sg := ?_, shape := ?_ }
  · exact (h.conn.symm.extend hlive hdead).symm
  · exact h.ext_in.extend hlive hdead
  · intro x hx
    by_cases hxi : x = i
    · subst hxi
      exact Or.inl (update_self _ _ _)
    · simp only [LinkView.addIn, update_of_ne hxi]
      exact h.in_one x (((hlive x).mp hx).resolve_left hxi)
  · intro e he x hx
    have hlx := (h.ext_in.left e x he hx).1
    exact (h.extIn_sg e he x hx).trans (congrArg v.sg (howner hlx).symm)
  · intro e he op hop
    obtain ⟨⟨i', o, hi', ho, hconn, hext, hfree⟩, hshape⟩ := h.shape e he op hop
    have hem : e ≠ m := by
      rintro rfl
      rw [show v.host e = some op from hop] at hhost
      cases hhost
    have hli : v.InLive M i' := h.inLive he (hi' ▸ mem_singleton.mpr rfl)
    exact ⟨⟨i', o, (update_of_ne hem _ _).trans hi', ho, (update_of_ne (hne hli) _ _).trans hconn,
      (update_of_ne (hne hli) _ _).trans hext, hfree⟩, hshape⟩

end AddIn

section

variable {e o i : Addr} (h : Wires M M v)
include h

/-- An output port of an attached module is no host's. -/
lemma free_out_ne {op o' : Addr} (he : M e) (hop : v.host e = some op) (ho : v.OutLive M o)
    (hhost : v.host (v.outMod o) = none) (ho' : o' ∈ v.outs e) : o' ≠ o := by
  rintro rfl
  have howner := (h.outs_own e he o' ho').1
  rw [howner, hop] at hhost
  cases hhost

/-- An input port of an attached module is no host's. -/
lemma free_in_ne {op i' : Addr} (he : M e) (hop : v.host e = some op) (hi : v.InLive M i)
    (hhost : v.host (v.inMod i) = none) (hi' : i' ∈ v.ins e) : i' ≠ i := by
  rintro rfl
  have howner := (h.ins_own e he i' hi').1
  rw [howner, hop] at hhost
  cases hhost

/-- Two ports without connection are connected. -/
lemma connect (ho : v.OutLive M o) (hi : v.InLive M i) (hco : v.connIn o = none)
    (hci : v.connOut i = none) (heo : v.extOut o = none) (hei : v.extIn i = none)
    (hhost : v.host (v.outMod o) = none) (hhost' : v.host (v.inMod i) = none) :
    Wires M M (v.connect o i) := by
  have hext : update v.extOut o none = v.extOut := update_eq_self_iff.mpr heo.symm
  have hext' : update v.extIn i none = v.extIn := update_eq_self_iff.mpr hei.symm
  refine { h with
    conn := h.conn.link ho hi hco hci
    ext_out := h.ext_out.congr (fun x _ => congrFun hext x) fun _ _ => rfl
    ext_in := h.ext_in.congr (fun x _ => congrFun hext' x) fun _ _ => rfl
    out_one := exclusive_update (exclusive_update' h.out_one (Or.inl rfl))
      (Or.inr (update_self _ _ _))
    in_one := exclusive_update (exclusive_update' h.in_one (Or.inl rfl)) (Or.inr (update_self _ _ _))
    shape := ?_ }
  · intro e he op hop
    obtain ⟨⟨i', o', hi', ho', hconn, hei', hconn', heo', hatt⟩, hshape⟩ := h.shape e he op hop
    have hoo := h.free_out_ne he hop ho hhost (ho' ▸ mem_singleton.mpr rfl)
    have hii := h.free_in_ne he hop hi hhost' (hi' ▸ mem_singleton.mpr rfl)
    exact ⟨⟨i', o', hi', ho', (update_of_ne hii _ _).trans hconn, update_none hei' i,
      (update_of_ne hoo _ _).trans hconn', update_none heo' o, hatt⟩, hshape⟩

/-- An output port without connection gets a new external port. -/
lemma extendOut (ho : v.OutLive M o) (he : e < v.next) (hfresh : e ∉ v.extOuts)
    (hco : v.connIn o = none) (heo : v.extOut o = none) (hhost : v.host (v.outMod o) = none) :
    Wires M M (v.extendOut o e) := by
  have hconn : update v.connIn o none = v.connIn := update_eq_self_iff.mpr hco.symm
  have hmem := mem_concat_iff v.extOuts e
  refine { h with
    extOuts_lt := ?_
    conn := h.conn.congr (fun x _ => congrFun hconn x) fun _ _ => rfl
    ext_out := h.ext_out.extendLink ho hmem hfresh heo
    out_one := exclusive_update' (exclusive_update h.out_one (Or.inl rfl))
      (Or.inr (update_self _ _ _))
    extOut_sg := ?_, shape := ?_ }
  · intro x hx
    rcases (hmem x).mp hx with rfl | hx
    · exact he
    · exact h.extOuts_lt x hx
  · intro x hx o' ho'
    by_cases hxe : x = e
    · subst hxe
      simp only [LinkView.extendOut, update_self, Option.some.injEq] at ho' ⊢
      rw [ho']
    · simp only [LinkView.extendOut, update_of_ne hxe] at ho' ⊢
      exact h.extOut_sg x (((hmem x).mp hx).resolve_left hxe) o' ho'
  · intro e' he' op hop
    obtain ⟨⟨i', o', hi', ho', hci', hei', hco', heo', hatt⟩, hshape⟩ := h.shape e' he' op hop
    have hoo := h.free_out_ne he' hop ho hhost (ho' ▸ mem_singleton.mpr rfl)
    exact ⟨⟨i', o', hi', ho', hci', hei', update_none hco' o,
      (update_of_ne hoo _ _).trans heo', hatt⟩, hshape⟩

/-- An input port without connection gets a new external port. -/
lemma extendIn (hi : v.InLive M i) (he : e < v.next) (hfresh : e ∉ v.extIns)
    (hci : v.connOut i = none) (hei : v.extIn i = none) (hhost : v.host (v.inMod i) = none) :
    Wires M M (v.extendIn i e) := by
  have hconn : update v.connOut i none = v.connOut := update_eq_self_iff.mpr hci.symm
  have hmem := mem_concat_iff v.extIns e
  refine { h with
    extIns_lt := ?_
    conn := h.conn.congr (fun _ _ => rfl) fun x _ => congrFun hconn x
    ext_in := h.ext_in.extendLink hi hmem hfresh hei
    in_one := exclusive_update' (exclusive_update h.in_one (Or.inl rfl)) (Or.inr (update_self _ _ _))
    extIn_sg := ?_, shape := ?_ }
  · intro x hx
    rcases (hmem x).mp hx with rfl | hx
    · exact he
    · exact h.extIns_lt x hx
  · intro x hx i' hi'
    by_cases hxe : x = e
    · subst hxe
      simp only [LinkView.extendIn, update_self, Option.some.injEq] at hi' ⊢
      rw [hi']
    · simp only [LinkView.extendIn, update_of_ne hxe] at hi' ⊢
      exact h.extIn_sg x (((hmem x).mp hx).resolve_left hxe) i' hi'
  · intro e' he' op hop
    obtain ⟨⟨i', o', hi', ho', hci', hei', hfree⟩, hshape⟩ := h.shape e' he' op hop
    have hii := h.free_in_ne he' hop hi hhost (hi' ▸ mem_singleton.mpr rfl)
    exact ⟨⟨i', o', hi', ho', update_none hci' i, (update_of_ne hii _ _).trans hei', hfree⟩, hshape⟩

end

end Wires

end LinkView

end AudioReach
