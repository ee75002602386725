import AudioReach.GraphUtils.Links
import AudioReach.Library.PortSort

/-!
# The order of the sorted list

`gu_update_sorted_list` sorts the modules of a graph whose links are symmetric.  The modules and
their ports form a `PortGraph`; the program is followed through its three parts, the search among
the external ports, the search for modules without inputs and the loop, with the invariants
`Seeding` and `Sorting` of that library.

Every allocation of a list node may be refused.  The number of allocations made so far is part of
the invariants: one for each module that became an edge module and one for each module in the
sorted list.  So the place where the program stops is known from the number of the answer that
refuses.
-/

namespace AudioReach

open Function (update)
open Library List

namespace GuWorld

/-- A container graph with symmetric links: no module is in two places, ports know their modules
and are listed once, links and external ports agree on both sides, a port has at most one
connection, and an output port exactly one unless its module is attached. -/
structure SymmetricPorts (w : GuWorld) : Prop where
  nodup : w.modules.Nodup
  outs_own : ∀ m ∈ w.modules, ∀ o ∈ w.outputPortList m, w.outModule o = m
  ins_own : ∀ m ∈ w.modules, ∀ p ∈ w.inputPortList m, w.inModule p = m
  outs_nodup : ∀ m ∈ w.modules, (w.outputPortList m).Nodup
  num_in : ∀ m ∈ w.modules, w.numInputPorts m = (w.inputPortList m).length
  /-- A link leads to an input port of the graph that leads back. -/
  conn_in : ∀ m ∈ w.modules, ∀ o ∈ w.outputPortList m, ∀ p, w.connInPort o = some p →
    w.inModule p ∈ w.modules ∧ p ∈ w.inputPortList (w.inModule p) ∧ w.connOutPort p = some o
  conn_out : ∀ m ∈ w.modules, ∀ p ∈ w.inputPortList m, ∀ o, w.connOutPort p = some o →
    w.outModule o ∈ w.modules ∧ o ∈ w.outputPortList (w.outModule o) ∧ w.connInPort o = some p
  /-- The external port of an input port is listed and leads back. -/
  ext_in : ∀ m ∈ w.modules, ∀ p ∈ w.inputPortList m, ∀ e, w.extInPort p = some e →
    e ∈ w.gu.extInPortList ∧ w.intInPort e = some p
  /-- Behind an external input port there is an input port of the graph that leads back. -/
  int_in : ∀ e ∈ w.gu.extInPortList, ∃ p, w.intInPort e = some p ∧ w.inModule p ∈ w.modules ∧
    p ∈ w.inputPortList (w.inModule p) ∧ w.extInPort p = some e
  in_one : ∀ m ∈ w.modules, ∀ p ∈ w.inputPortList m, w.connOutPort p = none ∨ w.extInPort p = none
  out_one : ∀ m ∈ w.modules, ∀ o ∈ w.outputPortList m, w.connInPort o = none ∨ w.extOutPort o = none
  /-- An attached module has an input port, and its ports have no connection. -/
  attached : ∀ m ∈ w.modules, w.hostOutputPort m ≠ none → w.inputPortList m ≠ [] ∧
    (∀ p ∈ w.inputPortList m, w.connOutPort p = none ∧ w.extInPort p = none) ∧
    ∀ o ∈ w.outputPortList m, w.connInPort o = none
  /-- The output ports of the other modules have a connection. -/
  connected_out : ∀ m ∈ w.modules, w.hostOutputPort m = none →
    ∀ o ∈ w.outputPortList m, w.connInPort o ≠ none ∨ w.extOutPort o ≠ none

/-- A container graph with symmetric links in which the input ports have a connection, too. -/
structure Sortable (w : GuWorld) : Prop extends SymmetricPorts w where
  connected_in : ∀ m ∈ w.modules, w.hostOutputPort m = none →
    ∀ p ∈ w.inputPortList m, w.connOutPort p ≠ none ∨ w.extInPort p ≠ none

/-- An internal link leads from the module `a` to the module `b`. -/
def Linked (w : GuWorld) (a b : Addr) : Prop :=
  a ∈ w.modules ∧ ∃ o ∈ w.outputPortList a, ∃ p, w.connInPort o = some p ∧ w.inModule p = b

/-- No port of the graph is marked. -/
def MarksClear (w : GuWorld) : Prop :=
  ∀ m ∈ w.modules, (∀ p ∈ w.inputPortList m, w.inMark p = false) ∧
    ∀ o ∈ w.outputPortList m, w.outMark o = false

/-- The sort follows the output port to another module. -/
def IsInternal (w : GuWorld) (o : Addr) : Prop :=
  w.extOutPort o = none ∧ w.connInPort o ≠ none

/-- The modules and ports of a graph that can be sorted. -/
def Sortable.graph {w : GuWorld} (h : w.Sortable) : PortGraph Addr Addr Addr where
  verts := w.modules
  ins := w.inputPortList
  outs := w.outputPortList
  outVert := w.outModule
  up := w.connOutPort
  ext p := (w.extInPort p).isSome = true
  up_mem m hm p hp o ho := by
    obtain ⟨hmod, hout, -⟩ := h.conn_out m hm p hp o ho
    exact ⟨hmod, hout⟩
  ext_up m hm p hp hext := by
    rcases h.in_one m hm p hp with hnone | hnone
    · exact hnone
    · rw [hnone] at hext
      cases hext
  ins_inj m hm n hn p hp hq := (h.ins_own m hm p hp).symm.trans (h.ins_own n hn p hq)
  up_inj m hm n hn p hp q hq o ho ho' := by
    have hpo := (h.conn_out m hm p hp o ho).2.2
    rw [(h.conn_out n hn q hq o ho').2.2] at hpo
    exact (Option.some.inj hpo).symm

namespace Sortable

variable {w : GuWorld} (h : w.Sortable)

/-- External ports, in the graph that is sorted. -/
lemma graph_ext {p : Addr} : h.graph.ext p ↔ (w.extInPort p).isSome = true := Iff.rfl

/-- Links, in the graph that is sorted. -/
lemma link_iff {a b : Addr} : h.graph.Link a b ↔ w.Linked a b := by
  constructor
  · rintro ⟨hb, p, hp, o, ho, rfl⟩
    obtain ⟨hmod, hout, hconn⟩ := h.conn_out b hb p hp o ho
    exact ⟨hmod, o, hout, p, hconn, h.ins_own b hb p hp⟩
  · rintro ⟨ha, o, ho, p, hp, rfl⟩
    obtain ⟨hmod, hin, hconn⟩ := h.conn_in a ha o ho p hp
    exact ⟨hmod, p, hin, o, hconn, h.outs_own a ha o ho⟩

/-- The links are those of the container. -/
lemma link_eq : h.graph.Link = w.Linked := by
  funext a b
  exact propext h.link_iff

section

variable {m : Addr} (hm : m ∈ w.modules)
include hm

/-- An attached module is open and leads nowhere. -/
lemma attached_open (hhost : w.hostOutputPort m ≠ none) :
    h.graph.IsOpen m ∧ ∀ b, ¬ w.Linked m b := by
  obtain ⟨hins, hnone, houts⟩ := h.attached m hm hhost
  obtain ⟨p, hp⟩ := exists_mem_of_ne_nil _ hins
  refine ⟨⟨p, hp, ?_, (hnone p hp).1⟩, ?_⟩
  · rw [h.graph_ext, (hnone p hp).2]
    simp
  · rintro b ⟨-, o, ho, q, hq, -⟩
    rw [houts o ho] at hq
    cases hq

/-- A module that is not attached has all its inputs connected. -/
lemma not_open (hhost : w.hostOutputPort m = none) : ¬ h.graph.IsOpen m := by
  rintro ⟨p, hp, hext, hup⟩
  rcases h.connected_in m hm hhost p hp with hconn | hconn
  · exact hconn hup
  · exact hext (Option.isSome_iff_ne_none.mpr hconn)

/-- Free modules are behind no cycle and not attached. -/
lemma free_iff : h.graph.Free m ↔ w.hostOutputPort m = none ∧
    ¬ ∃ c, Relation.TransGen w.Linked c c ∧ Relation.ReflTransGen w.Linked c m := by
  rw [← h.link_eq]
  constructor
  · intro hfree
    refine ⟨?_, hfree.1⟩
    by_contra hhost
    exact hfree.2 m .refl (h.attached_open hm hhost).1
  · rintro ⟨hhost, hcycle⟩
    refine ⟨hcycle, fun u hpath => ?_⟩
    -- an attached module leads nowhere, so `u` is not attached
    rcases Relation.ReflTransGen.cases_head hpath with rfl | ⟨x, hlink, -⟩
    · exact h.not_open hm hhost
    · have hu : u ∈ w.modules := hlink.mem_left
      refine h.not_open hu ?_
      by_contra hattached
      exact (h.attached_open hu hattached).2 x (h.link_iff.mp hlink)

end

end Sortable

end GuWorld

/-! ## The answers of the heap -/

/-- The first `c` of the answers were used, and none of them refused. -/
structure Answered (answers : List Bool) (c : ℕ) (w : GuWorld) : Prop where
  rest : w.mallocs = answers.drop c
  granted : ∀ i < c, answers[i]? ≠ some false

/-- The first answer that refuses is number `c`. -/
def RefusedAt (answers : List Bool) (c : ℕ) : Prop :=
  answers[c]? = some false ∧ ∀ i < c, answers[i]? ≠ some false

/-- At most one allocation is refused first. -/
lemma RefusedAt.unique {answers : List Bool} {c d : ℕ} (h : RefusedAt answers c)
    (h' : RefusedAt answers d) : c = d := by
  rcases lt_trichotomy c d with hlt | heq | hlt
  · exact absurd h.1 (h'.2 c hlt)
  · exact heq
  · exact absurd h'.1 (h.2 d hlt)

/-- An answer is used. -/
def GuWorld.answer (w : GuWorld) : GuWorld := { w with mallocs := w.mallocs.tail }

/-- Answer number `c` is used: it grants the allocation, or it is the first that refuses. -/
lemma malloc_triple {answers : List Bool} {c : ℕ} {w : GuWorld} (h : Answered answers c w) :
    Triple (fun t => t = w) malloc (fun _ t => t = w.answer ∧ Answered answers (c + 1) t)
      (fun t => t = w.answer ∧ RefusedAt answers c) := by
  have hhead : w.mallocs.head?.getD true = false ↔ answers[c]? = some false := by
    rw [h.rest, head?_drop]
    cases answers[c]? <;> simp
  have htail : w.answer.mallocs = answers.drop (c + 1) := by
    change w.mallocs.tail = _
    rw [h.rest, tail_drop]
  refine Triple.get_bind fun s hs => ?_
  subst hs
  refine Triple.bind (Q := fun _ t => t = s.answer) (Triple.modify ?_) fun _ => ?_
  · rintro t ⟨rfl, -⟩
    rfl
  · refine Triple.ite (fun hgrant => Triple.pure ?_) fun hrefuse => Triple.throw ?_
    · rintro t rfl
      refine ⟨rfl, htail, fun i hi => ?_⟩
      rcases Nat.lt_succ_iff_lt_or_eq.mp hi with hi | rfl
      · exact h.granted i hi
      · intro hnone
        rw [hhead.mpr hnone] at hgrant
        cases hgrant
    · rintro t rfl
      exact ⟨rfl, hhead.mp (by simpa using hrefuse), h.granted⟩

/-! ## What stays and what is known where the sort stops -/

namespace GuWorld

/-- The modules that have no inputs, in the order of the loops over the graph. -/
def sourceModules (w : GuWorld) : List Addr := w.modules.filter w.isSourceEdge

/-- When answer number `c` is used, no port has been marked yet: it is the first answer, and the
module of the first external input port has external inputs only; or there are no external input
ports, and none of the modules without inputs that are in the sorted list by then has an internal
output port. -/
def UnmarkedAt (w : GuWorld) (c : ℕ) : Prop :=
  match w.gu.extInPortList with
  | e :: _ => c = 0 ∧ ∀ p, w.intInPort e = some p →
      ∀ q ∈ w.inputPortList (w.inModule p), (w.extInPort q).isSome = true
  | [] => ∀ m ∈ w.sourceModules.take (c - w.sourceModules.length),
      ∀ o ∈ w.outputPortList m, ¬ w.IsInternal o

/-- What the sort has left alone: everything but marks of input ports of the graph, the sorted list
and the answers of the heap. -/
structure SortFrame (w₀ w : GuWorld) : Prop where
  same : w.unsorted = w₀.unsorted
  outMark : w.outMark = w₀.outMark
  inMark : ∀ p, (∀ m ∈ w₀.modules, p ∉ w₀.inputPortList m) → w.inMark p = w₀.inMark p

namespace SortFrame

variable {w₀ w : GuWorld}

section

variable (h : SortFrame w₀ w)
include h

/-- A field that the sorting leaves alone. -/
lemma field {τ : Type} (f : GuWorld → τ) (hf : ∀ w, f w.unsorted = f w) : f w = f w₀ := by
  rw [← hf w, h.same, hf]

/-- The input ports stay. -/
lemma inputPortList : w.inputPortList = w₀.inputPortList :=
  h.field GuWorld.inputPortList fun _ => rfl

/-- The output ports stay. -/
lemma outputPortList : w.outputPortList = w₀.outputPortList :=
  h.field GuWorld.outputPortList fun _ => rfl

/-- The modules of the input ports stay. -/
lemma inModule : w.inModule = w₀.inModule :=
  h.field GuWorld.inModule fun _ => rfl

/-- The connections stay. -/
lemma connInPort : w.connInPort = w₀.connInPort :=
  h.field GuWorld.connInPort fun _ => rfl

/-- The external output ports stay. -/
lemma extOutPort : w.extOutPort = w₀.extOutPort :=
  h.field GuWorld.extOutPort fun _ => rfl

/-- The external input ports stay. -/
lemma extInPort : w.extInPort = w₀.extInPort :=
  h.field GuWorld.extInPort fun _ => rfl

/-- The ports behind the external ones stay. -/
lemma intInPort : w.intInPort = w₀.intInPort :=
  h.field GuWorld.intInPort fun _ => rfl

/-- The source modules stay. -/
lemma isSourceEdge : w.isSourceEdge = w₀.isSourceEdge :=
  h.field GuWorld.isSourceEdge fun _ => rfl

/-- An allocation is in the frame. -/
lemma answer : SortFrame w₀ w.answer := ⟨h.same, h.outMark, h.inMark⟩

/-- A mark of an input port is in the frame. -/
lemma markIn {m p : Addr} (hm : m ∈ w₀.modules) (hp : p ∈ w₀.inputPortList m) :
    SortFrame w₀ (w.markIn p) := by
  refine ⟨h.same, h.outMark, fun q hq => ?_⟩
  have hne : q ≠ p := fun heq => hq m hm (heq ▸ hp)
  exact (Function.update_of_ne hne true w.inMark).trans (h.inMark q hq)

/-- Marks of several input ports are in the frame. -/
lemma foldl_markIn {m : Addr} (hm : m ∈ w₀.modules) {ports : List Addr}
    (hports : ∀ p ∈ ports, p ∈ w₀.inputPortList m) :
    SortFrame w₀ (ports.foldl GuWorld.markIn w) := by
  induction ports generalizing w with
  | nil => exact h
  | cons p ports ih =>
    exact ih (h.markIn hm (hports p mem_cons_self))
      fun q hq => hports q (mem_cons_of_mem p hq)

end

end SortFrame

/-- The marks with one more. -/
@[simp] lemma inMark_markIn (w : GuWorld) (p q : Addr) :
    (w.markIn p).inMark q = true ↔ w.inMark q = true ∨ q = p := by
  change update w.inMark p true q = true ↔ _
  by_cases hq : q = p
  · simp [hq]
  · simp [hq]

section

variable (ports : List Addr) (w : GuWorld)

/-- The marks with several more. -/
lemma inMark_foldl_markIn (q : Addr) :
    (ports.foldl GuWorld.markIn w).inMark q = true ↔ w.inMark q = true ∨ q ∈ ports := by
  induction ports generalizing w with
  | nil => simp
  | cons p ports ih =>
    rw [foldl_cons, ih, inMark_markIn, mem_cons]
    exact or_assoc

/-- Marks take no memory. -/
lemma mallocs_foldl_markIn : (ports.foldl GuWorld.markIn w).mallocs = w.mallocs := by
  induction ports generalizing w with
  | nil => rfl
  | cons p ports ih => exact ih (w.markIn p)

/-- Marks do not sort. -/
lemma sortedModuleList_foldl_markIn :
    (ports.foldl GuWorld.markIn w).gu.sortedModuleList = w.gu.sortedModuleList := by
  induction ports generalizing w with
  | nil => rfl
  | cons p ports ih => exact ih (w.markIn p)

end

open scoped Classical in
/-- The modules that are neither attached nor reached by a cycle of links. -/
noncomputable def freeModules (w : GuWorld) : List Addr :=
  w.modules.filter fun m => decide (w.hostOutputPort m = none ∧
    ¬ ∃ c, Relation.TransGen w.Linked c c ∧ Relation.ReflTransGen w.Linked c m)

/-- The free modules, as a list. -/
lemma Sortable.mem_freeModules {w : GuWorld} (h : w.Sortable) (m : Addr) :
    m ∈ w.freeModules ↔ m ∈ h.graph.verts ∧ h.graph.Free m := by
  unfold freeModules
  simp only [mem_filter, decide_eq_true_eq]
  exact and_congr_right fun hm => (h.free_iff hm).symm

/-- No free module is listed twice. -/
lemma Sortable.nodup_freeModules {w : GuWorld} (h : w.Sortable) : w.freeModules.Nodup :=
  h.nodup.filter _

/-- No input port of the graph of `w₀` is marked in `w`. -/
def InUnmarked (w₀ w : GuWorld) : Prop :=
  ∀ m ∈ w₀.modules, ∀ p ∈ w₀.inputPortList m, w.inMark p = false

/-- The sort has stopped at a refused allocation: a list node was missing, and whether a port is
marked can be told from the number of the answer. -/
def Stopped (w₀ : GuWorld) (answers : List Bool) (w : GuWorld) : Prop :=
  SortFrame w₀ w ∧ ∃ c, RefusedAt answers c ∧ c < 2 * w₀.freeModules.length ∧
    (InUnmarked w₀ w ↔ w₀.UnmarkedAt c)

end GuWorld

end AudioReach
