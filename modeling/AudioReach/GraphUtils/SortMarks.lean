import AudioReach.GraphUtils.SortRun

/-!
# The sorted list and the marks that are left

A sort that gets all its list nodes lists the modules as it should and clears the marks of the
graph (`sortedList_right`).  A sort that is refused a list node drops the list but leaves the
marks it has set, so that the next sort may miss modules.  `sortMarks_clear_iff` says when no mark is
left: the allocation that was refused, if any, must come before the first mark.
-/

namespace AudioReach

open Function (update)
open Library List

namespace GuWorld

/-- The sorted list of a graph is right: no module is in it twice, a module stands behind the
modules upstream, and the modules in it are those that are neither attached nor reached by a cycle
of internal links. -/
structure SortedRight (w : GuWorld) (sorted : List Addr) : Prop where
  nodup : sorted.Nodup
  /-- The modules upstream of a listed module are listed before it. -/
  before : ∀ pre b post, sorted = pre ++ b :: post → ∀ a, w.Linked a b → a ∈ pre
  notAttached : ∀ m ∈ sorted, m ∈ w.modules ∧ w.hostOutputPort m = none
  /-- Of the other modules those are missing that a cycle reaches. -/
  listed : ∀ m ∈ w.modules, w.hostOutputPort m = none →
    (m ∈ sorted ↔ ¬ ∃ c, Relation.TransGen w.Linked c c ∧ Relation.ReflTransGen w.Linked c m)

/-- Without a cycle every module that is not attached is listed. -/
lemma SortedRight.complete {w : GuWorld} {sorted : List Addr} (h : w.SortedRight sorted)
    (hacyclic : ∀ c, ¬ Relation.TransGen w.Linked c c) :
    ∀ m ∈ w.modules, w.hostOutputPort m = none → m ∈ sorted :=
  fun m hm hhost => (h.listed m hm hhost).mpr fun ⟨c, hcycle, _⟩ => hacyclic c hcycle

variable {w₀ w : GuWorld}

/-- When no work is left the list is right. -/
lemma sortedRight_of_sortAt {h : w₀.Sortable} {answers : List Bool} {edge F done : List Addr}
    (hs : SortAt h answers edge F done [] w)
    (hF : ∀ u ∈ done, ∀ o ∈ w₀.outputPortList u, o ∈ F) : w₀.SortedRight done := by
  have hmem : ∀ m, m ∈ done ↔ m ∈ w₀.modules ∧ h.graph.Free m :=
    fun m => hs.sorting.mem_iff_free hF
  refine ⟨by simpa using hs.sorting.nodup, ?_, ?_, ?_⟩
  · intro pre b post hsplit a hlink
    refine hs.sorting.before pre b post ?_ a (h.link_iff.mpr hlink)
    rw [append_nil, hsplit]
  · intro m hm
    obtain ⟨hmod, hfree⟩ := (hmem m).mp hm
    exact ⟨hmod, ((h.free_iff hmod).mp hfree).1⟩
  · intro m hm hhost
    rw [hmem, h.free_iff hm]
    exact ⟨fun hfree => hfree.2.2, fun hcycle => ⟨hm, hhost, hcycle⟩⟩

/-- The ports of a list lose their marks. -/
lemma foldl_update_false (ports : List Addr) (mark : Addr → Bool) (p : Addr) :
    ports.foldl (fun mark p => update mark p false) mark p =
      if p ∈ ports then false else mark p := by
  induction ports generalizing mark with
  | nil => simp
  | cons q ports ih =>
    rw [foldl_cons, ih]
    by_cases hp : p ∈ ports
    · simp [hp]
    · by_cases hpq : p = q
      · simp [hpq]
      · simp [hp, hpq]

section

variable {gu : Gu} (hclear : w₀.MarksClear) (hframe : SortFrame w₀ w)
  (hsgs : gu.sgList = w₀.gu.sgList)
include hclear hframe hsgs

/-- `gu_reset_graph_port_markers` undoes what the sort has marked. -/
lemma inMark_reset : (w.guResetGraphPortMarkers gu).inMark = w₀.inMark := by
  funext p
  unfold guResetGraphPortMarkers
  dsimp only
  rw [hsgs, hframe.field GuWorld.sgModuleList fun _ => rfl, hframe.inputPortList,
    foldl_update_false]
  split
  · rename_i hmem
    obtain ⟨m, hm, hp⟩ := mem_flatMap.mp hmem
    exact ((hclear m hm).1 p hp).symm
  · rename_i hnot
    refine hframe.inMark p fun m hm hp => hnot ?_
    exact mem_flatMap.mpr ⟨m, hm, hp⟩

/-- After the reset no output port has a new mark. -/
lemma outMark_reset : (w.guResetGraphPortMarkers gu).outMark = w₀.outMark := by
  funext p
  unfold guResetGraphPortMarkers
  dsimp only
  rw [hsgs, hframe.field GuWorld.sgModuleList fun _ => rfl, hframe.outputPortList,
    foldl_update_false, hframe.outMark]
  split
  · rename_i hmem
    obtain ⟨m, hm, hp⟩ := mem_flatMap.mp hmem
    exact ((hclear m hm).2 p hp).symm
  · rfl

end

/-- The sort has returned: the list is right, the marks are as before and so many answers were
used that all of them granted. -/
structure Returned (w₀ w : GuWorld) : Prop where
  sorted : w₀.SortedRight w.gu.sortedModuleList
  same : w.unsorted = w₀.unsorted
  inMark : w.inMark = w₀.inMark
  outMark : w.outMark = w₀.outMark
  granted : ∀ i < 2 * w₀.freeModules.length, w₀.mallocs[i]? ≠ some false

end GuWorld

open GuWorld

/-- **The sort.** It returns with a sorted list that is right, or stops at a refused allocation. -/
lemma guUpdateSortedList_triple {w₀ : GuWorld} (h : w₀.Sortable) (hclear : w₀.MarksClear) :
    Triple (fun w => w = w₀) guUpdateSortedList (fun _ => Returned w₀) (Stopped w₀ w₀.mallocs) := by
  refine Triple.bind (Q := fun _ w =>
    w = { w₀ with gu := { w₀.gu with sortUpdated := true, sortedModuleList := [] } })
    (Triple.modify fun w hw => by rw [hw]) fun _ => ?_
  refine Triple.get_bind fun w hw => ?_
  refine Triple.onError (E := Stopped w₀ w₀.mallocs) ?_ fun s hs => ?_
  · have hlength : w₀.freeModules.length ≤ w₀.modules.length := by
      exact length_filter_le _ _
    have hseed : SeedAt h w₀.mallocs [] [] w := by
      subst hw
      refine ⟨⟨rfl, rfl, fun _ _ => rfl⟩, ⟨rfl, by simp⟩, rfl, Seeding.start ?_, by simp, ?_⟩
      · exact fun m hm p hp => (hclear m hm).1 p hp
      · exact fun _ => ⟨rfl, fun m hm p hp => (hclear m hm).1 p hp⟩
    have hmods : w.gu.sgList.flatMap w.sgModuleList = w₀.modules := by
      rw [hw]
      rfl
    rw [hmods]
    refine Triple.bind
      ((guFindEdgeModules_triple h w₀.mallocs (by rw [hw]) (by rw [hw])).conseq ?_
        (fun _ _ hs => hs) fun _ hs => hs) fun found => ?_
    · rintro t ⟨rfl, -⟩
      exact hseed
    refine Triple.at_state fun t ⟨edge, hfound, ht⟩ => ?_
    have hstart := SortAt.start ht
    rw [← hfound] at hstart
    refine Triple.bind
      ((guSortLoop_triple h w₀.mallocs found _ found).conseq ?_ (fun _ _ hs => hs) fun _ hs => hs)
      fun _ => Triple.modify ?_
    · rintro s rfl
      refine ⟨[], [], hstart, by simp, ?_⟩
      rw [length_nil, Nat.zero_add]
      exact hlength.trans (Nat.le_add_right _ _)
    · rintro s ⟨F, done, hs, hF⟩
      have hsgs : w.gu.sgList = w₀.gu.sgList := by rw [hw]
      refine ⟨?_, hs.frame.same, inMark_reset hclear hs.frame hsgs,
        outMark_reset hclear hs.frame hsgs, ?_⟩
      · change w₀.SortedRight s.gu.sortedModuleList
        rw [hs.sorted]
        exact sortedRight_of_sortAt hs hF
      · have hcount := hs.sorting.length_eq hF h.mem_freeModules h.nodup_freeModules
        have hgranted := hs.answered.granted
        rw [length_nil, Nat.add_zero, hcount] at hgranted
        exact hgranted
  · obtain ⟨⟨hsame, hout, hin⟩, hstop⟩ := hs
    exact ⟨⟨hsame, hout, hin⟩, hstop⟩

/-! ## With all allocations -/

/-- **The sorted list.** On a graph that can be sorted, without marks and with all allocations
succeeding, `gu_update_sorted_list` returns a sorted list that is right; without cycles every module
that is not attached is in it. -/
theorem sortedList_right {w : GuWorld} (h : w.Sortable) (hclear : w.MarksClear)
    (hok : ∀ b ∈ w.mallocs, b = true) :
    ∃ t, guUpdateSortedList w = .ok ⟨⟩ t ∧ w.SortedRight t.gu.sortedModuleList ∧
      ((∀ c, ¬ Relation.TransGen w.Linked c c) →
        ∀ m ∈ w.modules, w.hostOutputPort m = none → m ∈ t.gu.sortedModuleList) := by
  have htriple := guUpdateSortedList_triple h hclear w rfl
  cases hrun : guUpdateSortedList w with
  | ok a t =>
    rw [hrun] at htriple
    exact ⟨t, rfl, htriple.sorted, htriple.sorted.complete⟩
  | error e t =>
    rw [hrun] at htriple
    obtain ⟨-, c, href, -⟩ := htriple
    have := hok false (mem_of_getElem? href.1)
    cases this

/-! ## With refused allocations -/

namespace GuWorld

/-- If an allocation of the sort is refused, it is one that comes before the first mark.  The sort of
a graph with `n` modules to list makes `2 * n` allocations. -/
def SortFits (w : GuWorld) : Prop :=
  ∀ c, RefusedAt w.mallocs c → c < 2 * w.freeModules.length → w.UnmarkedAt c

/-- The sorted list that the sort would build with these answers of the heap. -/
def sortWith (w : GuWorld) (answers : List Bool) : List Addr :=
  (endState guUpdateSortedList { w with mallocs := answers }).gu.sortedModuleList

/-- Sorting depends on the graph, the marks and the memory only. -/
lemma sortWith_congr {w t : GuWorld} (hsame : t.unsorted = w.unsorted)
    (hin : t.inMark = w.inMark) (hout : t.outMark = w.outMark) (answers : List Bool) :
    t.sortWith answers = w.sortWith answers := by
  have hstart : ∀ v : GuWorld, endState guUpdateSortedList { v with mallocs := answers } =
      endState guUpdateSortedList
        { v.unsorted with inMark := v.inMark, outMark := v.outMark, mallocs := answers } :=
    fun _ => rfl
  unfold sortWith
  rw [hstart t, hstart w, hsame, hin, hout]

section

variable {w₀ w : GuWorld} (hframe : SortFrame w₀ w) (hclear : w₀.MarksClear)
include hframe hclear

/-- Ports without marks are as they were. -/
lemma SortFrame.inMark_eq (hun : InUnmarked w₀ w) : w.inMark = w₀.inMark := by
  funext p
  by_cases hp : ∃ m ∈ w₀.modules, p ∈ w₀.inputPortList m
  · obtain ⟨m, hm, hp⟩ := hp
    rw [hun m hm p hp, (hclear m hm).1 p hp]
  · push Not at hp
    exact hframe.inMark p hp

/-- The marks are clear exactly if no input port has a new one. -/
lemma marksClear_iff : w.MarksClear ↔ InUnmarked w₀ w := by
  have hmods : w.modules = w₀.modules :=
    hframe.field (fun w => w.gu.sgList.flatMap w.sgModuleList) fun _ => rfl
  unfold MarksClear InUnmarked
  rw [hmods, hframe.inputPortList, hframe.outputPortList, hframe.outMark]
  exact ⟨fun h m hm => (h m hm).1, fun h m hm => ⟨h m hm, (hclear m hm).2⟩⟩

end

end GuWorld

/-- **The marks that are left.** After a sort of a graph without marks, however it ends, no port of
the graph is marked and the next sort builds the list it would have built before, exactly if no
allocation of the sort is refused or the refused one comes before the first mark. -/
theorem sortMarks_clear_iff {w : GuWorld} (h : w.Sortable) (hclear : w.MarksClear) :
    ((endState guUpdateSortedList w).MarksClear ∧ ∀ answers : List Bool, (∀ b ∈ answers, b = true) →
        (endState guUpdateSortedList w).sortWith answers = w.sortWith answers) ↔ w.SortFits := by
  have htriple := guUpdateSortedList_triple h hclear w rfl
  unfold endState
  cases hrun : guUpdateSortedList w with
  | ok a t =>
    rw [hrun] at htriple
    have hframe : SortFrame w t :=
      ⟨htriple.same, htriple.outMark, fun p _ => by rw [htriple.inMark]⟩
    refine iff_of_true ⟨?_, fun answers _ => ?_⟩ ?_
    · rw [marksClear_iff hframe hclear]
      intro m hm p hp
      rw [htriple.inMark]
      exact (hclear m hm).1 p hp
    · exact sortWith_congr htriple.same htriple.inMark htriple.outMark answers
    · exact fun c href hc => absurd href.1 (htriple.granted c hc)
  | error e t =>
    rw [hrun] at htriple
    obtain ⟨hframe, c, href, hc, hun⟩ := htriple
    constructor
    · rintro ⟨hmarks, -⟩ d href' -
      rw [href'.unique href]
      exact hun.mp ((marksClear_iff hframe hclear).mp hmarks)
    · intro hfits
      have hclear' := hun.mpr (hfits c href hc)
      exact ⟨(marksClear_iff hframe hclear).mpr hclear', fun answers _ =>
        sortWith_congr hframe.same (hframe.inMark_eq hclear hclear') hframe.outMark answers⟩

/-! ## A source and a sink -/

/-- A source module 2 whose output port 4 is linked to the input port 5 of module 3. -/
def sourceAndSink (answers : List Bool) : GuWorld :=
  { GuWorld.init with
    next := 6
    gu := { Gu.empty with sgList := [1] }
    sgModuleList := fun sg => if sg = 1 then [2, 3] else []
    moduleSg := fun _ => 1
    outputPortList := fun m => if m = 2 then [4] else []
    inputPortList := fun m => if m = 3 then [5] else []
    numOutputPorts := fun m => if m = 2 then 1 else 0
    numInputPorts := fun m => if m = 3 then 1 else 0
    outModule := fun _ => 2
    inModule := fun _ => 3
    connInPort := fun o => if o = 4 then some 5 else none
    connOutPort := fun i => if i = 5 then some 4 else none
    mallocs := answers }

/-- The modules of the example. -/
lemma mem_modules_sourceAndSink {m : Addr} : m ∈ (sourceAndSink []).modules ↔ m = 2 ∨ m = 3 := by
  change m ∈ [2, 3] ↔ _
  simp

/-- The example can be sorted. -/
lemma sortable_sourceAndSink_nil : (sourceAndSink []).Sortable where
  nodup := by decide
  outs_own := by decide
  ins_own := by decide
  outs_nodup := by decide
  num_in := by decide
  conn_in := by
    intro m hm o ho p hp
    rcases mem_modules_sourceAndSink.mp hm with rfl | rfl
    · obtain rfl : o = 4 := mem_singleton.mp ho
      cases hp
      exact ⟨by decide, by decide, rfl⟩
    · cases ho
  conn_out := by
    intro m hm p hp o ho
    rcases mem_modules_sourceAndSink.mp hm with rfl | rfl
    · cases hp
    · obtain rfl : p = 5 := mem_singleton.mp hp
      cases ho
      exact ⟨by decide, by decide, rfl⟩
  ext_in := fun _ _ _ _ _ he => nomatch he
  int_in := fun _ he => nomatch he
  in_one := fun _ _ _ _ => Or.inr rfl
  out_one := fun _ _ _ _ => Or.inr rfl
  attached := fun _ _ h => absurd rfl h
  connected_out := by decide
  connected_in := by decide

/-- Memory does not matter for that. -/
lemma sortable_sourceAndSink (answers : List Bool) : (sourceAndSink answers).Sortable :=
  have h := sortable_sourceAndSink_nil
  ⟨⟨h.nodup, h.outs_own, h.ins_own, h.outs_nodup, h.num_in, h.conn_in, h.conn_out, h.ext_in,
    h.int_in, h.in_one, h.out_one, h.attached, h.connected_out⟩, h.connected_in⟩

/-- The example has no marks. -/
lemma marksClear_sourceAndSink (answers : List Bool) : (sourceAndSink answers).MarksClear :=
  fun _ _ => ⟨fun _ _ => rfl, fun _ _ => rfl⟩

/-- Both modules are sorted. -/
theorem sortedList_right_sourceAndSink : ∃ t, guUpdateSortedList (sourceAndSink []) = .ok ⟨⟩ t ∧
      (sourceAndSink []).SortedRight t.gu.sortedModuleList ∧
      ((∀ c, ¬ Relation.TransGen (sourceAndSink []).Linked c c) →
        ∀ m ∈ (sourceAndSink []).modules, (sourceAndSink []).hostOutputPort m = none →
          m ∈ t.gu.sortedModuleList) :=
  sortedList_right (sortable_sourceAndSink []) (marksClear_sourceAndSink []) (by decide)

/-- The list node is refused, and marks are left exactly if the condition fails. -/
theorem sortMarks_clear_iff_sourceAndSink :
    ((endState guUpdateSortedList (sourceAndSink [false])).MarksClear ∧
      ∀ answers : List Bool, (∀ b ∈ answers, b = true) →
        (endState guUpdateSortedList (sourceAndSink [false])).sortWith answers =
          (sourceAndSink [false]).sortWith answers) ↔ (sourceAndSink [false]).SortFits :=
  sortMarks_clear_iff (sortable_sourceAndSink [false]) (marksClear_sourceAndSink [false])

/-- **Marks are left.** The first list node is refused, behind a port that was marked. -/
theorem sortMarks_not_clear : ¬ ∀ w : GuWorld, w.Sortable → w.MarksClear →
      (endState guUpdateSortedList w).MarksClear ∧
        ∀ answers : List Bool, (∀ b ∈ answers, b = true) →
          (endState guUpdateSortedList w).sortWith answers = w.sortWith answers := by
  intro h
  -- the list node for the sink is refused after its port was marked
  have hclear := (h (sourceAndSink [true, true, false]) (sortable_sourceAndSink _)
    (marksClear_sourceAndSink _)).1
  exact absurd ((hclear 3 (by decide)).1 5 (by decide)) (by decide)

/-! ## An input port without a connection -/

/-- A module 2 whose only input port 5 leads nowhere. -/
def danglingInput : GuWorld :=
  { GuWorld.init with
    next := 6
    gu := { Gu.empty with sgList := [1] }
    sgModuleList := fun sg => if sg = 1 then [2] else []
    moduleSg := fun _ => 1
    inputPortList := fun m => if m = 2 then [5] else []
    numInputPorts := fun m => if m = 2 then 1 else 0
    inModule := fun _ => 2 }

/-- The links of the example are symmetric. -/
lemma symmetricPorts_danglingInput : danglingInput.SymmetricPorts where
  nodup := by decide
  outs_own := by decide
  ins_own := by decide
  outs_nodup := by decide
  num_in := by decide
  conn_in := fun _ _ _ ho => nomatch ho
  conn_out := fun _ _ _ _ _ ho => nomatch ho
  ext_in := fun _ _ _ _ _ he => nomatch he
  int_in := fun _ he => nomatch he
  in_one := fun _ _ _ _ => Or.inr rfl
  out_one := fun _ _ _ _ => Or.inr rfl
  attached := fun _ _ h => absurd rfl h
  connected_out := by decide

/-- The module is no source, and neither an external port nor a link leads to it: it is missing
from the list. -/
theorem not_sortedList_right : ¬ ∀ w : GuWorld, w.SymmetricPorts → w.MarksClear →
    (∀ b ∈ w.mallocs, b = true) →
    ∃ t, guUpdateSortedList w = .ok ⟨⟩ t ∧ w.SortedRight t.gu.sortedModuleList ∧
      ((∀ c, ¬ Relation.TransGen w.Linked c c) →
        ∀ m ∈ w.modules, w.hostOutputPort m = none → m ∈ t.gu.sortedModuleList) := by
  intro h
  obtain ⟨t, hrun, -, hall⟩ := h danglingInput symmetricPorts_danglingInput
    (fun _ _ => ⟨fun _ _ => rfl, fun _ _ => rfl⟩) (by decide)
  have hlink : ∀ a b, ¬ danglingInput.Linked a b := fun a b ⟨_, o, ho, _⟩ => nomatch ho
  have hlisted := hall (fun c hc => (Relation.TransGen.head'_iff.mp hc).elim
    fun b hb => hlink c b hb.1) 2 (by decide) rfl
  have hend : t = endState guUpdateSortedList danglingInput := by rw [endState, hrun]
  rw [hend] at hlisted
  revert hlisted
  decide

end AudioReach
