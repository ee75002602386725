import Mathlib.Data.List.Nodup
import AudioReach.ContGraph.Model
import AudioReach.Library.Assign

/-!
# The lists of the graphs

`Tidy` says that the graphs and the containers agree: a container is in the list of a graph
exactly when it points to it, the counters are the lengths of the lists, the sub-graphs of a graph
are those of its containers, and the containers that point nowhere are standalone.  Each of the
operations on graphs keeps this, and each changes the pointers of the containers in its own way.
-/

namespace AudioReach

open Function (update update_apply update_of_ne update_self)
open List Library

/-! ## Sub-graphs -/

namespace ContGraph

/-- The sub-graph list has no duplicates and is counted. -/
structure SgTidy (g : ContGraph) : Prop where
  nodup : g.subGraphList.Nodup
  /-- `num_sub_graphs` is the length of the list. -/
  numSubGraphs : g.numSubGraphs = g.subGraphList.length

/-- Only the sub-graphs of the graph change. -/
structure SameConts (g g' : ContGraph) : Prop where
  containerList : g'.containerList = g.containerList
  numContainers : g'.numContainers = g.numContainers

variable {g : ContGraph}

lemma SgTidy.addSg (h : g.SgTidy) (sg : Addr) : (g.addSg sg).SgTidy := by
  unfold ContGraph.addSg
  split
  · exact h
  · rename_i hnew
    refine ⟨List.Nodup.append h.nodup (nodup_singleton sg) ?_, ?_⟩
    · exact disjoint_singleton.mpr hnew
    · simp [h.numSubGraphs]

lemma mem_addSg (sg sg' : Addr) :
    sg' ∈ (g.addSg sg).subGraphList ↔ sg' ∈ g.subGraphList ∨ sg' = sg := by
  unfold addSg
  split
  · rename_i hold
    constructor
    · exact Or.inl
    · rintro (h | rfl)
      · exact h
      · exact hold
  · simp

lemma sameConts_addSg (g : ContGraph) (sg : Addr) : SameConts g (g.addSg sg) := by
  unfold addSg
  split
  · exact ⟨rfl, rfl⟩
  · exact ⟨rfl, rfl⟩

lemma SgTidy.foldl (h : g.SgTidy) (sgs : List Addr) :
    (sgs.foldl ContGraph.addSg g).SgTidy ∧ SameConts g (sgs.foldl ContGraph.addSg g) ∧
      ∀ sg, sg ∈ (sgs.foldl ContGraph.addSg g).subGraphList ↔ sg ∈ g.subGraphList ∨ sg ∈ sgs := by
  induction sgs generalizing g with
  | nil => exact ⟨h, ⟨rfl, rfl⟩, by simp⟩
  | cons sg sgs ih =>
    obtain ⟨htidy, hsame, hmem⟩ := ih (h.addSg sg)
    have hone := sameConts_addSg g sg
    refine ⟨htidy, ⟨hsame.containerList.trans hone.containerList,
      hsame.numContainers.trans hone.numContainers⟩, ?_⟩
    intro sg'
    rw [foldl_cons, hmem, mem_addSg, mem_cons, or_assoc]

end ContGraph

namespace ContGraphInfo

open ContGraph

variable {info : ContGraphInfo} {conts : List Addr}

/-- `cont_graph_ptr` of a container. -/
def ptr (info : ContGraphInfo) (c : Addr) : Option Addr := (info.conts c).contGraphPtr

/-- The sub-graphs of a container. -/
def sgs (info : ContGraphInfo) (c : Addr) : List Addr := (info.conts c).subGraphList

/-! ## Graphs that agree with their containers -/

/-- Graph `g` agrees with its containers. -/
structure GraphTidy (info : ContGraphInfo) (g : Addr) : Prop where
  nonempty : (info.graphs g).containerList ≠ []
  nodup : (info.graphs g).containerList.Nodup
  /-- `num_containers` is the length of the list. -/
  numContainers : (info.graphs g).numContainers = (info.graphs g).containerList.length
  ptr : ∀ c ∈ (info.graphs g).containerList, info.ptr c = some g
  /-- The sub-graph list has no duplicates and is counted. -/
  sgTidy : (info.graphs g).SgTidy
  mem_sgs : ∀ sg, sg ∈ (info.graphs g).subGraphList ↔
    ∃ c ∈ (info.graphs g).containerList, sg ∈ info.sgs c

/-- The graphs and the containers agree. -/
structure Tidy (conts : List Addr) (info : ContGraphInfo) : Prop where
  graphs : ∀ g ∈ info.contGraphList, GraphTidy info g
  members : ∀ g ∈ info.contGraphList, ∀ c ∈ (info.graphs g).containerList, c ∈ conts
  /-- A container is in the graph that it points to. -/
  back : ∀ c ∈ conts, ∀ g, info.ptr c = some g →
    g ∈ info.contGraphList ∧ c ∈ (info.graphs g).containerList
  nodup : info.contGraphList.Nodup
  /-- `num_cont_graphs` is the length of the list. -/
  numContGraphs : info.numContGraphs = info.contGraphList.length
  fresh : ∀ g ∈ info.contGraphList, g < info.nextGraph
  /-- The containers without a graph are standalone. -/
  standalone : info.standaloneContList = conts.filter fun c => info.ptr c = none

/-- A graph stays in order while it and the containers in it stay as they are. -/
lemma GraphTidy.congr {info' : ContGraphInfo} {g : Addr} (h : GraphTidy info g)
    (hgraph : info'.graphs g = info.graphs g)
    (hptr : ∀ c ∈ (info.graphs g).containerList, info'.ptr c = info.ptr c)
    (hsgs : ∀ c, info'.sgs c = info.sgs c) : GraphTidy info' g := by
  refine ⟨?_, ?_, ?_, ?_, ?_, ?_⟩
  · rw [hgraph]
    exact h.nonempty
  · rw [hgraph]
    exact h.nodup
  · rw [hgraph]
    exact h.numContainers
  · rw [hgraph]
    intro c hc
    rw [hptr c hc]
    exact h.ptr c hc
  · rw [hgraph]
    exact h.sgTidy
  · rw [hgraph]
    intro sg
    simp only [hsgs]
    exact h.mem_sgs sg

/-! ## One pointer -/

section

variable (info : ContGraphInfo) (c c' : Addr)

lemma ptr_setContGraphPtr (g : Option Addr) :
    (info.setContGraphPtr c g).ptr c' = if c' = c then g else info.ptr c' := by
  simp only [ptr, setContGraphPtr, update_apply, apply_ite Cont.contGraphPtr]

lemma sgs_setContGraphPtr (g : Option Addr) : (info.setContGraphPtr c g).sgs c' = info.sgs c' :=
  apply_update_eq (p := Cont.subGraphList) (by rfl) c'

lemma ptr_createContGraph :
    (info.createContGraph c).ptr c' = if c' = c then some info.nextGraph else info.ptr c' :=
  ptr_setContGraphPtr info c c' _

lemma sgs_createContGraph : (info.createContGraph c).sgs c' = info.sgs c' :=
  sgs_setContGraphPtr info c c' _

end

section

variable (info : ContGraphInfo) (g c c' : Addr) (retainSorted : Bool)

lemma ptr_addToContGraph :
    (info.addToContGraph g c retainSorted).ptr c' = if c' = c then some g else info.ptr c' :=
  ptr_setContGraphPtr info c c' _

lemma sgs_addToContGraph : (info.addToContGraph g c retainSorted).sgs c' = info.sgs c' :=
  sgs_setContGraphPtr info c c' _

end

lemma erase_standalone {ptr ptr' : Addr → Option Addr} (hconts : conts.Nodup) {c g : Addr}
    (hptr : ∀ c', ptr' c' = if c' = c then some g else ptr c') :
    (conts.filter fun c' => ptr c' = none).erase c = conts.filter fun c' => ptr' c' = none := by
  rw [List.Nodup.erase_eq_filter (hconts.filter _), filter_filter]
  apply filter_congr
  intro c' _
  rw [hptr]
  by_cases heq : c' = c <;> simp [heq]

/-- A container without a graph is in none. -/
lemma Tidy.ne_of_ptr (h : Tidy conts info) {c : Addr} (hnone : info.ptr c = none) :
    ∀ g ∈ info.contGraphList, ∀ c' ∈ (info.graphs g).containerList, c' ≠ c := by
  rintro g hg c' hc' rfl
  rw [(h.graphs g hg).ptr c' hc'] at hnone
  cases hnone

/-! ## The start -/

/-- Before any link is reported, all containers are standalone. -/
lemma tidy_of_standalone (hlist : info.contGraphList = []) (hnum : info.numContGraphs = 0)
    (hstandalone : info.standaloneContList = conts) (hptr : ∀ c ∈ conts, info.ptr c = none) :
    Tidy conts info := by
  refine ⟨?_, ?_, ?_, ?_, ?_, ?_, ?_⟩
  · intro g hg
    rw [hlist] at hg
    cases hg
  · intro g hg
    rw [hlist] at hg
    cases hg
  · intro c hc g hg
    rw [hptr c hc] at hg
    cases hg
  · rw [hlist]
    exact nodup_nil
  · rw [hnum, hlist]
    rfl
  · intro g hg
    rw [hlist] at hg
    cases hg
  · rw [hstandalone]
    symm
    apply filter_eq_self.mpr
    intro c hc
    exact decide_eq_true (hptr c hc)

/-! ## A new graph -/

/-- A graph is created for a container without one. -/
lemma Tidy.createContGraph (h : Tidy conts info) (hconts : conts.Nodup) {c : Addr} (hc : c ∈ conts)
    (hnone : info.ptr c = none) : Tidy conts (info.createContGraph c) := by
  have hfresh : ∀ g ∈ info.contGraphList, g ≠ info.nextGraph := fun g hg =>
    Nat.ne_of_lt (h.fresh g hg)
  have hold : ∀ g ∈ info.contGraphList, (info.createContGraph c).graphs g = info.graphs g :=
    fun g hg => update_of_ne (hfresh g hg) _ _
  have hout := h.ne_of_ptr hnone
  have hblank : (blank.addCont c).SgTidy := ⟨nodup_nil, rfl⟩
  obtain ⟨hsg, hsame, hmem⟩ := hblank.foldl (info.sgs c)
  have hgraph : (info.createContGraph c).graphs info.nextGraph =
      { (info.sgs c).foldl ContGraph.addSg (blank.addCont c) with
        contListTail := ((info.sgs c).foldl ContGraph.addSg (blank.addCont c)).containerList.head?
        graphIsSorted := true } := update_self _ _ _
  have hnew : ((info.createContGraph c).graphs info.nextGraph).containerList = [c] := by
    rw [hgraph]
    exact hsame.containerList
  have hnewTidy : GraphTidy (info.createContGraph c) info.nextGraph := by
    refine ⟨?_, ?_, ?_, ?_, ?_, ?_⟩
    · rw [hnew]
      exact cons_ne_nil c []
    · rw [hnew]
      exact nodup_singleton c
    · rw [hnew, hgraph]
      exact hsame.numContainers
    · rw [hnew]
      intro c' hc'
      rw [ptr_createContGraph, if_pos (mem_singleton.mp hc')]
    · rw [hgraph]
      exact ⟨hsg.nodup, hsg.numSubGraphs⟩
    · intro sg
      rw [hnew, hgraph]
      rw [hmem]
      simp [sgs_createContGraph, blank, addCont]
  refine ⟨?_, ?_, ?_, ?_, ?_, ?_, ?_⟩
  · intro g hg
    rcases mem_append.mp hg with hg | hg
    · refine (h.graphs g hg).congr (hold g hg) ?_ (sgs_createContGraph info c)
      intro c' hc'
      rw [ptr_createContGraph, if_neg (hout g hg c' hc')]
    · rw [mem_singleton.mp hg]
      exact hnewTidy
  · intro g hg c' hc'
    rcases mem_append.mp hg with hg | hg
    · rw [hold g hg] at hc'
      exact h.members g hg c' hc'
    · rw [mem_singleton.mp hg, hnew] at hc'
      rw [mem_singleton.mp hc']
      exact hc
  · intro c' hc' g hg
    rw [ptr_createContGraph] at hg
    split at hg
    · rename_i heq
      obtain rfl := Option.some.inj hg
      refine ⟨mem_append_right _ (mem_singleton_self _), ?_⟩
      rw [hnew, heq]
      exact mem_singleton_self c
    · obtain ⟨hin, hmem'⟩ := h.back c' hc' g hg
      refine ⟨mem_append_left _ hin, ?_⟩
      rw [hold g hin]
      exact hmem'
  · refine List.Nodup.append h.nodup (nodup_singleton _) ?_
    exact disjoint_singleton.mpr fun hin => hfresh _ hin rfl
  · change info.numContGraphs + 1 = (info.contGraphList ++ [info.nextGraph]).length
    rw [h.numContGraphs, length_append]
    rfl
  · intro g hg
    rcases mem_append.mp hg with hg | hg
    · exact Nat.lt_succ_of_lt (h.fresh g hg)
    · rw [mem_singleton.mp hg]
      exact Nat.lt_succ_self _
  · change info.standaloneContList.erase c = _
    rw [h.standalone]
    exact erase_standalone hconts (ptr_createContGraph info c)

/-! ## One more container -/

/-- A container without a graph is added to one. -/
lemma Tidy.addToContGraph (h : Tidy conts info) (hconts : conts.Nodup) {g c : Addr}
    (hg : g ∈ info.contGraphList) (hc : c ∈ conts) (hnone : info.ptr c = none)
    (retainSorted : Bool) : Tidy conts (info.addToContGraph g c retainSorted) := by
  have hother : ∀ g', g' ≠ g →
      (info.addToContGraph g c retainSorted).graphs g' = info.graphs g' := fun g' hne =>
    update_of_ne hne _ _
  have hout := h.ne_of_ptr hnone
  have hsgOld : ((info.graphs g).addCont c).SgTidy :=
    ⟨(h.graphs g hg).sgTidy.nodup, (h.graphs g hg).sgTidy.numSubGraphs⟩
  obtain ⟨hsg, hsame, hmem⟩ := hsgOld.foldl (info.sgs c)
  have hgraph : (info.addToContGraph g c retainSorted).graphs g =
      { (info.sgs c).foldl ContGraph.addSg ((info.graphs g).addCont c) with
        graphIsSorted := retainSorted } := update_self _ _ _
  have hlist : ((info.addToContGraph g c retainSorted).graphs g).containerList =
      (info.graphs g).containerList ++ [c] := by
    rw [hgraph]
    exact hsame.containerList
  have hnewTidy : GraphTidy (info.addToContGraph g c retainSorted) g := by
    refine ⟨?_, ?_, ?_, ?_, ?_, ?_⟩
    · rw [hlist]
      exact append_ne_nil_of_right_ne_nil _ (cons_ne_nil c [])
    · rw [hlist]
      refine List.Nodup.append (h.graphs g hg).nodup (nodup_singleton c) ?_
      exact disjoint_singleton.mpr fun hin => hout g hg c hin rfl
    · rw [hlist, hgraph, length_append]
      refine hsame.numContainers.trans ?_
      change (info.graphs g).numContainers + 1 = _
      rw [(h.graphs g hg).numContainers]
      rfl
    · rw [hlist]
      intro c' hc'
      rw [ptr_addToContGraph]
      rcases mem_append.mp hc' with hc' | hc'
      · rw [if_neg (hout g hg c' hc')]
        exact (h.graphs g hg).ptr c' hc'
      · rw [if_pos (mem_singleton.mp hc')]
    · rw [hgraph]
      exact ⟨hsg.nodup, hsg.numSubGraphs⟩
    · intro sg
      rw [hlist, hgraph]
      rw [hmem]
      simp only [sgs_addToContGraph, mem_append, mem_singleton]
      change sg ∈ (info.graphs g).subGraphList ∨ _ ↔ _
      rw [(h.graphs g hg).mem_sgs]
      constructor
      · rintro (⟨c', hc', hin⟩ | hin)
        · exact ⟨c', Or.inl hc', hin⟩
        · exact ⟨c, Or.inr rfl, hin⟩
      · rintro ⟨c', hc' | rfl, hin⟩
        · exact Or.inl ⟨c', hc', hin⟩
        · exact Or.inr hin
  refine ⟨?_, ?_, ?_, h.nodup, h.numContGraphs, h.fresh, ?_⟩
  · intro g' hg'
    by_cases heq : g' = g
    · rw [heq]
      exact hnewTidy
    · refine (h.graphs g' hg').congr (hother g' heq) ?_
        (fun c' => sgs_addToContGraph info g c c' retainSorted)
      intro c' hc'
      rw [ptr_addToContGraph, if_neg (hout g' hg' c' hc')]
  · intro g' hg' c' hc'
    by_cases heq : g' = g
    · rw [heq, hlist] at hc'
      rcases mem_append.mp hc' with hc' | hc'
      · exact h.members g hg c' hc'
      · rw [mem_singleton.mp hc']
        exact hc
    · rw [hother g' heq] at hc'
      exact h.members g' hg' c' hc'
  · intro c' hc' g' hg'
    rw [ptr_addToContGraph] at hg'
    split at hg'
    · rename_i heq
      obtain rfl := Option.some.inj hg'
      refine ⟨hg, ?_⟩
      rw [hlist, heq]
      exact mem_append_right _ (mem_singleton_self c)
    · obtain ⟨hin, hmem'⟩ := h.back c' hc' g' hg'
      refine ⟨hin, ?_⟩
      by_cases heq : g' = g
      · subst heq
        rw [hlist]
        exact mem_append_left _ hmem'
      · rw [hother g' heq]
        exact hmem'
  · change info.standaloneContList.erase c = _
    rw [h.standalone]
    exact erase_standalone hconts fun c' => ptr_addToContGraph info g c c' retainSorted

/-! ## Two graphs become one -/

lemma foldl_setContGraphPtr (list : List Addr) (gs : Addr) (info : ContGraphInfo) :
    let out := list.foldl (fun info c => info.setContGraphPtr c (some gs)) info
    (∀ c, out.ptr c = if c ∈ list then some gs else info.ptr c) ∧
      (∀ c, out.sgs c = info.sgs c) ∧ out = { info with conts := out.conts } := by
  induction list generalizing info with
  | nil => exact ⟨fun c => by simp, fun c => rfl, rfl⟩
  | cons a list ih =>
    obtain ⟨hptr, hsgs, hrest⟩ := ih (info.setContGraphPtr a (some gs))
    refine ⟨?_, fun c => (hsgs c).trans (sgs_setContGraphPtr info a c _), hrest⟩
    intro c
    rw [foldl_cons, hptr, ptr_setContGraphPtr]
    by_cases hin : c ∈ list
    · rw [if_pos hin, if_pos (mem_cons_of_mem a hin)]
    · rw [if_neg hin]
      by_cases heq : c = a
      · rw [if_pos heq, if_pos (by rw [heq]; exact mem_cons_self)]
      · rw [if_neg heq, if_neg (by simp [heq, hin])]

/-- What the merge of two graphs does. -/
lemma mergeContGraphs_eq (info : ContGraphInfo) (gs : Addr) {gd : Addr} (hgd : gd ∈ info.contGraphList)
    (retainSorted : Bool) : ∃ conts : Addr → Cont,
    (∀ c, (conts c).contGraphPtr =
      if c ∈ (info.graphs gd).containerList then some gs else info.ptr c) ∧
    (∀ c, (conts c).subGraphList = info.sgs c) ∧
    info.mergeContGraphs gs gd retainSorted =
      { conts := conts
        graphs := update info.graphs gs
          { (info.graphs gd).subGraphList.foldl ContGraph.addSg { info.graphs gs with
              containerList := (info.graphs gs).containerList ++ (info.graphs gd).containerList
              numContainers :=
                (info.graphs gs).numContainers + (info.graphs gd).numContainers } with
            graphIsSorted := retainSorted }
        nextGraph := info.nextGraph
        numContGraphs := info.numContGraphs - 1
        contGraphList := info.contGraphList.erase gd
        standaloneContList := info.standaloneContList } := by
  obtain ⟨hptr, hsgs, hrest⟩ := foldl_setContGraphPtr (info.graphs gd).containerList gs info
  refine ⟨_, hptr, hsgs, ?_⟩
  unfold mergeContGraphs
  dsimp only
  rw [hrest]
  unfold deleteContGraph
  rw [if_pos hgd]
  rfl

/-- Two graphs are merged. -/
lemma Tidy.mergeContGraphs (h : Tidy conts info) {gs gd : Addr} (hgs : gs ∈ info.contGraphList)
    (hgd : gd ∈ info.contGraphList) (hne : gs ≠ gd) (retainSorted : Bool) :
    Tidy conts (info.mergeContGraphs gs gd retainSorted) := by
  obtain ⟨mem, hptr, hsgs, hmerge⟩ := mergeContGraphs_eq info gs hgd retainSorted
  rw [hmerge]
  set src := info.graphs gs with hsrc
  set dst := info.graphs gd with hdst
  have htsrc := h.graphs gs hgs
  have htdst := h.graphs gd hgd
  have hbase : ContGraph.SgTidy { src with
      containerList := src.containerList ++ dst.containerList
      numContainers := src.numContainers + dst.numContainers } :=
    ⟨htsrc.sgTidy.nodup, htsrc.sgTidy.numSubGraphs⟩
  obtain ⟨hsg, hsame, hmem⟩ := hbase.foldl dst.subGraphList
  have hlist : ∀ g, g ∈ info.contGraphList.erase gd ↔ g ∈ info.contGraphList ∧ g ≠ gd := by
    intro g
    rw [h.nodup.mem_erase_iff, and_comm]
  have hdisjoint : ∀ c ∈ src.containerList, c ∉ dst.containerList := by
    intro c hc hd
    have heq := (htsrc.ptr c hc).symm.trans (htdst.ptr c hd)
    exact hne (Option.some.inj heq)
  refine ⟨?_, ?_, ?_, h.nodup.erase gd, ?_, ?_, ?_⟩
  · intro g hg
    obtain ⟨hg, hgd'⟩ := (hlist g).mp hg
    by_cases heq : g = gs
    · subst heq
      refine ⟨?_, ?_, ?_, ?_, ?_, ?_⟩
      all_goals dsimp only
      all_goals rw [update_self]
      · rw [hsame.containerList]
        exact append_ne_nil_of_left_ne_nil htsrc.nonempty _
      · rw [hsame.containerList]
        exact List.Nodup.append htsrc.nodup htdst.nodup hdisjoint
      · rw [hsame.containerList, hsame.numContainers]
        rw [length_append, htsrc.numContainers, htdst.numContainers]
      · rw [hsame.containerList]
        intro c hc
        change (mem c).contGraphPtr = _
        rw [hptr c]
        split
        · rfl
        · rename_i hnot
          exact htsrc.ptr c ((mem_append.mp hc).resolve_right hnot)
      · exact ⟨hsg.nodup, hsg.numSubGraphs⟩
      · intro sg
        rw [hsame.containerList, hmem]
        change sg ∈ src.subGraphList ∨ sg ∈ dst.subGraphList ↔
          ∃ c ∈ src.containerList ++ dst.containerList, sg ∈ (mem c).subGraphList
        rw [htsrc.mem_sgs, htdst.mem_sgs]
        simp only [mem_append, hsgs]
        constructor
        · rintro (⟨c, hc, hin⟩ | ⟨c, hc, hin⟩)
          · exact ⟨c, Or.inl hc, hin⟩
          · exact ⟨c, Or.inr hc, hin⟩
        · rintro ⟨c, hc | hc, hin⟩
          · exact Or.inl ⟨c, hc, hin⟩
          · exact Or.inr ⟨c, hc, hin⟩
    · refine (h.graphs g hg).congr (update_of_ne heq _ _) ?_ hsgs
      intro c hc
      change (mem c).contGraphPtr = _
      rw [hptr c, if_neg]
      intro hd
      have hsame' := ((h.graphs g hg).ptr c hc).symm.trans (htdst.ptr c hd)
      exact hgd' (Option.some.inj hsame')
  · intro g hg c hc
    obtain ⟨hg, hgd'⟩ := (hlist g).mp hg
    by_cases heq : g = gs
    · subst heq
      dsimp only at hc
      rw [update_self, hsame.containerList] at hc
      rcases mem_append.mp hc with hc | hc
      · exact h.members g hgs c hc
      · exact h.members gd hgd c hc
    · dsimp only at hc
      rw [update_of_ne heq] at hc
      exact h.members g hg c hc
  · intro c hc g hg
    change (mem c).contGraphPtr = some g at hg
    rw [hptr c] at hg
    dsimp only
    split at hg
    · rename_i hd
      obtain rfl := Option.some.inj hg
      refine ⟨(hlist _).mpr ⟨hgs, hne⟩, ?_⟩
      rw [update_self, hsame.containerList]
      exact mem_append_right _ hd
    · rename_i hnot
      obtain ⟨hin, hmem'⟩ := h.back c hc g hg
      have hgd' : g ≠ gd := by
        rintro rfl
        exact hnot hmem'
      refine ⟨(hlist g).mpr ⟨hin, hgd'⟩, ?_⟩
      by_cases heq : g = gs
      · subst heq
        rw [update_self, hsame.containerList]
        exact mem_append_left _ hmem'
      · rw [update_of_ne heq]
        exact hmem'
  · rw [h.numContGraphs, length_erase_of_mem hgd]
  · intro g hg
    exact h.fresh g ((hlist g).mp hg).1
  · rw [h.standalone]
    apply filter_congr
    intro c hc
    apply decide_eq_decide.mpr
    change info.ptr c = none ↔ (mem c).contGraphPtr = none
    rw [hptr c]
    split
    · rename_i hd
      rw [htdst.ptr c hd]
      exact iff_of_false (Option.some_ne_none _) (Option.some_ne_none _)
    · exact Iff.rfl

/-! ## The sorted flag -/

/-- Only `graph_is_sorted` changes. -/
lemma Tidy.setSorted (h : Tidy conts info) (g : Addr) (isSorted : Bool) :
    Tidy conts (info.setGraph g { info.graphs g with graphIsSorted := isSorted }) := by
  have hlist : ∀ g', ((info.setGraph g { info.graphs g with
      graphIsSorted := isSorted }).graphs g').containerList = (info.graphs g').containerList := by
    exact apply_update_eq (p := ContGraph.containerList) rfl
  refine ⟨?_, ?_, ?_, h.nodup, h.numContGraphs, h.fresh, h.standalone⟩
  · intro g' hg'
    by_cases heq : g' = g
    · subst heq
      have ht := h.graphs g' hg'
      refine ⟨?_, ?_, ?_, ?_, ?_, ?_⟩
      all_goals
        unfold setGraph
        dsimp only
        rw [update_self]
      · exact ht.nonempty
      · exact ht.nodup
      · exact ht.numContainers
      · exact ht.ptr
      · exact ⟨ht.sgTidy.nodup, ht.sgTidy.numSubGraphs⟩
      · exact ht.mem_sgs
    · exact (h.graphs g' hg').congr (update_of_ne heq _ _) (fun _ _ => rfl) fun _ => rfl
  · intro g' hg' c hc
    rw [hlist] at hc
    exact h.members g' hg' c hc
  · intro c hc g' hg'
    obtain ⟨hin, hmem⟩ := h.back c hc g' hg'
    refine ⟨hin, ?_⟩
    rw [hlist]
    exact hmem

end ContGraphInfo

end AudioReach
