import AudioReach.ContGraph.Join
import AudioReach.ContGraph.Sort

/-!
# The containers are partitioned

All links are reported, and then `apm_update_cont_graph_list` sorts the graphs and gives the
standalone containers graphs of their own.  When it succeeds, the graphs are the sets of connected
containers.  The sort of a graph may give up after `APM_MAX_SORT_LOOP_ITR` rounds; the graphs are
right even then, but the containers without links stay standalone.
-/

namespace AudioReach

open Library List

namespace ContGraphInfo

open Cont

variable {info info' : ContGraphInfo} {conts : List Addr} {edges : List (Addr × Addr)} {g : Addr}

/-! ## Sorting a graph -/

lemma Resorted.ptr_eq (h : Resorted conts g info info') (c : Addr) : info'.ptr c = info.ptr c :=
  (h.same c).contGraphPtr

lemma Resorted.sgs_eq (h : Resorted conts g info info') (c : Addr) : info'.sgs c = info.sgs c :=
  (h.same c).subGraphList

/-- The order of the containers in the list of a graph does not matter. -/
lemma Tidy.resorted (h : Tidy conts info) (hg : g ∈ info.contGraphList)
    (hr : Resorted conts g info info') : Tidy conts info' := by
  have hlist : info'.contGraphList = info.contGraphList := by rw [hr.lists]
  have hmem : ∀ g' c, c ∈ (info'.graphs g').containerList ↔ c ∈ (info.graphs g').containerList := by
    intro g' c
    by_cases heq : g' = g
    · rw [heq]
      exact hr.perm.mem_iff
    · rw [hr.others g' heq]
  have hself : GraphTidy info' g := by
    have ht := h.graphs g hg
    obtain ⟨tail, isSorted, hgraph⟩ := hr.graph
    refine ⟨?_, ?_, ?_, ?_, ?_, ?_⟩
    · intro hnil
      have hperm := hr.perm
      rw [hnil] at hperm
      exact ht.nonempty hperm.nil_eq.symm
    · exact hr.perm.nodup_iff.mpr ht.nodup
    · rw [hr.perm.length_eq, ← ht.numContainers, hgraph]
    · intro c hc
      rw [hr.ptr_eq]
      exact ht.ptr c ((hmem g c).mp hc)
    · rw [hgraph]
      exact ⟨ht.sgTidy.nodup, ht.sgTidy.numSubGraphs⟩
    · intro sg
      have hsgs : (info'.graphs g).subGraphList = (info.graphs g).subGraphList := by rw [hgraph]
      rw [hsgs, ht.mem_sgs]
      simp only [hmem, hr.sgs_eq]
  refine ⟨?_, ?_, ?_, ?_, ?_, ?_, ?_⟩
  · intro g' hg'
    by_cases heq : g' = g
    · rw [heq]
      exact hself
    · rw [hlist] at hg'
      exact (h.graphs g' hg').congr (hr.others g' heq) (fun c _ => hr.ptr_eq c) hr.sgs_eq
  · intro g' hg' c hc
    rw [hlist] at hg'
    exact h.members g' hg' c ((hmem g' c).mp hc)
  · intro c hc g' hg'
    rw [hr.ptr_eq] at hg'
    obtain ⟨hin, hmem'⟩ := h.back c hc g' hg'
    rw [hlist]
    exact ⟨hin, (hmem g' c).mpr hmem'⟩
  · rw [hlist]
    exact h.nodup
  · rw [hlist, ← h.numContGraphs, hr.lists]
  · intro g' hg'
    rw [hlist] at hg'
    rw [hr.lists]
    exact h.fresh g' hg'
  · have hstandalone : info'.standaloneContList = info.standaloneContList := by rw [hr.lists]
    rw [hstandalone, h.standalone]
    simp only [hr.ptr_eq]

/-- The output links lead to containers that the edges connect. -/
def Wired (conts : List Addr) (edges : List (Addr × Addr)) (info : ContGraphInfo) : Prop :=
  ∀ c ∈ conts, ∀ p ∈ (info.conts c).opPeers, p ∈ conts ∧ Joined edges c p

/-- What holds while the graphs are sorted. -/
structure Ready (conts : List Addr) (edges : List (Addr × Addr)) (info : ContGraphInfo) :
    Prop extends Grouped conts edges info where
  wired : Wired conts edges info
  idle : Idle conts info

/-- One graph is sorted. -/
lemma Ready.sortGraph (h : Ready conts edges info) (hg : g ∈ info.contGraphList) :
    let out := (info.clearContCyclicLinkInfo g).sortContGraphProcOrder g
    (out.1 = .eok ∨ out.1 = .efailed) ∧ Ready conts edges out.2 ∧
      out.2.contGraphList = info.contGraphList := by
  have ht := h.tidy.graphs g hg
  have hquiet : QuietConts info.conts (info.clearContCyclicLinkInfo g).conts :=
    quiet_foldl (fun cont => (quiet_mergeCyclic cont .ip).trans (quiet_mergeCyclic _ .op)) _ _
  have hidle : Idle conts (info.clearContCyclicLinkInfo g) := fun c hc =>
    ⟨(hquiet c).nodeVisited.trans (h.idle c hc).1, (hquiet c).nodeSorted.trans (h.idle c hc).2⟩
  have hpeers : ∀ c ∈ (info.graphs g).containerList,
      ∀ p ∈ ((info.clearContCyclicLinkInfo g).conts c).opPeers,
        p ∈ (info.graphs g).containerList := by
    intro c hc p hp
    have hcin := h.tidy.members g hg c hc
    obtain ⟨hpin, hjoined⟩ := h.wired c hcin p ((hquiet c).opPeers p hp)
    exact (h.tidy.back p hpin g ((h.ptr.same_iff c hcin p hpin g (ht.ptr c hc)).mpr hjoined)).2
  obtain ⟨hresult, hr⟩ := sortContGraphProcOrder_resorted hidle ht.nodup ht.nonempty
    (h.tidy.members g hg) hpeers
  -- clearing the cycles changes nothing that the sort leaves
  have hr' : Resorted conts g info ((info.clearContCyclicLinkInfo g).sortContGraphProcOrder g).2 :=
    ⟨fun c => (hquiet c).toSame.trans (hr.same c), hr.idle, hr.perm, hr.graph, hr.others, hr.lists⟩
  refine ⟨hresult, ⟨⟨h.tidy.resorted hg hr', ?_⟩, ?_, hr'.idle⟩, ?_⟩
  · have hptr : ((info.clearContCyclicLinkInfo g).sortContGraphProcOrder g).2.ptr = info.ptr :=
      funext hr'.ptr_eq
    rw [hptr]
    exact h.ptr
  · intro c hc p hp
    exact h.wired c hc p ((hr'.same c).opPeers p hp)
  · rw [hr'.lists]

lemma Ready.sortGraphs (h : Ready conts edges info) (gs : List Addr)
    (hgs : ∀ g ∈ gs, g ∈ info.contGraphList) :
    ((ContGraphInfo.sortGraphs gs info).1 = .eok ∨
      (ContGraphInfo.sortGraphs gs info).1 = .efailed) ∧
      Ready conts edges (ContGraphInfo.sortGraphs gs info).2 := by
  induction gs generalizing info with
  | nil => exact ⟨Or.inl rfl, h⟩
  | cons g gs ih =>
    have hrest : ∀ g' ∈ gs, g' ∈ info.contGraphList := fun g' hg' =>
      hgs g' (mem_cons_of_mem g hg')
    unfold ContGraphInfo.sortGraphs
    split
    · exact ih h hrest
    · obtain ⟨hresult, hready, hlist⟩ := h.sortGraph (hgs g mem_cons_self)
      generalize (info.clearContCyclicLinkInfo g).sortContGraphProcOrder g = out at *
      obtain ⟨result, info'⟩ := out
      rcases hresult with rfl | rfl
      · exact ih hready (fun g' hg' => by rw [hlist]; exact hrest g' hg')
      · exact ⟨Or.inr rfl, hready⟩

/-! ## Standalone containers -/

/-- Each standalone container gets a graph. -/
lemma Tidy.updateStandalone (h : Tidy conts info) (hconts : conts.Nodup)
    (hptr : Separates edges {c | c ∈ conts} info.ptr) :
    Tidy conts info.updateStandaloneContGraph ∧
      Separates edges {c | c ∈ conts} info.updateStandaloneContGraph.ptr ∧
      ∀ c ∈ conts, info.updateStandaloneContGraph.ptr c ≠ none := by
  unfold updateStandaloneContGraph
  generalize hlist : info.standaloneContList = list
  induction list generalizing info with
  | nil =>
    refine ⟨h, hptr, ?_⟩
    intro c hc hnone
    have hin : c ∈ info.standaloneContList := by
      rw [h.standalone]
      exact mem_filter.mpr ⟨hc, decide_eq_true hnone⟩
    rw [hlist] at hin
    cases hin
  | cons c list ih =>
    have hin : c ∈ info.standaloneContList := by
      rw [hlist]
      exact mem_cons_self
    rw [h.standalone] at hin
    obtain ⟨hc, hnone⟩ := mem_filter.mp hin
    have hnone : info.ptr c = none := of_decide_eq_true hnone
    refine ih (h.createContGraph hconts hc hnone) ?_ ?_
    · refine hptr.single hc hnone ?_ (ptr_createContGraph info c)
      intro c' hc' hnew
      exact absurd (h.fresh _ (h.back c' hc' _ hnew).1) (Nat.lt_irrefl _)
    · change info.standaloneContList.erase c = list
      rw [hlist, erase_cons_head]

/-! ## The partition -/

/-- The containers of `placed` are in the graphs of the edges, and the others are standalone. -/
structure Grouping (conts : List Addr) (edges : List (Addr × Addr)) (placed : Addr → Prop)
    (info : ContGraphInfo) : Prop where
  /-- A container is in exactly one graph, once in its list, and points to this graph. -/
  one : ∀ c ∈ conts, placed c → ∃ g ∈ info.contGraphList, info.ptr c = some g ∧
    (info.graphs g).containerList.count c = 1 ∧
    ∀ g' ∈ info.contGraphList, g' ≠ g → c ∉ (info.graphs g').containerList
  only : ∀ g ∈ info.contGraphList, ∀ c ∈ (info.graphs g).containerList, c ∈ conts ∧ placed c
  /-- Two containers are in the same graph exactly when the edges connect them. -/
  same : ∀ c ∈ conts, ∀ c' ∈ conts, placed c → placed c' →
    (info.ptr c = info.ptr c' ↔ Joined edges c c')
  /-- `num_containers` is the length of the list. -/
  numContainers : ∀ g ∈ info.contGraphList,
    (info.graphs g).numContainers = (info.graphs g).containerList.length
  /-- `num_sub_graphs` is the length of the list. -/
  numSubGraphs : ∀ g ∈ info.contGraphList,
    (info.graphs g).numSubGraphs = (info.graphs g).subGraphList.length
  /-- `num_cont_graphs` is the length of the list, which has no duplicates. -/
  numContGraphs : info.numContGraphs = info.contGraphList.length ∧ info.contGraphList.Nodup
  /-- The sub-graphs of a graph are those of its containers, each once. -/
  subGraphs : ∀ g ∈ info.contGraphList, (info.graphs g).subGraphList.Nodup ∧
    ∀ sg, sg ∈ (info.graphs g).subGraphList ↔ ∃ c ∈ (info.graphs g).containerList, sg ∈ info.sgs c
  /-- The other containers point nowhere and are standalone. -/
  standalone : (∀ c, c ∈ info.standaloneContList ↔ c ∈ conts ∧ ¬ placed c) ∧
    ∀ c ∈ conts, ¬ placed c → info.ptr c = none

/-- Containers with a graph are placed. -/
lemma Tidy.grouping (h : Tidy conts info) (hptr : Separates edges {c | c ∈ conts} info.ptr)
    {placed : Addr → Prop} (hplaced : ∀ c ∈ conts, placed c ↔ info.ptr c ≠ none) :
    Grouping conts edges placed info := by
  refine ⟨?_, ?_, ?_, fun g hg => (h.graphs g hg).numContainers,
    fun g hg => (h.graphs g hg).sgTidy.numSubGraphs, ⟨h.numContGraphs, h.nodup⟩,
    fun g hg => ⟨(h.graphs g hg).sgTidy.nodup, (h.graphs g hg).mem_sgs⟩, ?_, ?_⟩
  · intro c hc hp
    obtain ⟨g, hg⟩ := Option.ne_none_iff_exists'.mp ((hplaced c hc).mp hp)
    obtain ⟨hin, hmem⟩ := h.back c hc g hg
    refine ⟨g, hin, hg, count_eq_one_of_mem (h.graphs g hin).nodup hmem, ?_⟩
    intro g' hg' hne hmem'
    rw [(h.graphs g' hg').ptr c hmem'] at hg
    exact hne (Option.some.inj hg)
  · intro g hg c hc
    have hin := h.members g hg c hc
    refine ⟨hin, (hplaced c hin).mpr ?_⟩
    rw [(h.graphs g hg).ptr c hc]
    exact Option.some_ne_none g
  · intro c hc c' hc' hp _
    exact hptr.eq_iff hc hc' ((hplaced c hc).mp hp)
  · intro c
    rw [h.standalone, mem_filter, decide_eq_true_iff]
    refine and_congr_right fun hc => ?_
    rw [hplaced c hc, not_not]
  · intro c hc hp
    by_contra hsome
    exact hp ((hplaced c hc).mpr hsome)

/-- Before any link is reported: all containers are standalone, and no sort is under way. -/
structure Fresh (conts : List Addr) (info : ContGraphInfo) : Prop where
  contGraphList : info.contGraphList = []
  numContGraphs : info.numContGraphs = 0
  standalone : info.standaloneContList = conts
  nodup : conts.Nodup
  ptr : ∀ c ∈ conts, info.ptr c = none
  idle : Idle conts info

/-- The links are reported, and the list of graphs is updated. -/
def openGraph (info : ContGraphInfo) (links : List ContLink) : ArResult × ContGraphInfo :=
  (run report info links).updateContGraphList

/-- Reporting a link leaves the sub-graphs, the ports and the sort flags of all containers. -/
lemma report_same (info : ContGraphInfo) (l : ContLink) (c : Addr) :
    ((info.report l).conts c).ports = (info.conts c).ports ∧
      ((info.report l).conts c).graphUtils = (info.conts c).graphUtils := by
  have hset : ∀ (info : ContGraphInfo) (c' : Addr) (g : Option Addr),
      ((info.setContGraphPtr c' g).conts c).ports = (info.conts c).ports ∧
        ((info.setContGraphPtr c' g).conts c).graphUtils = (info.conts c).graphUtils := by
    intro info c' g
    unfold setContGraphPtr
    dsimp only
    by_cases heq : c = c'
    · subst heq
      rw [Function.update_self]
      exact ⟨rfl, rfl⟩
    · rw [Function.update_of_ne heq]
      exact ⟨rfl, rfl⟩
  have hfold : ∀ (list : List Addr) (info : ContGraphInfo) (g : Addr),
      ((list.foldl (fun info c => info.setContGraphPtr c (some g)) info).conts c).ports =
          (info.conts c).ports ∧
        ((list.foldl (fun info c => info.setContGraphPtr c (some g)) info).conts c).graphUtils =
          (info.conts c).graphUtils := by
    intro list
    induction list with
    | nil => exact fun _ _ => ⟨rfl, rfl⟩
    | cons a list ih =>
      intro info g
      obtain ⟨hports, hutils⟩ := ih (info.setContGraphPtr a (some g)) g
      exact ⟨hports.trans (hset info a _).1, hutils.trans (hset info a _).2⟩
  unfold report updateContGraph
  split
  · split
    · exact ⟨rfl, rfl⟩
    · rename_i gs gd _ _ _
      unfold mergeContGraphs deleteContGraph setGraph
      dsimp only
      split
      · exact hfold _ info gs
      · exact hfold _ info gs
  · have hcreate := hset info l.src (some info.nextGraph)
    have hadd := hset (info.createContGraph l.src) l.dst (some info.nextGraph)
    exact ⟨hadd.1.trans hcreate.1, hadd.2.trans hcreate.2⟩
  · rename_i gd _ _
    exact hset info l.src (some gd)
  · rename_i gs _ _
    exact hset info l.dst (some gs)

lemma run_report_same (info : ContGraphInfo) (links : List ContLink) (c : Addr) :
    ((run report info links).conts c).ports = (info.conts c).ports ∧
      ((run report info links).conts c).graphUtils = (info.conts c).graphUtils := by
  induction links generalizing info with
  | nil => exact ⟨rfl, rfl⟩
  | cons l links ih =>
    obtain ⟨hports, hutils⟩ := ih (info.report l)
    exact ⟨hports.trans (report_same info l c).1, hutils.trans (report_same info l c).2⟩

lemma Fresh.ready (h : Fresh conts info) {links : List ContLink}
    (hlinks : ∀ l ∈ links, l.Between conts) (hwired : Wired conts (ContLink.edges links) info) :
    Ready conts (ContLink.edges links) (run report info links) := by
  have hstart : Grouped conts [] info :=
    ⟨tidy_of_standalone h.contGraphList h.numContGraphs h.standalone h.ptr, .nil h.ptr⟩
  have hgrouped := hstart.run h.nodup links hlinks
  refine ⟨hgrouped, ?_, ?_⟩
  · intro c hc p hp
    unfold opPeers at hp
    rw [(run_report_same info links c).1] at hp
    exact hwired c hc p hp
  · intro c hc
    rw [(run_report_same info links c).2]
    exact h.idle c hc

/-- The update of the list either succeeds, and all containers have graphs, or it gives up, and
those without links have none. -/
lemma Ready.update (h : Ready conts edges info) (hconts : conts.Nodup) :
    ((info.updateContGraphList.1 = .eok ∧
        ∀ c ∈ conts, True ↔ info.updateContGraphList.2.ptr c ≠ none) ∨
      (info.updateContGraphList.1 = .efailed ∧
        ∀ c ∈ conts, ¬ Alone edges c ↔ info.updateContGraphList.2.ptr c ≠ none)) ∧
    Tidy conts info.updateContGraphList.2 ∧
      Separates edges {c | c ∈ conts} info.updateContGraphList.2.ptr := by
  have hsep := Separates.ofRepresents h.ptr
  unfold updateContGraphList
  split
  · rename_i hempty
    refine ⟨Or.inl ⟨rfl, ?_⟩, h.tidy, hsep⟩
    intro c hc
    refine iff_of_true trivial ?_
    intro hnone
    have hin : c ∈ info.standaloneContList := by
      rw [h.tidy.standalone]
      exact mem_filter.mpr ⟨hc, decide_eq_true hnone⟩
    rw [hempty.2] at hin
    cases hin
  · obtain ⟨hresult, hready⟩ := h.sortGraphs info.contGraphList (fun _ hg => hg)
    generalize ContGraphInfo.sortGraphs info.contGraphList info = out at *
    obtain ⟨result, info'⟩ := out
    have hsep' := Separates.ofRepresents hready.ptr
    rcases hresult with rfl | rfl
    · obtain ⟨htidy, hptr, hall⟩ := hready.tidy.updateStandalone hconts hsep'
      exact ⟨Or.inl ⟨rfl, fun c hc => iff_of_true trivial (hall c hc)⟩, htidy, hptr⟩
    · refine ⟨Or.inr ⟨rfl, ?_⟩, hready.tidy, hsep'⟩
      intro c hc
      exact not_congr (hready.ptr.none_iff c hc).symm

/-- **The containers are partitioned.** After any links between different containers were
reported and the list of graphs was updated, the graphs are the sets of connected containers if
the update succeeds.  If the sort of a graph gives up, then the same holds of the containers with
links, and those without are still standalone.  The order and the number of the links do not
matter. -/
theorem contGraphs_partition (conts : List Addr) (info : ContGraphInfo) (h : Fresh conts info)
    (links : List ContLink) (hlinks : ∀ l ∈ links, l.Between conts)
    (hwired : Wired conts (ContLink.edges links) info) :
    (((openGraph info links).1 = .eok ∧
        Grouping conts (ContLink.edges links) (fun _ => True) (openGraph info links).2) ∨
      ((openGraph info links).1 = .efailed ∧ Grouping conts (ContLink.edges links)
        (fun c => ¬ Alone (ContLink.edges links) c) (openGraph info links).2)) ∧
    ∀ links' : List ContLink, (∀ e, e ∈ ContLink.edges links' ↔ e ∈ ContLink.edges links) →
      ∀ c ∈ conts, ∀ c' ∈ conts, (openGraph info links).2.ptr c ≠ none →
        (openGraph info links').2.ptr c ≠ none →
        ((openGraph info links').2.ptr c = (openGraph info links').2.ptr c' ↔
          (openGraph info links).2.ptr c = (openGraph info links).2.ptr c') := by
  obtain ⟨hresult, htidy, hsep⟩ := (h.ready hlinks hwired).update h.nodup
  refine ⟨?_, ?_⟩
  · rcases hresult with ⟨hok, hplaced⟩ | ⟨hfailed, hplaced⟩
    · exact Or.inl ⟨hok, htidy.grouping hsep hplaced⟩
    · exact Or.inr ⟨hfailed, htidy.grouping hsep hplaced⟩
  · intro links' hsame c hc c' hc' hsome hsome'
    have hlinks' : ∀ l ∈ links', l.Between conts := by
      intro l hl
      have hedge := (hsame (l.src, l.dst)).mp (mem_map.mpr ⟨l, hl, rfl⟩)
      obtain ⟨l₀, hl₀, heq⟩ := mem_map.mp hedge
      obtain ⟨hsrc, hdst⟩ := Prod.mk.inj heq
      have hbetween := hlinks l₀ hl₀
      exact ⟨hsrc ▸ hbetween.src, hdst ▸ hbetween.dst, hsrc ▸ hdst ▸ hbetween.ne⟩
    have hwired' : Wired conts (ContLink.edges links') info := fun a ha p hp =>
      ⟨(hwired a ha p hp).1, (joined_congr hsame).mpr (hwired a ha p hp).2⟩
    obtain ⟨-, -, hsep'⟩ := (h.ready hlinks' hwired').update h.nodup
    exact (hsep'.eq_iff hc hc' hsome').trans
      ((joined_congr hsame).trans (hsep.eq_iff hc hc' hsome).symm)

/-! ## Examples -/

/-- Containers without ports, all in one sub-graph. -/
def bareCont : Cont :=
  { subGraphList := [0], ports := fun _ _ => ⟨[], 0⟩, graphUtils := ⟨false, false, 0⟩
    contGraphPtr := none }

/-- Containers that were just opened. -/
def opened (mem : Addr → Cont) (conts : List Addr) : ContGraphInfo :=
  { conts := mem, graphs := fun _ => ContGraph.blank, nextGraph := 0, numContGraphs := 0
    contGraphList := [], standaloneContList := conts }

lemma fresh_opened {mem : Addr → Cont} (hnodup : conts.Nodup)
    (hmem : ∀ c, (mem c).contGraphPtr = none ∧ (mem c).graphUtils = ⟨false, false, 0⟩) :
    Fresh conts (opened mem conts) := by
  refine ⟨rfl, rfl, rfl, hnodup, fun c _ => (hmem c).1, ?_⟩
  intro c _
  change (mem c).graphUtils.nodeVisited = false ∧ (mem c).graphUtils.nodeSorted = false
  rw [(hmem c).2]
  exact ⟨rfl, rfl⟩

/-- Three containers, of which two are linked. -/
theorem contGraphs_partition_three :
    (openGraph (opened (fun _ => bareCont) [1, 2, 3]) [⟨1, 2, true⟩]).1 = .eok ∧
      Grouping [1, 2, 3] [(1, 2)] (fun _ => True)
        (openGraph (opened (fun _ => bareCont) [1, 2, 3]) [⟨1, 2, true⟩]).2 := by
  have hfresh : Fresh [1, 2, 3] (opened (fun _ => bareCont) [1, 2, 3]) :=
    fresh_opened (by decide) fun _ => ⟨rfl, rfl⟩
  have hlinks : ∀ l ∈ [(⟨1, 2, true⟩ : ContLink)], l.Between [1, 2, 3] := by
    intro l hl
    rw [mem_singleton.mp hl]
    exact ⟨by decide, by decide, by decide⟩
  have hwired : Wired [1, 2, 3] (ContLink.edges [⟨1, 2, true⟩])
      (opened (fun _ => bareCont) [1, 2, 3]) := fun c _ p hp => absurd hp not_mem_nil
  rcases (contGraphs_partition _ _ hfresh _ hlinks hwired).1 with h | ⟨hfailed, -⟩
  · exact h
  · exact absurd hfailed (by decide)

/-- The link of container `c` in a chain leads to the next one. -/
def chainCont (last c : Addr) : Cont :=
  { bareCont with ports := fun cycle port =>
      if cycle = .acyclic ∧ port = .op ∧ c < last then ⟨[⟨[c + 1], 1⟩], 1⟩
      else if cycle = .acyclic ∧ port = .ip ∧ 0 < c ∧ c ≤ last then ⟨[⟨[c - 1], 1⟩], 1⟩
      else ⟨[], 0⟩ }

/-- The links of a chain. -/
def chainLinks (last : ℕ) : List ContLink :=
  (range last).map fun c => ⟨c, c + 1, false⟩

/-- The links of a chain were reported up to `last`. -/
structure Chained (last : ℕ) (info : ContGraphInfo) : Prop where
  /-- The containers of the chain are in graph `0`. -/
  ptr : ∀ c, info.ptr c = if c ≤ last then some 0 else none
  contGraphList : info.contGraphList = [0]
  /-- The chain begins with container `0`. -/
  head : (info.graphs 0).containerList.head? = some 0
  isSorted : (info.graphs 0).graphIsSorted = false

lemma containerList_addContSgListToGraph (graph : ContGraph) (cont : Cont) :
    (graph.addContSgListToGraph cont).containerList = graph.containerList := by
  unfold ContGraph.addContSgListToGraph
  generalize cont.subGraphList = sgs
  induction sgs generalizing graph with
  | nil => rfl
  | cons sg sgs ih =>
    rw [foldl_cons, ih]
    exact (ContGraph.sameConts_addSg graph sg).containerList

/-- One more container at the end of the chain. -/
lemma Chained.report {last : ℕ} (h : Chained last info) :
    Chained (last + 1) (info.report ⟨last, last + 1, false⟩) := by
  have hlast : info.ptr last = some 0 := by rw [h.ptr, if_pos (Nat.le_refl last)]
  have hnext : info.ptr (last + 1) = none := by rw [h.ptr, if_neg (Nat.not_succ_le_self last)]
  have hreport : info.report ⟨last, last + 1, false⟩ = info.addToContGraph 0 (last + 1) false := by
    unfold ContGraphInfo.report updateContGraph
    rw [show (info.conts last).contGraphPtr = some 0 from hlast,
      show (info.conts (last + 1)).contGraphPtr = none from hnext]
  rw [hreport]
  have hgraph : (info.addToContGraph 0 (last + 1) false).graphs 0 =
      { ((info.graphs 0).addCont (last + 1)).addContSgListToGraph (info.conts (last + 1)) with
        graphIsSorted := false } := by
    unfold addToContGraph removeStandalone setContGraphPtr setGraph
    dsimp only
    rw [Function.update_self]
  refine ⟨?_, h.contGraphList, ?_, by rw [hgraph]⟩
  · intro (c : ℕ)
    rw [ptr_addToContGraph, h.ptr]
    rcases Nat.lt_trichotomy c (last + 1) with hlt | rfl | hgt
    · rw [if_neg (Nat.ne_of_lt hlt), if_pos (Nat.le_of_lt_succ hlt), if_pos (Nat.le_of_lt hlt)]
    · rw [if_pos rfl, if_pos (Nat.le_refl _)]
    · have hlate : ¬ c ≤ last := by omega
      have hlate' : ¬ c ≤ last + 1 := by omega
      rw [if_neg (Nat.ne_of_gt hgt), if_neg hlate, if_neg hlate']
  · rw [hgraph]
    rw [containerList_addContSgListToGraph]
    unfold ContGraph.addCont
    rw [head?_append, h.head]
    rfl

/-- The whole chain. -/
lemma chained_run (last size : ℕ) : Chained (last + 1) (run report
      (opened (chainCont (last + 1)) (range size)) (chainLinks (last + 1))) := by
  have hall : ∀ n, Chained (n + 1) (run report
      (opened (chainCont (last + 1)) (range size)) (chainLinks (n + 1))) := by
    intro n
    induction n with
    | zero =>
      refine ⟨?_, rfl, rfl, rfl⟩
      intro (c : ℕ)
      change ((createContGraph _ 0).addToContGraph 0 1 false).ptr c = _
      rw [ptr_addToContGraph, ptr_createContGraph]
      rcases Nat.lt_trichotomy c 1 with hlt | rfl | hgt
      · have hin : c ≤ 0 + 1 := Nat.le_of_lt hlt
        rw [if_neg (Nat.ne_of_lt hlt), if_pos (Nat.lt_one_iff.mp hlt), if_pos hin]
        rfl
      · rw [if_pos rfl, if_pos (Nat.le_refl 1)]
      · have hzero : c ≠ 0 := by omega
        have hlate : ¬ c ≤ 0 + 1 := by omega
        rw [if_neg (Nat.ne_of_gt hgt), if_neg hzero, if_neg hlate]
        rfl
    | succ n ih =>
      have hlinks : chainLinks (n + 1 + 1) = chainLinks (n + 1) ++ [⟨n + 1, n + 1 + 1, false⟩] := by
        unfold chainLinks
        rw [range_succ, map_append]
        rfl
      rw [hlinks, run_append]
      exact ih.report
  exact hall last

/-- The cyclic lists are empty, and there is nothing to put back. -/
lemma clearContCyclicLinkInfo_conts
    (hcyclic : ∀ c port, ((info.conts c).ports .cyclic port).list = []) (g : Addr) :
    info.clearContCyclicLinkInfo g = info := by
  have hmerge : ∀ c port, mergeCyclic (info.conts c) port = info.conts c := by
    intro c port
    exact if_pos (hcyclic c port)
  have hfold : ∀ list : List Addr, list.foldl (fun conts c => modifyCont conts c fun cont =>
      mergeCyclic (mergeCyclic cont .ip) .op) info.conts = info.conts := by
    intro list
    induction list with
    | nil => rfl
    | cons a list ih =>
      have hone : modifyCont info.conts a (fun cont => mergeCyclic (mergeCyclic cont .ip) .op) =
          info.conts := by
        unfold modifyCont
        dsimp only
        rw [hmerge, hmerge, Function.update_eq_self]
      rw [foldl_cons, hone]
      exact ih
  unfold clearContCyclicLinkInfo
  rw [hfold]

/-- A chain of 502 containers is too long to be sorted, so that a container without links stays
standalone. -/
theorem not_contGraphs_partition : ¬ ∀ (conts : List Addr) (info : ContGraphInfo),
    Fresh conts info → ∀ links : List ContLink, (∀ l ∈ links, l.Between conts) →
    Wired conts (ContLink.edges links) info →
    Grouping conts (ContLink.edges links) (fun _ => True) (openGraph info links).2 := by
  intro hall
  set info := opened (chainCont 501) (range 503) with hinfo
  have hmem : ∀ c, c ∈ range 503 ↔ c < 503 := fun c => mem_range
  have hedge : ∀ e, e ∈ ContLink.edges (chainLinks 501) ↔ e.1 < 501 ∧ e.2 = e.1 + 1 := by
    intro e
    simp only [ContLink.edges, chainLinks, map_map, mem_map, mem_range, Function.comp_apply]
    constructor
    · rintro ⟨c, hc, rfl⟩
      exact ⟨hc, rfl⟩
    · rintro ⟨hlt, heq⟩
      exact ⟨e.1, hlt, by rw [← heq]⟩
  have hfresh : Fresh (range 503) info :=
    fresh_opened nodup_range fun _ => ⟨rfl, rfl⟩
  have hlinks : ∀ l ∈ chainLinks 501, l.Between (range 503) := by
    intro l hl
    obtain ⟨c, hc, rfl⟩ := mem_map.mp hl
    have hlt := mem_range.mp hc
    have hin : c < 503 := Nat.lt_of_lt_of_le hlt (by decide)
    have hin' : c + 1 < 503 := Nat.lt_of_le_of_lt (Nat.succ_le_of_lt hlt) (by decide)
    exact ⟨(hmem _).mpr hin, (hmem _).mpr hin', Nat.ne_of_lt (Nat.lt_succ_self c)⟩
  have hports : ∀ c, (chainCont 501 c).ports .acyclic .op =
      if c < 501 then ⟨[⟨[c + 1], 1⟩], 1⟩ else ⟨[], 0⟩ := by
    intro c
    simp [chainCont]
  have hcyclic : ∀ c port, (chainCont 501 c).ports .cyclic port = ⟨[], 0⟩ := by
    intro c port
    simp [chainCont]
  have hwired : Wired (range 503) (ContLink.edges (chainLinks 501)) info := by
    intro c hc p hp
    obtain ⟨cycle, i, hi, hpi⟩ := mem_opPeers.mp hp
    cases cycle with
    | acyclic =>
      change i ∈ ((chainCont 501 c).ports .acyclic .op).list at hi
      rw [hports] at hi
      split at hi
      · rename_i hlt
        rw [mem_singleton.mp hi] at hpi
        rw [mem_singleton.mp hpi]
        have hin : c + 1 < 503 := Nat.lt_of_le_of_lt (Nat.succ_le_of_lt hlt) (by decide)
        exact ⟨(hmem _).mpr hin, .edge ((hedge _).mpr ⟨hlt, rfl⟩)⟩
      · cases hi
    | cyclic =>
      cases hi
  have hready := hfresh.ready hlinks hwired
  have hchain : Chained 501 (run report info (chainLinks 501)) := chained_run 500 503
  have hsame := run_report_same info (chainLinks 501)
  -- the graph of the chain is not sorted
  have hclear : (run report info (chainLinks 501)).clearContCyclicLinkInfo 0 =
      run report info (chainLinks 501) := by
    apply clearContCyclicLinkInfo_conts
    intro c port
    rw [(hsame c).1]
    change ((chainCont 501 c).ports .cyclic port).list = []
    rw [hcyclic]
  have hsort : ((run report info (chainLinks 501)).sortContGraphProcOrder 0).1 = .efailed := by
    refine sortContGraphProcOrder_longPath (fun k => k) Function.injective_id ?_ ?_
      hchain.head ?_
    · intro k hk
      rw [(hsame k).1]
      change (chainCont 501 k).ports .acyclic .op = _
      have hlt : k < 501 := Nat.lt_succ_of_le hk
      rw [hports, if_pos hlt]
    · intro k hk
      have hin : k < 503 := Nat.lt_of_le_of_lt hk (by decide)
      have hle : k ≤ 501 := Nat.le_trans hk (by decide)
      refine (hready.tidy.back k ((hmem k).mpr hin) 0 ?_).2
      rw [hchain.ptr, if_pos hle]
    · intro k
      rw [(hsame k).2]
      exact ⟨rfl, rfl⟩
  have hupdate : (openGraph info (chainLinks 501)).1 = .efailed := by
    unfold openGraph updateContGraphList
    rw [if_neg, hchain.contGraphList]
    · unfold ContGraphInfo.sortGraphs
      rw [hchain.isSorted, if_neg Bool.false_ne_true, hclear]
      generalize (run report info (chainLinks 501)).sortContGraphProcOrder 0 = out at hsort ⊢
      obtain ⟨result, info'⟩ := out
      obtain rfl : result = .efailed := hsort
      rfl
    · rw [hready.tidy.numContGraphs, hchain.contGraphList]
      exact fun h => Nat.one_ne_zero h.1
  -- so the container without links is left over
  obtain ⟨g, -, hptr, -⟩ := (hall _ info hfresh _ hlinks hwired).one 502 ((hmem _).mpr (by omega))
    trivial
  obtain ⟨hresult, -⟩ := hready.update hfresh.nodup
  rcases hresult with ⟨hok, -⟩ | ⟨-, hplaced⟩
  · have hok' : (openGraph info (chainLinks 501)).1 = .eok := hok
    rw [hupdate] at hok'
    cases hok'
  · have hsome : (openGraph info (chainLinks 501)).2.ptr 502 ≠ none := by
      rw [hptr]
      exact Option.some_ne_none g
    refine (hplaced 502 ((hmem _).mpr (by omega))).mpr hsome ?_
    intro e he
    obtain ⟨hlt, heq⟩ := (hedge e).mp he
    refine ⟨?_, ?_⟩
    · intro h
      rw [← h] at hlt
      exact absurd hlt (by decide)
    · intro h
      have hlast : (501 : ℕ) = e.1 := Nat.succ.inj (h.trans heq)
      rw [← hlast] at hlt
      exact absurd hlt (by decide)

end ContGraphInfo

end AudioReach
