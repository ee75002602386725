import AudioReach.GraphUtils.SortOrder

/-!
# The run of the sort

The three parts of `gu_update_sorted_list`, each with its invariant: `SeedAt` while the external
input ports are looked at, `SourceAt` while the modules without inputs are collected, and `SortAt`
in the loop.  Each of them says how many answers of the heap have been used, and that where the
program stops it is `Stopped`.
-/

namespace AudioReach

open Function (update)
open Library List
open GuWorld

variable {w₀ : GuWorld} {answers : List Bool}

/-! ## The external input ports -/

/-- The external input ports in `pre` were looked at, and the modules in `edge` were found. -/
structure SeedAt (h : w₀.Sortable) (answers : List Bool) (pre edge : List Addr) (w : GuWorld) :
    Prop where
  frame : SortFrame w₀ w
  answered : Answered answers edge.length w
  sorted : w.gu.sortedModuleList = []
  seeding : Seeding h.graph w.inMark edge
  seen : ∀ e ∈ pre, ∀ p, w₀.intInPort e = some p → w.inMark p = true
  fresh : pre = [] → edge = [] ∧ InUnmarked w₀ w

namespace SeedAt

variable {h : w₀.Sortable} {pre edge rest : List Addr} {w : GuWorld} {e : Addr}

section

variable (hs : SeedAt h answers pre edge w) (hlist : w₀.gu.extInPortList = pre ++ rest)
  (hpre : pre ≠ [])
include hs hlist hpre

/-- A seed has left a mark. -/
lemma marked : ¬ InUnmarked w₀ w := by
  obtain ⟨e, he⟩ := exists_mem_of_ne_nil pre hpre
  have hmem : e ∈ w₀.gu.extInPortList := hlist ▸ mem_append_left rest he
  obtain ⟨p, hp, hmod, hin, -⟩ := h.int_in e hmem
  intro hclear
  have := hclear _ hmod p hin
  rw [hs.seen e he p hp] at this
  cases this

/-- With a seed the refused allocation was too late. -/
lemma not_unmarkedAt {c : ℕ} (hc : edge.length ≤ c) : ¬ w₀.UnmarkedAt c := by
  obtain ⟨e, pre, rfl⟩ := exists_cons_of_ne_nil hpre
  unfold UnmarkedAt
  rw [hlist, cons_append]
  rintro ⟨rfl, hext⟩
  have hmem : e ∈ w₀.gu.extInPortList := by rw [hlist]; simp
  obtain ⟨p, hp, hmod, hin, -⟩ := h.int_in e hmem
  -- the module of the first port has external inputs only, so it was found
  have hmarked := hs.seeding.together _ hmod (hext p hp) p hin (hs.seen e (by simp) p hp)
  have hedge := (hs.seeding.mem_iff (w₀.inModule p)).mpr ⟨hmod, ne_nil_of_mem hin, hmarked⟩
  rw [eq_nil_of_length_eq_zero (Nat.le_zero.mp hc)] at hedge
  cases hedge

end

/-- Where the search stops. -/
lemma stopped (hs : SeedAt h answers pre edge w)
    (hlist : w₀.gu.extInPortList = pre ++ e :: rest) {p : Addr} (hp : w₀.intInPort e = some p)
    (hext : ∀ q ∈ w₀.inputPortList (w₀.inModule p),
      (w₀.extInPort q).isSome = true ∧ w.inMark q = false)
    (href : RefusedAt answers edge.length) : Stopped w₀ answers w.answer := by
  have he : e ∈ w₀.gu.extInPortList := by rw [hlist]; simp
  obtain ⟨p', hp', hmod, hin, -⟩ := h.int_in e he
  obtain rfl : p = p' := Option.some.inj (hp.symm.trans hp')
  have hnew : w₀.inModule p ∉ edge := fun hmem => by
    have := ((hs.seeding.mem_iff _).mp hmem).2.2 p hin
    rw [(hext p hin).2] at this
    cases this
  refine ⟨hs.frame.answer, edge.length, href, ?_, ?_⟩
  · -- the modules found and this one are free
    have hsub : (edge ++ [w₀.inModule p]).length ≤ w₀.freeModules.length := by
      refine (subperm_of_subset (hs.seeding.nodup.append (nodup_singleton _) ?_) ?_).length_le
      · intro m hm hm'
        rw [mem_singleton.mp hm'] at hm
        exact hnew hm
      · intro m hm
        rw [h.mem_freeModules]
        rcases mem_append.mp hm with hm | hm
        · exact ⟨((hs.seeding.mem_iff m).mp hm).1, hs.seeding.free_of_mem hm⟩
        · rw [mem_singleton.mp hm]
          exact ⟨hmod, PortGraph.free_of_ext hmod fun q hq => (hext q hq).1⟩
    rw [length_append, length_singleton] at hsub
    omega
  · by_cases hpre : pre = []
    · obtain ⟨rfl, hclear⟩ := hs.fresh hpre
      refine iff_of_true hclear ?_
      unfold UnmarkedAt
      rw [hlist, hpre, nil_append]
      refine ⟨rfl, fun p' hp' q hq => ?_⟩
      rw [hp] at hp'
      cases hp'
      exact (hext q hq).1
    · exact iff_of_false (hs.marked hlist hpre) (hs.not_unmarkedAt hlist hpre le_rfl)

end SeedAt

/-- One external input port. -/
lemma guFindExternalEdge_triple (h : w₀.Sortable) (answers : List Bool) (edge : List Addr)
    (e : Addr) (rest : List Addr) :
    Triple (fun w => ∃ pre, w₀.gu.extInPortList = pre ++ e :: rest ∧ SeedAt h answers pre edge w)
      (guFindExternalEdge edge e)
      (fun edge' w => ∃ pre, w₀.gu.extInPortList = pre ++ rest ∧ SeedAt h answers pre edge' w)
      (Stopped w₀ answers) := by
  refine Triple.get_bind fun w ⟨pre, hlist, hs⟩ => ?_
  have he : e ∈ w₀.gu.extInPortList := by rw [hlist]; simp
  have hlist' : w₀.gu.extInPortList = (pre ++ [e]) ++ rest := by rw [hlist]; simp
  rw [hs.frame.intInPort]
  obtain ⟨p, hp, hmod, hin, hextp⟩ := h.int_in e he
  rw [hp]
  · rw [hs.frame.inModule, hs.frame.inputPortList, hs.frame.extInPort]
    refine Triple.ite (fun hall => ?_) fun hsome => ?_
    · -- a module with external inputs only, none of them marked
      have hext : ∀ q ∈ w₀.inputPortList (w₀.inModule p),
          (w₀.extInPort q).isSome = true ∧ w.inMark q = false := by
        intro q hq
        simpa using all_eq_true.mp hall q hq
      refine Triple.bind
        ((malloc_triple hs.answered).conseq (fun _ ht => ht.1) (fun _ _ ht => ht) ?_) fun _ => ?_
      · rintro t ⟨rfl, href⟩
        exact hs.stopped hlist hp hext href
      refine Triple.bind (Triple.modify ?_) fun _ =>
          Triple.pure fun _ ht => ht
      rintro t ⟨rfl, hanswered⟩
      rw [show w.answer.inputPortList (w₀.inModule p) = w₀.inputPortList (w₀.inModule p) from
        congrFun hs.frame.inputPortList _]
      refine ⟨pre ++ [e], hlist', ?_⟩
      refine ⟨hs.frame.answer.foldl_markIn hmod fun _ hq => hq, ?_, ?_, ?_, ?_, by simp⟩
      · rw [length_append, length_singleton]
        exact ⟨(mallocs_foldl_markIn _ _).trans hanswered.rest, hanswered.granted⟩
      · exact (sortedModuleList_foldl_markIn _ _).trans hs.sorted
      · exact hs.seeding.all hmod hin hext fun q => inMark_foldl_markIn _ _ q
      · intro e' he' p' hp'
        rw [inMark_foldl_markIn]
        rcases mem_append.mp he' with he' | he'
        · exact Or.inl (hs.seen e' he' p' hp')
        · rw [mem_singleton.mp he', hp] at hp'
          cases hp'
          exact Or.inr hin
    · -- a module with other inputs, or one that was found before
      refine Triple.bind (Triple.modify ?_) fun _ => Triple.pure fun _ ht => ht
      rintro t ⟨rfl, -⟩
      refine ⟨pre ++ [e], hlist', ?_⟩
      refine ⟨hs.frame.markIn hmod hin, ⟨hs.answered.rest, hs.answered.granted⟩, hs.sorted,
        ?_, ?_, by simp⟩
      · refine hs.seeding.one hmod hin (by rw [h.graph_ext, hextp]; rfl) ?_
          fun q => inMark_markIn _ _ q
        obtain ⟨q, hq, hq'⟩ : ∃ q ∈ w₀.inputPortList (w₀.inModule p),
            ((w₀.extInPort q).isSome && !t.inMark q) = false := by
          simpa using hsome
        refine ⟨q, hq, ?_⟩
        rcases Bool.and_eq_false_iff.mp hq' with hq' | hq'
        · exact Or.inl (by simpa [h.graph_ext] using hq')
        · exact Or.inr (by simpa using hq')
      · intro e' he' p' hp'
        rw [inMark_markIn]
        rcases mem_append.mp he' with he' | he'
        · exact Or.inl (hs.seen e' he' p' hp')
        · rw [mem_singleton.mp he', hp] at hp'
          cases hp'
          exact Or.inr rfl

/-! ## The modules without inputs -/

namespace GuWorld.Sortable

/-- A source module has no input ports. -/
lemma isSourceEdge_iff (h : w₀.Sortable) {m : Addr} (hm : m ∈ w₀.modules) :
    w₀.isSourceEdge m = true ↔ w₀.inputPortList m = [] := by
  unfold GuWorld.isSourceEdge
  rw [decide_eq_true_eq, h.num_in m hm, length_eq_zero_iff]
  exact ⟨fun hs => hs.1, fun hs => ⟨hs, by omega⟩⟩

/-- The source modules are those without inputs. -/
lemma mem_sourceModules (h : w₀.Sortable) (m : Addr) :
    m ∈ w₀.sourceModules ↔ m ∈ h.graph.verts ∧ h.graph.ins m = [] := by
  unfold GuWorld.sourceModules
  rw [mem_filter]
  exact and_congr_right fun hm => h.isSourceEdge_iff hm

end GuWorld.Sortable

/-- All external input ports were looked at, and `edge` are the modules found. -/
structure Seeded (h : w₀.Sortable) (mark : Addr → Bool) (edge : List Addr) : Prop where
  seeding : Seeding h.graph mark edge
  all : ∀ m ∈ w₀.modules, ∀ p ∈ w₀.inputPortList m, (w₀.extInPort p).isSome = true → mark p = true
  noExt : w₀.gu.extInPortList = [] →
    edge = [] ∧ ∀ m ∈ w₀.modules, ∀ p ∈ w₀.inputPortList m, mark p = false
  /-- With external ports a port is marked, and was so before any further answer. -/
  someExt : w₀.gu.extInPortList ≠ [] →
    (¬ ∀ m ∈ w₀.modules, ∀ p ∈ w₀.inputPortList m, mark p = false) ∧
      ∀ c, edge.length ≤ c → ¬ w₀.UnmarkedAt c

/-- The modules in front are seeded. -/
lemma SeedAt.seeded {h : w₀.Sortable} {edge : List Addr} {w : GuWorld}
    (hs : SeedAt h answers w₀.gu.extInPortList edge w) : Seeded h w.inMark edge := by
  have hlist : w₀.gu.extInPortList = w₀.gu.extInPortList ++ [] := (append_nil _).symm
  refine ⟨hs.seeding, ?_, hs.fresh, fun hne => ⟨hs.marked hlist hne, fun c hc => ?_⟩⟩
  · intro m hm p hp hext
    obtain ⟨e, he⟩ := Option.isSome_iff_exists.mp hext
    obtain ⟨hmem, hint⟩ := h.ext_in m hm p hp e he
    exact hs.seen e hmem p hint
  · exact hs.not_unmarkedAt hlist hne hc

namespace Seeded

variable {h : w₀.Sortable} {mark : Addr → Bool} {edge : List Addr}

/-- Sorting starts from the seeds and the sources. -/
lemma sorting (hs : Seeded h mark edge) : Sorting h.graph mark [] [] (edge ++ w₀.sourceModules) :=
  Sorting.of_seeding hs.seeding hs.all (h.nodup.filter _) h.mem_sourceModules

/-- Seeds and sources are no more than the free modules. -/
lemma length_le (hs : Seeded h mark edge) :
    edge.length + w₀.sourceModules.length ≤ w₀.freeModules.length := by
  have := hs.sorting.length_le h.mem_freeModules
  simpa using this

end Seeded

/-- The modules in `pre` were looked at for their inputs, after the modules in `edge` were found. -/
structure SourceAt (h : w₀.Sortable) (answers : List Bool) (edge pre : List Addr) (w : GuWorld) :
    Prop where
  frame : SortFrame w₀ w
  answered : Answered answers (edge ++ pre.filter w₀.isSourceEdge).length w
  sorted : w.gu.sortedModuleList = []
  seeded : Seeded h w.inMark edge

/-- One module. -/
lemma guFindSourceEdge_triple (h : w₀.Sortable) (answers : List Bool) (edge : List Addr)
    (found : List Addr) (m : Addr) (rest : List Addr) :
    Triple
      (fun w => ∃ pre, w₀.modules = pre ++ m :: rest ∧ found = edge ++ pre.filter w₀.isSourceEdge ∧
        SourceAt h answers edge pre w)
      (guFindSourceEdge found m)
      (fun found' w => ∃ pre, w₀.modules = pre ++ rest ∧
        found' = edge ++ pre.filter w₀.isSourceEdge ∧ SourceAt h answers edge pre w)
      (Stopped w₀ answers) := by
  refine Triple.get_bind fun w ⟨pre, hlist, hfound, hs⟩ => ?_
  have hlist' : w₀.modules = (pre ++ [m]) ++ rest := by rw [hlist]; simp
  rw [hs.frame.isSourceEdge]
  refine Triple.ite (fun hsource => ?_) fun hnot => ?_
  · have hfilter : (pre ++ [m]).filter w₀.isSourceEdge = pre.filter w₀.isSourceEdge ++ [m] := by
      rw [filter_append, filter_cons_of_pos hsource, filter_nil]
    have hlength : (edge ++ (pre ++ [m]).filter w₀.isSourceEdge).length =
        (edge ++ pre.filter w₀.isSourceEdge).length + 1 := by
      rw [hfilter, ← append_assoc, length_append, length_singleton]
    refine Triple.bind
      ((malloc_triple hs.answered).conseq (fun _ ht => ht.1) (fun _ _ ht => ht) ?_) fun _ => ?_
    · rintro t ⟨rfl, href⟩
      refine ⟨hs.frame.answer, _, href, ?_, ?_⟩
      · have hle := hs.seeded.length_le
        have hsources : (pre.filter w₀.isSourceEdge).length + 1 ≤ w₀.sourceModules.length := by
          unfold GuWorld.sourceModules
          rw [hlist', filter_append, hfilter]
          simp only [length_append, length_singleton]
          omega
        rw [length_append]
        omega
      · by_cases hext : w₀.gu.extInPortList = []
        · obtain ⟨rfl, hclear⟩ := hs.seeded.noExt hext
          refine iff_of_true hclear ?_
          unfold UnmarkedAt
          rw [hext]
          -- the modules without inputs are still being collected
          have hshort : (([] : List Addr) ++ pre.filter w₀.isSourceEdge).length -
              w₀.sourceModules.length = 0 := by
            unfold GuWorld.sourceModules
            rw [hlist', filter_append, hfilter]
            simp only [nil_append, length_append]
            omega
          rw [hshort]
          simp
        · refine iff_of_false (hs.seeded.someExt hext).1 ((hs.seeded.someExt hext).2 _ ?_)
          rw [length_append]
          omega
    · refine Triple.pure ?_
      rintro t ⟨rfl, hanswered⟩
      refine ⟨pre ++ [m], hlist', by rw [hfound, hfilter, append_assoc], hs.frame.answer, ?_,
        hs.sorted, hs.seeded⟩
      rw [hlength]
      exact hanswered
  · refine Triple.pure ?_
    rintro t ⟨rfl, -⟩
    have hfilter : (pre ++ [m]).filter w₀.isSourceEdge = pre.filter w₀.isSourceEdge := by
      rw [filter_append, filter_cons_of_neg hnot, filter_nil, append_nil]
    refine ⟨pre ++ [m], hlist', by rw [hfound, hfilter], hs.frame, ?_, hs.sorted, hs.seeded⟩
    rw [hfilter]
    exact hs.answered

/-- Both searches. -/
lemma guFindEdgeModules_triple (h : w₀.Sortable) (answers : List Bool) {gu : Gu}
    (hext : gu.extInPortList = w₀.gu.extInPortList) (hsgs : gu.sgList = w₀.gu.sgList) :
    Triple (SeedAt h answers [] []) (guFindEdgeModules gu)
      (fun found w => ∃ edge, found = edge ++ w₀.sourceModules ∧
        SourceAt h answers edge w₀.modules w)
      (Stopped w₀ answers) := by
  unfold guFindEdgeModules
  rw [hext, hsgs]
  refine Triple.bind (Q := fun edge => SeedAt h answers w₀.gu.extInPortList edge) ?_ fun edge => ?_
  · refine (Triple.foldlM_rest (I := fun rest edge w => ∃ pre, w₀.gu.extInPortList = pre ++ rest ∧
      SeedAt h answers pre edge w) (fun edge e rest => guFindExternalEdge_triple h answers edge e rest)
      w₀.gu.extInPortList []).conseq (fun w hw => ⟨[], rfl, hw⟩) ?_ fun _ hw => hw
    rintro edge w ⟨pre, hlist, hs⟩
    rw [append_nil] at hlist
    rw [hlist]
    exact hs
  · refine Triple.get_bind fun w hw => ?_
    rw [hw.frame.field GuWorld.sgModuleList fun _ => rfl]
    refine (Triple.foldlM_rest (I := fun rest found w => ∃ pre, w₀.modules = pre ++ rest ∧
      found = edge ++ pre.filter w₀.isSourceEdge ∧ SourceAt h answers edge pre w)
      (fun found m rest => guFindSourceEdge_triple h answers edge found m rest)
      w₀.modules edge).conseq ?_ ?_ fun _ hw => hw
    · rintro t ⟨rfl, -⟩
      refine ⟨[], rfl, by simp, hw.frame, ?_, hw.sorted, hw.seeded⟩
      rw [filter_nil, append_nil]
      exact hw.answered
    · rintro found t ⟨pre, hlist, hfound, hs⟩
      rw [append_nil] at hlist
      subst hlist
      exact ⟨edge, hfound, hs⟩

/-! ## The loop -/

/-- The output ports in `F` were followed, the modules in `done` are in the sorted list, and those
in `work` wait; the sort began with the modules in `edge`. -/
structure SortAt (h : w₀.Sortable) (answers : List Bool) (edge F done work : List Addr)
    (w : GuWorld) : Prop where
  frame : SortFrame w₀ w
  /-- One answer was used for each module listed and one more for each module that is done. -/
  answered : Answered answers (2 * done.length + work.length) w
  sorted : w.gu.sortedModuleList = done
  sorting : Sorting h.graph w.inMark F done work
  first : edge <+: done ++ work
  /-- The ports that were followed belong to their modules. -/
  owned : ∀ o ∈ F, o ∈ w₀.outputPortList (w₀.outModule o)
  /-- Until an internal port is followed, no module is added. -/
  quiet : (∀ o ∈ F, ¬ w₀.IsInternal o) → done ++ work = edge
  /-- The first internal port that was followed belongs to one of these modules. -/
  loud : (∃ o ∈ F, w₀.IsInternal o) →
    ∃ m ∈ edge.take done.length, ∃ o ∈ w₀.outputPortList m, w₀.IsInternal o
  /-- With external ports a port was marked before the loop. -/
  someExt : w₀.gu.extInPortList ≠ [] → ∀ c, edge.length ≤ c → ¬ w₀.UnmarkedAt c
  /-- Without external ports the sort began with the modules without inputs. -/
  noExt : w₀.gu.extInPortList = [] → edge = w₀.sourceModules

/-- A port that leads to an input port is internal. -/
lemma GuWorld.Sortable.isInternal_of_up (h : w₀.Sortable) {m p o : Addr} (hm : m ∈ w₀.modules)
    (hp : p ∈ w₀.inputPortList m) (hup : w₀.connOutPort p = some o) : w₀.IsInternal o := by
  obtain ⟨hmod, hout, hconn⟩ := h.conn_out m hm p hp o hup
  refine ⟨?_, by simp [hconn]⟩
  rcases h.out_one _ hmod o hout with hnone | hnone
  · rw [hnone] at hconn
    cases hconn
  · exact hnone

namespace SortAt

variable {h : w₀.Sortable} {edge F done work : List Addr} {w : GuWorld} {m o : Addr}

/-- The loop starts with the edges. -/
lemma start (hs : SourceAt h answers edge w₀.modules w) :
    SortAt h answers (edge ++ w₀.sourceModules) [] [] (edge ++ w₀.sourceModules) w := by
  refine ⟨hs.frame, ?_, hs.sorted, hs.seeded.sorting, prefix_rfl, by simp, fun _ => rfl,
    by simp, ?_, ?_⟩
  · rw [length_nil, Nat.mul_zero, Nat.zero_add]
    exact hs.answered
  · intro hext c hc
    refine (hs.seeded.someExt hext).2 c (le_trans ?_ hc)
    rw [length_append]
    exact Nat.le_add_right _ _
  · intro hext
    rw [(hs.seeded.noExt hext).1, nil_append]

section

variable (hs : SortAt h answers edge F done work w)
include hs

/-- The edges are done or still to do. -/
lemma length_edge_le : edge.length ≤ done.length + work.length := by
  rw [← length_append]
  exact hs.first.length_le

/-- No more is done or to do than there are free modules. -/
lemma length_le : done.length + work.length ≤ w₀.freeModules.length :=
  hs.sorting.length_le h.mem_freeModules

/-- A port that was followed inside has left a mark. -/
lemma marked_of_internal (ho : o ∈ F) (hint : w₀.IsInternal o) : ¬ InUnmarked w₀ w := by
  have hout : w₀.outModule o ∈ w₀.modules :=
    hs.sorting.mem_verts (mem_append_left work (hs.sorting.followed o ho))
  obtain ⟨p, hp⟩ := Option.ne_none_iff_exists'.mp hint.2
  obtain ⟨hmod, hin, hup⟩ := h.conn_in _ hout o (hs.owned o ho) p hp
  intro hclear
  have := hclear _ hmod p hin
  rw [(hs.sorting.mark_iff _ hmod p hin).mpr (Or.inr ⟨o, ho, hup⟩)] at this
  cases this

/-- An external input port has left a mark. -/
lemma marked_of_ext (hext : w₀.gu.extInPortList ≠ []) : ¬ InUnmarked w₀ w := by
  obtain ⟨e, he⟩ := exists_mem_of_ne_nil _ hext
  obtain ⟨p, -, hmod, hin, hextp⟩ := h.int_in e he
  intro hclear
  have := hclear _ hmod p hin
  rw [(hs.sorting.mark_iff _ hmod p hin).mpr (Or.inl (by rw [h.graph_ext, hextp]; rfl))] at this
  cases this

/-- After a loud edge the refused allocation was too late. -/
lemma not_unmarkedAt_of_loud
    (hloud : ∃ m ∈ edge.take done.length, ∃ o ∈ w₀.outputPortList m, w₀.IsInternal o) {c : ℕ}
    (hc : 2 * done.length + work.length ≤ c) : ¬ w₀.UnmarkedAt c := by
  have hle := hs.length_edge_le
  by_cases hext : w₀.gu.extInPortList = []
  · obtain ⟨m, hm, o, ho, hint⟩ := hloud
    have hedge := hs.noExt hext
    unfold UnmarkedAt
    rw [hext]
    intro hall
    refine hall m ?_ o ho hint
    rw [← hedge]
    exact take_subset_take_left edge (by omega) hm
  · exact hs.someExt hext c (by omega)

/-- Without marked ports nothing is marked. -/
lemma unmarked (hext : w₀.gu.extInPortList = []) (hquiet : ∀ o ∈ F, ¬ w₀.IsInternal o) :
    InUnmarked w₀ w := by
  intro m hm p hp
  by_contra hmark
  rcases (hs.sorting.mark_iff m hm p hp).mp (by simpa using hmark) with hextp | ⟨o, ho, hup⟩
  · obtain ⟨e, he⟩ := Option.isSome_iff_exists.mp hextp
    have hmem : e ∈ w₀.gu.extInPortList := (h.ext_in m hm p hp e he).1
    rw [hext] at hmem
    cases hmem
  · exact hquiet o ho (h.isInternal_of_up hm hp hup)

end

/-- Where the loop stops before it has moved the next module. -/
lemma stopped_move (hs : SortAt h answers edge F done (m :: work) w)
    (hF : ∀ u ∈ done, ∀ o ∈ w₀.outputPortList u, o ∈ F)
    (href : RefusedAt answers (2 * done.length + (m :: work).length)) :
    Stopped w₀ answers w.answer := by
  have hle := hs.length_le
  rw [length_cons] at hle
  refine ⟨hs.frame.answer, _, href, by rw [length_cons]; omega, ?_⟩
  by_cases hint : ∃ o ∈ F, w₀.IsInternal o
  · obtain ⟨o, ho, hint'⟩ := hint
    exact iff_of_false (hs.marked_of_internal ho hint')
      (hs.not_unmarkedAt_of_loud (hs.loud ⟨o, ho, hint'⟩) le_rfl)
  · push Not at hint
    by_cases hext : w₀.gu.extInPortList = []
    · refine iff_of_true (hs.unmarked hext hint) ?_
      have hedge : done ++ m :: work = w₀.sourceModules := (hs.quiet hint).trans (hs.noExt hext)
      have hcount : 2 * done.length + (m :: work).length - w₀.sourceModules.length =
          done.length := by
        rw [← hedge, length_append]
        omega
      unfold UnmarkedAt
      rw [hext]
      rw [hcount, ← hedge, take_left]
      exact fun u hu o ho => hint o (hF u hu o ho)
    · refine iff_of_false (hs.marked_of_ext hext) (hs.someExt hext _ ?_)
      have := hs.length_edge_le
      omega

/-- The next module is done. -/
lemma move (hs : SortAt h answers edge F done (m :: work) w) {t : GuWorld}
    (ht : t = { w.answer with gu := { w.gu with sortedModuleList := w.gu.sortedModuleList ++ [m] } })
    (hanswered : Answered answers (2 * done.length + (m :: work).length + 1) t) :
    SortAt h answers edge F (done ++ [m]) work t := by
  subst ht
  refine ⟨⟨hs.frame.same, hs.frame.outMark, hs.frame.inMark⟩, ?_, ?_, hs.sorting.pop, ?_, hs.owned,
    ?_, ?_, hs.someExt, hs.noExt⟩
  · have hcount : 2 * (done ++ [m]).length + work.length =
        2 * done.length + (m :: work).length + 1 := by
      rw [length_append, length_singleton, length_cons]
      omega
    rw [hcount]
    exact hanswered
  · rw [hs.sorted]
  · rw [append_assoc]
    exact hs.first
  · intro hquiet
    rw [append_assoc]
    exact hs.quiet hquiet
  · intro hint
    obtain ⟨u, hu, hloud⟩ := hs.loud hint
    refine ⟨u, take_subset_take_left edge ?_ hu, hloud⟩
    rw [length_append]
    exact Nat.le_add_right _ _

section

variable (hs : SortAt h answers edge F (done ++ [m]) work w)
include hs

/-- A port that leads nowhere inside is passed. -/
lemma pass (hm : m ∈ w₀.modules) (ho : o ∈ w₀.outputPortList m) (hint : ¬ w₀.IsInternal o) :
    SortAt h answers edge (F ++ [o]) (done ++ [m]) work w := by
  have hout := h.outs_own m hm o ho
  refine ⟨hs.frame, hs.answered, hs.sorted, hs.sorting.skip ?_ ?_, hs.first, ?_, ?_, ?_, hs.someExt,
    hs.noExt⟩
  · rw [show h.graph.outVert o = m from hout]
    simp
  · exact fun v hv p hp hup => hint (h.isInternal_of_up hv hp hup)
  · intro o' ho'
    rcases mem_append.mp ho' with ho' | ho'
    · exact hs.owned o' ho'
    · rw [mem_singleton.mp ho', hout]
      exact ho
  · exact fun hquiet => hs.quiet fun o' ho' => hquiet o' (mem_append_left _ ho')
  · rintro ⟨o', ho', hint'⟩
    rcases mem_append.mp ho' with ho' | ho'
    · exact hs.loud ⟨o', ho', hint'⟩
    · exact absurd (mem_singleton.mp ho' ▸ hint') hint

/-- A port that is followed inside makes its edge loud. -/
lemma loud_follow (ho : o ∈ w₀.outputPortList m) (hint : w₀.IsInternal o) :
    ∃ u ∈ edge.take (done ++ [m]).length, ∃ o ∈ w₀.outputPortList u, w₀.IsInternal o := by
  by_cases hF : ∃ o ∈ F, w₀.IsInternal o
  · exact hs.loud hF
  · push Not at hF
    refine ⟨m, ?_, o, ho, hint⟩
    rw [← hs.quiet hF, take_left]
    simp

/-- An internal port is followed; the module downstream joins the work when `work'` has it. -/
lemma follow (hm : m ∈ w₀.modules) (ho : o ∈ w₀.outputPortList m) (hint : w₀.IsInternal o)
    {t : GuWorld} {added : List Addr} (hframe : SortFrame w₀ t)
    (hsorted : t.gu.sortedModuleList = w.gu.sortedModuleList)
    (hanswered : Answered answers (2 * (done ++ [m]).length + (work ++ added).length) t)
    (hsorting : Sorting h.graph t.inMark (F ++ [o]) (done ++ [m]) (work ++ added)) :
    SortAt h answers edge (F ++ [o]) (done ++ [m]) (work ++ added) t := by
  refine ⟨hframe, hanswered, hsorted.trans hs.sorted, hsorting, ?_, ?_, ?_,
    fun _ => hs.loud_follow ho hint, hs.someExt, hs.noExt⟩
  · rw [← append_assoc]
    exact hs.first.trans (prefix_append _ _)
  · intro o' ho'
    rcases mem_append.mp ho' with ho' | ho'
    · exact hs.owned o' ho'
    · rw [mem_singleton.mp ho', h.outs_own m hm o ho]
      exact ho
  · exact fun hquiet => absurd hint (hquiet o (by simp))

end

end SortAt

/-- One output port of the module that was moved last. -/
lemma guFollowPort_triple (h : w₀.Sortable) (answers : List Bool) (edge F₀ done : List Addr)
    {m : Addr} (hm : m ∈ w₀.modules) (hnew : m ∉ done)
    (hF₀ : ∀ o ∈ F₀, w₀.outModule o ∈ done) (work : List Addr) (o : Addr) (rest : List Addr) :
    Triple (fun w => ∃ pre, w₀.outputPortList m = pre ++ o :: rest ∧
        SortAt h answers edge (F₀ ++ pre) (done ++ [m]) work w)
      (guFollowPort work o)
      (fun work' w => ∃ pre, w₀.outputPortList m = pre ++ rest ∧
        SortAt h answers edge (F₀ ++ pre) (done ++ [m]) work' w)
      (Stopped w₀ answers) := by
  refine Triple.get_bind fun w ⟨pre, hlist, hs⟩ => ?_
  have hlist' : w₀.outputPortList m = (pre ++ [o]) ++ rest := by rw [hlist]; simp
  have ho : o ∈ w₀.outputPortList m := by rw [hlist]; simp
  have hout := h.outs_own m hm o ho
  -- the port was not followed before
  have hfresh : o ∉ F₀ ++ pre := by
    intro hmem
    rcases mem_append.mp hmem with hmem | hmem
    · have := hF₀ o hmem
      rw [hout] at this
      exact hnew this
    · have hnodup := h.outs_nodup m hm
      rw [hlist, nodup_append] at hnodup
      exact hnodup.2.2 o hmem o (by simp) rfl
  have hdone : h.graph.outVert o ∈ done ++ [m] := by
    rw [show h.graph.outVert o = m from hout]
    simp
  have hpass : ¬ w₀.IsInternal o → Triple
      (fun t => t = w ∧ ∃ pre, w₀.outputPortList m = pre ++ o :: rest ∧
        SortAt h answers edge (F₀ ++ pre) (done ++ [m]) work t)
      (pure work : GuM (List Addr))
      (fun work' w => ∃ pre, w₀.outputPortList m = pre ++ rest ∧
        SortAt h answers edge (F₀ ++ pre) (done ++ [m]) work' w) (Stopped w₀ answers) := by
    intro hint
    refine Triple.pure ?_
    rintro t ⟨rfl, -⟩
    refine ⟨pre ++ [o], hlist', ?_⟩
    rw [← append_assoc]
    exact hs.pass hm ho hint
  rw [hs.frame.extOutPort, hs.frame.connInPort]
  cases hext : w₀.extOutPort o with
  | some e => exact hpass fun hint => by simp [IsInternal, hext] at hint
  | none =>
    cases hconn : w₀.connInPort o with
    | none => exact hpass fun hint => hint.2 hconn
    | some p =>
      have hint : w₀.IsInternal o := ⟨hext, by simp [hconn]⟩
      obtain ⟨hmod, hin, hup⟩ := h.conn_in m hm o ho p hconn
      have hmark : ∀ q, (w.markIn p).inMark q = true ↔ w.inMark q = true ∨ q = p :=
        fun q => inMark_markIn w p q
      refine Triple.bind (Q := fun _ t => t = w.markIn p) (Triple.modify ?_) fun _ => ?_
      · rintro t ⟨rfl, -⟩
        rfl
      refine Triple.get_bind fun t ht => ?_
      subst ht
      have hframe : SortFrame w₀ (w.markIn p) := hs.frame.markIn hmod hin
      rw [hframe.inputPortList, hframe.inModule]
      refine Triple.ite (fun hall => ?_) fun hsome => ?_
      · -- the last port of its module
        have hsorting := hs.sorting.follow_last hdone hmod hin hup hfresh hmark
          (fun q hq => all_eq_true.mp hall q hq)
        have hanswered : Answered answers (2 * (done ++ [m]).length + work.length) (w.markIn p) :=
          ⟨hs.answered.rest, hs.answered.granted⟩
        refine Triple.bind
          ((malloc_triple hanswered).conseq (fun _ ht => ht.1) (fun _ _ ht => ht) ?_) fun _ => ?_
        · rintro t ⟨rfl, href⟩
          refine ⟨hframe.answer, _, href, ?_, iff_of_false ?_ ?_⟩
          · have hle := hsorting.length_le h.mem_freeModules
            simp only [length_append, length_singleton] at hle ⊢
            omega
          · intro hclear
            have hmarked := (hmark p).mpr (Or.inr rfl)
            rw [show (w.markIn p).inMark p = false from hclear _ hmod p hin] at hmarked
            cases hmarked
          · exact hs.not_unmarkedAt_of_loud (hs.loud_follow ho hint) le_rfl
        · refine Triple.pure ?_
          rintro t ⟨rfl, hanswered'⟩
          refine ⟨pre ++ [o], hlist', ?_⟩
          rw [← append_assoc]
          refine hs.follow hm ho hint hframe.answer rfl ?_ hsorting
          have hlength : (work ++ [w₀.inModule p]).length = work.length + 1 := by simp
          rw [hlength]
          exact hanswered'
      · -- its module has another port without mark
        have hother : ∃ q ∈ w₀.inputPortList (w₀.inModule p), (w.markIn p).inMark q = false := by
          by_contra hnone
          push Not at hnone
          exact hsome (all_eq_true.mpr fun q hq => by simpa using hnone q hq)
        refine Triple.pure ?_
        rintro t ⟨rfl, -⟩
        refine ⟨pre ++ [o], hlist', ?_⟩
        rw [← append_assoc]
        have hsorting := hs.sorting.follow hdone hmod hin hup hmark hother
        rw [← append_nil work] at hs hsorting ⊢
        refine (append_nil work ▸ hs).follow hm ho hint hframe rfl ?_ hsorting
        exact ⟨hs.answered.rest, hs.answered.granted⟩

/-- **The loop.** With as many rounds as there are free modules left it ends with a sorted list,
or stops at a refused allocation. -/
lemma guSortLoop_triple (h : w₀.Sortable) (answers : List Bool) (edge : List Addr) (n : ℕ)
    (work : List Addr) :
    Triple (fun w => ∃ F done, SortAt h answers edge F done work w ∧
        (∀ u ∈ done, ∀ o ∈ w₀.outputPortList u, o ∈ F) ∧
        w₀.freeModules.length ≤ done.length + n)
      (guSortLoop n work)
      (fun _ w => ∃ F done, SortAt h answers edge F done [] w ∧
        ∀ u ∈ done, ∀ o ∈ w₀.outputPortList u, o ∈ F)
      (Stopped w₀ answers) := by
  induction n generalizing work with
  | zero =>
    cases work with
    | nil => exact Triple.pure fun w ⟨F, done, hs, hF, _⟩ => ⟨F, done, hs, hF⟩
    | cons m work =>
      refine Triple.throw ?_
      rintro w ⟨F, done, hs, -, hfuel⟩
      have hle := hs.length_le
      rw [length_cons] at hle
      omega
  | succ n ih =>
    cases work with
    | nil => exact Triple.pure fun w ⟨F, done, hs, hF, _⟩ => ⟨F, done, hs, hF⟩
    | cons m work =>
      refine Triple.at_state fun w ⟨F, done, hs, hF, hfuel⟩ => ?_
      have hm : m ∈ w₀.modules := hs.sorting.mem_verts (by simp)
      have hnew : m ∉ done := fun hmem =>
        (nodup_append.mp hs.sorting.nodup).2.2 m hmem m (by simp) rfl
      refine Triple.bind
        ((malloc_triple hs.answered).conseq (fun _ ht => ht) (fun _ _ ht => ht) ?_) fun _ => ?_
      · rintro t ⟨rfl, href⟩
        exact hs.stopped_move hF href
      refine Triple.bind (Q := fun _ => SortAt h answers edge F (done ++ [m]) work)
        (Triple.modify ?_) fun _ => ?_
      · rintro t ⟨rfl, hanswered⟩
        exact hs.move rfl ⟨hanswered.rest, hanswered.granted⟩
      refine Triple.get_bind fun t hs' => ?_
      rw [hs'.frame.outputPortList]
      refine Triple.bind (Q := fun work' t =>
        SortAt h answers edge (F ++ w₀.outputPortList m) (done ++ [m]) work' t) ?_ fun work' => ?_
      · refine (Triple.foldlM_rest (I := fun rest work' t => ∃ pre,
          w₀.outputPortList m = pre ++ rest ∧
          SortAt h answers edge (F ++ pre) (done ++ [m]) work' t)
          (fun work' o rest => guFollowPort_triple h answers edge F done hm hnew
            hs.sorting.followed work' o rest) (w₀.outputPortList m) work).conseq ?_ ?_ fun _ ht => ht
        · rintro t ⟨rfl, -⟩
          refine ⟨[], rfl, ?_⟩
          rw [append_nil]
          exact hs'
        · rintro work' t ⟨pre, hlist, ht⟩
          rw [append_nil] at hlist
          rw [hlist]
          exact ht
      · refine (ih work').conseq (fun t ht => ⟨_, _, ht, ?_, ?_⟩) (fun _ _ ht => ht) fun _ ht => ht
        · intro u hu o ho
          rcases mem_append.mp hu with hu | hu
          · exact mem_append_left _ (hF u hu o ho)
          · exact mem_append_right _ (mem_singleton.mp hu ▸ ho)
        · rw [length_append, length_singleton]
          omega

end AudioReach
