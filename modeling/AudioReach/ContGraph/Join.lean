import AudioReach.Library.Connect
import AudioReach.Library.Runs
import AudioReach.ContGraph.Tidy

/-!
# Reported links

After any links were reported, the pointers of the containers represent them: containers without
links point nowhere, and two others point to the same graph exactly when the links connect them.
-/

namespace AudioReach

open Library

/-- A link that is reported to `apm_update_cont_graph`. -/
structure ContLink where
  /-- `src_cont_node_ptr`. -/
  src : Addr
  /-- `dst_cont_node_ptr`. -/
  dst : Addr
  /-- `retain_sorted_cont_graph`. -/
  retainSorted : Bool
  deriving DecidableEq

namespace ContLink

/-- The containers that the links connect. -/
def edges (links : List ContLink) : List (Addr × Addr) :=
  links.map fun l => (l.src, l.dst)

/-- The two ends are different containers, as the parsers check before they report a link. -/
structure Between (conts : List Addr) (l : ContLink) : Prop where
  src : l.src ∈ conts
  dst : l.dst ∈ conts
  ne : l.src ≠ l.dst

end ContLink

namespace ContGraphInfo

/-- The links are reported one after the other. -/
def report (info : ContGraphInfo) (l : ContLink) : ContGraphInfo :=
  info.updateContGraph l.src l.dst l.retainSorted

/-- The graphs are those of the edges. -/
structure Grouped (conts : List Addr) (edges : List (Addr × Addr)) (info : ContGraphInfo) :
    Prop where
  tidy : Tidy conts info
  ptr : Represents edges {c | c ∈ conts} info.ptr

variable {info : ContGraphInfo} {conts : List Addr} {edges : List (Addr × Addr)} {l : ContLink}

/-- **One link.** -/
lemma Grouped.report (h : Grouped conts edges info) (hconts : conts.Nodup)
    (hl : l.Between conts) : Grouped conts (edges ++ [(l.src, l.dst)]) (info.report l) := by
  have hsrc := hl.src
  have hdst := hl.dst
  have hcases : ∃ ps pd, info.ptr l.src = ps ∧ info.ptr l.dst = pd := ⟨_, _, rfl, rfl⟩
  obtain ⟨ps, pd, hps, hpd⟩ := hcases
  have hps' : (info.conts l.src).contGraphPtr = ps := hps
  have hpd' : (info.conts l.dst).contGraphPtr = pd := hpd
  unfold ContGraphInfo.report updateContGraph
  rw [hps', hpd']
  cases ps with
  | none =>
    cases pd with
    | none =>
      have hcreated := h.tidy.createContGraph hconts hsrc hps
      have hptr : (info.createContGraph l.src).ptr l.dst = none := by
        rw [ptr_createContGraph, if_neg hl.ne.symm]
        exact hpd
      refine ⟨hcreated.addToContGraph hconts
        (List.mem_append_right _ (List.mem_singleton_self _)) hdst hptr l.retainSorted, ?_⟩
      refine h.ptr.pair hsrc hdst hps hpd (c := info.nextGraph) ?_ ?_
      · intro c hc hnew
        exact absurd (h.tidy.fresh _ (h.tidy.back c hc _ hnew).1) (Nat.lt_irrefl _)
      · intro c
        rw [ptr_addToContGraph, ptr_createContGraph]
        by_cases hcs : c = l.src
        · rw [if_pos hcs, if_pos (Or.inl hcs), ite_self]
        · by_cases hcd : c = l.dst
          · rw [if_pos hcd, if_pos (Or.inr hcd)]
          · rw [if_neg hcd, if_neg hcs, if_neg (not_or.mpr ⟨hcs, hcd⟩)]
    | some gd =>
      refine ⟨h.tidy.addToContGraph hconts (h.tidy.back _ hdst gd hpd).1 hsrc hps _, ?_⟩
      exact h.ptr.attach hsrc hdst hps hpd fun c => ptr_addToContGraph info gd l.src c _
  | some gs =>
    cases pd with
    | none =>
      refine ⟨h.tidy.addToContGraph hconts (h.tidy.back _ hsrc gs hps).1 hdst hpd _, ?_⟩
      exact (h.ptr.attach hdst hsrc hpd hps fun c => ptr_addToContGraph info gs l.dst c _).swap
    | some gd =>
      dsimp only
      by_cases heq : gs = gd
      · subst heq
        rw [if_pos rfl]
        exact ⟨h.tidy.setSorted gs _, h.ptr.join_same hsrc hdst hps hpd⟩
      · rw [if_neg heq]
        have hgd := (h.tidy.back _ hdst gd hpd).1
        refine ⟨h.tidy.mergeContGraphs (h.tidy.back _ hsrc gs hps).1 hgd heq _, ?_⟩
        refine h.ptr.merge hsrc hdst hps hpd ?_
        intro c hc
        obtain ⟨mem, hptr, -, hmerge⟩ := mergeContGraphs_eq info gs hgd l.retainSorted
        rw [hmerge]
        refine (hptr c).trans ?_
        have hiff : c ∈ (info.graphs gd).containerList ↔ info.ptr c = some gd :=
          ⟨(h.tidy.graphs gd hgd).ptr c, fun hc' => (h.tidy.back c hc gd hc').2⟩
        by_cases hin : c ∈ (info.graphs gd).containerList
        · rw [if_pos hin, if_pos (hiff.mp hin)]
        · rw [if_neg hin, if_neg fun hc' => hin (hiff.mpr hc')]

/-- **All links.** -/
theorem Grouped.run (h : Grouped conts edges info) (hconts : conts.Nodup) (links : List ContLink)
    (hlinks : ∀ l ∈ links, l.Between conts) :
    Grouped conts (edges ++ ContLink.edges links) (run ContGraphInfo.report info links) := by
  induction links generalizing info edges with
  | nil =>
    rw [ContLink.edges, List.map_nil, List.append_nil]
    exact h
  | cons l links ih =>
    have hone := h.report hconts (hlinks l List.mem_cons_self)
    have hrest := ih hone (fun l' hl' => hlinks l' (List.mem_cons_of_mem l hl'))
    rw [List.append_assoc] at hrest
    exact hrest

end ContGraphInfo

end AudioReach
