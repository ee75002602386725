import AudioReach.ContGraph.Tidy

/-!
# The sort keeps the containers

`apm_sort_cont_graph_proc_order` moves the containers of a graph one by one from its list to the
sorted list, and puts them together again when it gives up.  For links within the graph, the list
that it leaves is a permutation of the list that it found, whether the sort succeeds or not.  Its
loops end, since no more than `APM_MAX_SORT_LOOP_ITR` rounds pass between two containers.
-/

namespace AudioReach

open List

namespace Cont

/-- The containers at the other ends of the output links, on cycles or not. -/
def opPeers (cont : Cont) : List Addr :=
  ((cont.ports .acyclic .op).list ++ (cont.ports .cyclic .op).list).flatMap
    PortConnectInfo.peerConts

lemma mem_opPeers {cont : Cont} {p : Addr} : p ∈ cont.opPeers ↔
    ∃ cycle, ∃ i ∈ (cont.ports cycle .op).list, p ∈ i.peerConts := by
  simp only [opPeers, mem_flatMap, mem_append]
  constructor
  · rintro ⟨i, hi | hi, hp⟩
    · exact ⟨.acyclic, i, hi, hp⟩
    · exact ⟨.cyclic, i, hi, hp⟩
  · rintro ⟨cycle, i, hi, hp⟩
    cases cycle with
    | acyclic => exact ⟨i, Or.inl hi, hp⟩
    | cyclic => exact ⟨i, Or.inr hi, hp⟩

/-- What the sort leaves of a container: its graph, its sub-graphs, and its output links, as a
whole. -/
structure Same (cont cont' : Cont) : Prop where
  contGraphPtr : cont'.contGraphPtr = cont.contGraphPtr
  subGraphList : cont'.subGraphList = cont.subGraphList
  opPeers : ∀ p ∈ cont'.opPeers, p ∈ cont.opPeers

/-- The container is also as much visited and sorted as it was. -/
structure Quiet (cont cont' : Cont) : Prop extends Same cont cont' where
  /-- `node_visted`. -/
  nodeVisited : cont'.graphUtils.nodeVisited = cont.graphUtils.nodeVisited
  nodeSorted : cont'.graphUtils.nodeSorted = cont.graphUtils.nodeSorted

variable {cont cont' cont'' : Cont}

lemma Same.refl (cont : Cont) : Same cont cont := ⟨rfl, rfl, fun _ h => h⟩

lemma Same.trans (h : Same cont cont') (h' : Same cont' cont'') : Same cont cont'' :=
  ⟨h'.contGraphPtr.trans h.contGraphPtr, h'.subGraphList.trans h.subGraphList,
    fun p hp => h.opPeers p (h'.opPeers p hp)⟩

lemma Quiet.refl (cont : Cont) : Quiet cont cont := ⟨Same.refl cont, rfl, rfl⟩

lemma Quiet.trans (h : Quiet cont cont') (h' : Quiet cont' cont'') : Quiet cont cont'' :=
  ⟨h.toSame.trans h'.toSame, h'.nodeVisited.trans h.nodeVisited, h'.nodeSorted.trans h.nodeSorted⟩

end Cont

namespace ContGraphInfo

open Cont

/-! ## Changes of one container -/

/-- Each container is left as it is in the sense of `Quiet`. -/
def QuietConts (conts conts' : Addr → Cont) : Prop := ∀ c, Quiet (conts c) (conts' c)

variable {conts conts' : Addr → Cont} {c : Addr}

lemma modifyCont_self (conts : Addr → Cont) (c : Addr) (f : Cont → Cont) :
    modifyCont conts c f c = f (conts c) := Function.update_self _ _ _

lemma modifyCont_of_ne {c' : Addr} (h : c' ≠ c) (conts : Addr → Cont) (f : Cont → Cont) :
    modifyCont conts c f c' = conts c' := Function.update_of_ne h _ _

lemma modifyCont_rel {R : Cont → Cont → Prop} (hrefl : ∀ cont, R cont cont) {f : Cont → Cont}
    (hf : R (conts c) (f (conts c))) (c' : Addr) : R (conts c') (modifyCont conts c f c') := by
  by_cases heq : c' = c
  · subst heq
    rw [modifyCont_self]
    exact hf
  · rw [modifyCont_of_ne heq]
    exact hrefl _

lemma quiet_addOutDegree (n : ℕ) (cont : Cont) : Quiet cont (addOutDegree n cont) :=
  ⟨⟨rfl, rfl, fun _ h => h⟩, rfl, rfl⟩

lemma quiet_countOutDegree (cont : Cont) : Quiet cont (countOutDegree cont) := by
  have hall : ∀ (list : List PortConnectInfo) (start : Cont),
      Quiet start (list.foldl (fun cont info => addOutDegree info.numPeers cont) start) := by
    intro list
    induction list with
    | nil => exact Quiet.refl
    | cons i list ih =>
      intro start
      exact (quiet_addOutDegree i.numPeers start).trans (ih _)
  have hzero : Quiet cont { cont with graphUtils := { cont.graphUtils with outDegree := 0 } } :=
    ⟨⟨rfl, rfl, fun _ h => h⟩, rfl, rfl⟩
  exact hzero.trans (hall _ _)

lemma quiet_of_ports {cont cont' : Cont} (hptr : cont'.contGraphPtr = cont.contGraphPtr)
    (hsgs : cont'.subGraphList = cont.subGraphList) (hutils : cont'.graphUtils = cont.graphUtils)
    (hports : ∀ cycle, ∀ i ∈ (cont'.ports cycle .op).list,
      ∃ cycle', i ∈ (cont.ports cycle' .op).list) : Quiet cont cont' := by
  refine ⟨⟨hptr, hsgs, ?_⟩, by rw [hutils], by rw [hutils]⟩
  intro p hp
  obtain ⟨cycle, i, hi, hpi⟩ := mem_opPeers.mp hp
  obtain ⟨cycle', hi'⟩ := hports cycle i hi
  exact mem_opPeers.mpr ⟨cycle', i, hi', hpi⟩

lemma quiet_mergeCyclic (cont : Cont) (port : DataPortType) : Quiet cont (mergeCyclic cont port) := by
  unfold mergeCyclic
  dsimp only
  split
  · exact Quiet.refl cont
  · refine quiet_of_ports rfl rfl rfl ?_
    intro cycle i hi
    unfold setPorts at hi
    dsimp only at hi
    split at hi
    · cases hi
    · split at hi
      · rename_i hport
        obtain ⟨-, rfl⟩ := hport
        rcases mem_append.mp hi with hi | hi
        · exact ⟨.acyclic, hi⟩
        · exact ⟨.cyclic, hi⟩
      · exact ⟨cycle, hi⟩

lemma quiet_cacheCurrCyclicDataLink (conts : Addr → Cont) (self tgtPeer : Addr)
    (port : DataPortType) :
    QuietConts conts (cacheCurrCyclicDataLink conts self tgtPeer port) := by
  unfold cacheCurrCyclicDataLink
  dsimp only
  split
  · exact fun c => Quiet.refl _
  · rename_i info hfind
    refine modifyCont_rel Quiet.refl (quiet_of_ports rfl rfl rfl ?_)
    intro cycle i hi
    unfold setPorts at hi
    dsimp only at hi
    split at hi
    · rename_i hport
      obtain ⟨-, rfl⟩ := hport
      rcases mem_append.mp hi with hi | hi
      · exact ⟨.cyclic, hi⟩
      · rw [mem_singleton.mp hi]
        exact ⟨.acyclic, mem_of_find?_eq_some hfind⟩
    · split at hi
      · rename_i hport
        obtain ⟨-, rfl⟩ := hport
        exact ⟨.acyclic, mem_of_mem_eraseP hi⟩
      · exact ⟨cycle, hi⟩

lemma quiet_foldl {f : Cont → Cont} (hf : ∀ cont, Quiet cont (f cont)) (list : List Addr)
    (conts : Addr → Cont) :
    QuietConts conts (list.foldl (fun conts c => modifyCont conts c f) conts) := by
  induction list generalizing conts with
  | nil => exact fun c => Quiet.refl _
  | cons a list ih =>
    intro c
    exact (modifyCont_rel Quiet.refl (hf (conts a)) c).trans (ih _ c)

/-! ## The invariant -/

/-- The sort of `list` while it runs; `conts₀` are the containers before it. -/
structure Sorting (list : List Addr) (conts₀ : Addr → Cont) (st : SortState) : Prop where
  /-- Each container is in the list of the graph or in the sorted list. -/
  perm : (st.unsorted ++ st.sorted).Perm list
  unsorted : ∀ c ∈ st.unsorted, (st.conts c).graphUtils.nodeSorted = false
  sorted : ∀ c ∈ st.sorted, (st.conts c).graphUtils.nodeSorted = true
  stack : ∀ c ∈ st.stack, c ∈ list
  pending : ∀ c ∈ st.stack, (st.conts c).graphUtils.nodeSorted = false
  visited : ∀ c ∈ st.stack.tail, (st.conts c).graphUtils.nodeVisited = true
  nodup : st.stack.Nodup
  same : ∀ c, Same (conts₀ c) (st.conts c)
  /-- Other containers are as much visited and sorted as they were. -/
  others : ∀ c, c ∉ list → (st.conts c).graphUtils.nodeVisited = (conts₀ c).graphUtils.nodeVisited ∧
      (st.conts c).graphUtils.nodeSorted = (conts₀ c).graphUtils.nodeSorted

variable {list : List Addr} {conts₀ : Addr → Cont} {st : SortState}

lemma Sorting.mem_unsorted (h : Sorting list conts₀ st) (hc : c ∈ list)
    (hsorted : (st.conts c).graphUtils.nodeSorted = false) : c ∈ st.unsorted := by
  rcases mem_append.mp (h.perm.symm.subset hc) with hin | hin
  · exact hin
  · rw [h.sorted c hin] at hsorted
    cases hsorted

lemma Sorting.quiet (h : Sorting list conts₀ st) {conts' : Addr → Cont}
    (hquiet : QuietConts st.conts conts') (bailoutCntr : ℕ) :
    Sorting list conts₀ { st with conts := conts', bailoutCntr := bailoutCntr } := by
  refine ⟨h.perm, ?_, ?_, h.stack, ?_, ?_, h.nodup, fun c => (h.same c).trans (hquiet c).toSame, ?_⟩
  · intro c hc
    exact (hquiet c).nodeSorted.trans (h.unsorted c hc)
  · intro c hc
    exact (hquiet c).nodeSorted.trans (h.sorted c hc)
  · intro c hc
    exact (hquiet c).nodeSorted.trans (h.pending c hc)
  · intro c hc
    exact (hquiet c).nodeVisited.trans (h.visited c hc)
  · intro c hc
    exact ⟨(hquiet c).nodeVisited.trans (h.others c hc).1,
      (hquiet c).nodeSorted.trans (h.others c hc).2⟩

variable {top g : Addr} {info : ContGraphInfo}

/-- The first container of the stack is marked as visited. -/
lemma Sorting.visit (h : Sorting list conts₀ st) {rest : List Addr}
    (hstack : st.stack = top :: rest) :
    let conts := modifyCont st.conts top fun cont =>
      { cont with graphUtils := { cont.graphUtils with nodeVisited := true } }
    Sorting list conts₀ { st with conts := conts } ∧
      ∀ c ∈ st.stack, (conts c).graphUtils.nodeVisited = true := by
  intro conts
  have hsorted : ∀ c, (conts c).graphUtils.nodeSorted = (st.conts c).graphUtils.nodeSorted :=
    modifyCont_rel (R := fun cont cont' =>
      cont'.graphUtils.nodeSorted = cont.graphUtils.nodeSorted) (fun _ => rfl) rfl
  have hsame : ∀ c, Same (st.conts c) (conts c) :=
    modifyCont_rel Same.refl ⟨rfl, rfl, fun _ hp => hp⟩
  have hmore : ∀ c, (st.conts c).graphUtils.nodeVisited = true →
      (conts c).graphUtils.nodeVisited = true :=
    modifyCont_rel (R := fun cont cont' => cont.graphUtils.nodeVisited = true →
      cont'.graphUtils.nodeVisited = true) (fun _ hv => hv) fun _ => rfl
  have htop : top ∈ list := h.stack top (by rw [hstack]; exact mem_cons_self)
  refine ⟨⟨h.perm, ?_, ?_, h.stack, ?_, fun c hc => hmore c (h.visited c hc), h.nodup,
    fun c => (h.same c).trans (hsame c), ?_⟩, ?_⟩
  · intro c hc
    exact (hsorted c).trans (h.unsorted c hc)
  · intro c hc
    exact (hsorted c).trans (h.sorted c hc)
  · intro c hc
    exact (hsorted c).trans (h.pending c hc)
  · intro c hc
    have hne : c ≠ top := fun heq => hc (heq ▸ htop)
    refine ⟨?_, (hsorted c).trans (h.others c hc).2⟩
    change (modifyCont _ _ _ c).graphUtils.nodeVisited = _
    rw [modifyCont_of_ne hne]
    exact (h.others c hc).1
  · intro c hc
    rw [hstack] at hc
    rcases mem_cons.mp hc with rfl | hc
    · change (modifyCont _ _ _ c).graphUtils.nodeVisited = _
      rw [modifyCont_self]
    · exact hmore c (h.visited c (by rw [hstack]; exact hc))

/-! ## One round -/

/-- What goes down in each round: rounds between two containers are bounded, and so are the
containers. -/
def SortState.rest (st : SortState) : ℕ :=
  503 * st.unsorted.length + (apmMaxSortLoopItr + 1 - st.bailoutCntr) +
    if st.stack = [] then 1 else 0

/-- The invariant after a round, with less than `rest` to go. -/
inductive Sorted (list : List Addr) (conts₀ : Addr → Cont) (rest : ℕ) : SortRound → Prop
  /-- The loops go on. -/
  | more {st' : SortState} (h : Sorting list conts₀ st')
      (hbailout : st'.bailoutCntr ≤ apmMaxSortLoopItr) (hrest : st'.rest < rest) :
      Sorted list conts₀ rest (.more st')
  /-- The list of the graph is empty. -/
  | done {st' : SortState} (h : Sorting list conts₀ st') (hempty : st'.unsorted = []) :
      Sorted list conts₀ rest (.done st')
  /-- The sort is given up with containers left. -/
  | bailout {st' : SortState} (h : Sorting list conts₀ st') (hleft : st'.unsorted ≠ []) :
      Sorted list conts₀ rest (.bailout .efailed st')

section

variable {rest : List Addr} (h : Sorting list conts₀ st)
include h

/-- A round at a container with output links. -/
lemma Sorting.sortInner (hstack : st.stack = top :: rest)
    (hvisited : ∀ c ∈ st.stack, (st.conts c).graphUtils.nodeVisited = true)
    (hpeers : ∀ c ∈ list, ∀ p ∈ (conts₀ c).opPeers, p ∈ list) :
    Sorted list conts₀ st.rest (sortInner st top) := by
  have htop : top ∈ st.stack := by rw [hstack]; exact mem_cons_self
  have hcount : Sorting list conts₀ { st with bailoutCntr := st.bailoutCntr + 1 } :=
    h.quiet (fun c => Quiet.refl _) _
  unfold ContGraphInfo.sortInner
  dsimp only
  split
  · refine .bailout hcount ?_
    exact ne_nil_of_mem (h.mem_unsorted (h.stack top htop) (h.pending top htop))
  · rename_i hbound
    have hbound : st.bailoutCntr + 1 ≤ apmMaxSortLoopItr := Nat.le_of_not_lt hbound
    have hrest : ∀ st' : SortState, st'.unsorted = st.unsorted → st'.stack ≠ [] →
        st'.bailoutCntr = st.bailoutCntr + 1 → st'.rest < st.rest := by
      intro st' hun hst hcnt
      unfold SortState.rest
      rw [hun, hcnt, if_neg hst, if_neg (by rw [hstack]; exact cons_ne_nil _ _)]
      omega
    have hnonempty : st.stack ≠ [] := by rw [hstack]; exact cons_ne_nil _ _
    split
    · exact .more hcount hbound (hrest _ rfl hnonempty rfl)
    · rename_i p hnext
      have hin : p ∈ list := by
        have hmem := mem_of_find?_eq_some hnext
        refine hpeers top (h.stack top htop) p ((h.same top).opPeers p ?_)
        unfold opPeers
        rw [flatMap_append]
        exact mem_append_left _ hmem
      have hpending : (st.conts p).graphUtils.nodeSorted = false := by
        have hfound := find?_some hnext
        simpa using hfound
      split
      · rename_i hnew
        have hnot : p ∉ st.stack := by
          intro hp
          rw [hvisited p hp] at hnew
          cases hnew
        refine .more ⟨h.perm, h.unsorted, h.sorted, ?_, ?_, hvisited, ?_, h.same, h.others⟩ hbound
          (hrest _ rfl (cons_ne_nil _ _) rfl)
        · intro c hc
          rcases mem_cons.mp hc with rfl | hc
          · exact hin
          · exact h.stack c hc
        · intro c hc
          rcases mem_cons.mp hc with rfl | hc
          · exact hpending
          · exact h.pending c hc
        · exact nodup_cons.mpr ⟨hnot, h.nodup⟩
      · refine .more ?_ hbound (hrest _ rfl hnonempty rfl)
        refine h.quiet ?_ _
        intro c
        refine (quiet_cacheCurrCyclicDataLink st.conts top p .op c).trans ?_
        refine (quiet_cacheCurrCyclicDataLink _ p top .ip c).trans ?_
        exact modifyCont_rel Quiet.refl (quiet_addOutDegree 65535 _) c

/-- A round at a container without output links. -/
lemma Sorting.sortLeaf (hlist : list.Nodup) (hstack : st.stack = top :: rest)
    (hbailout : st.bailoutCntr ≤ apmMaxSortLoopItr) :
    Sorted list conts₀ st.rest (sortLeaf st top rest) := by
  have htop : top ∈ st.stack := by rw [hstack]; exact mem_cons_self
  have hin : top ∈ st.unsorted := h.mem_unsorted (h.stack top htop) (h.pending top htop)
  have hnodup := h.perm.nodup_iff.mpr hlist
  have hun : st.unsorted.Nodup := (nodup_append.mp hnodup).1
  have hstackNodup := h.nodup
  rw [hstack, nodup_cons] at hstackNodup
  unfold ContGraphInfo.sortLeaf
  rw [if_pos hin]
  set marked := modifyCont st.conts top fun cont =>
    { cont with graphUtils := { cont.graphUtils with nodeSorted := true } } with hmarked
  set conts' := List.foldl (fun conts p => modifyCont conts p (addOutDegree 65535)) marked
    (flatMap PortConnectInfo.peerConts ((marked top).ports .acyclic .ip).list) with hconts'
  have hquiet : QuietConts marked conts' := quiet_foldl (quiet_addOutDegree 65535) _ _
  have hself : (conts' top).graphUtils.nodeSorted = true := by
    rw [(hquiet top).nodeSorted, hmarked, modifyCont_self]
  have hother : ∀ c, c ≠ top →
      (conts' c).graphUtils.nodeSorted = (st.conts c).graphUtils.nodeSorted := by
    intro c hne
    rw [(hquiet c).nodeSorted, hmarked, modifyCont_of_ne hne]
  have hvisit : ∀ c, (conts' c).graphUtils.nodeVisited = (st.conts c).graphUtils.nodeVisited := by
    intro c
    rw [(hquiet c).nodeVisited]
    exact modifyCont_rel (R := fun cont cont' =>
      cont'.graphUtils.nodeVisited = cont.graphUtils.nodeVisited) (fun _ => rfl) rfl c
  have hsame : ∀ c, Same (st.conts c) (conts' c) := by
    intro c
    have hone : Same (st.conts c) (marked c) :=
      modifyCont_rel Same.refl ⟨rfl, rfl, fun _ hp => hp⟩ c
    exact hone.trans (hquiet c).toSame
  refine .more ⟨?_, ?_, ?_, ?_, ?_, ?_, hstackNodup.2, fun c => (h.same c).trans (hsame c), ?_⟩
    (Nat.zero_le _) ?_
  · have hmove : (st.unsorted.erase top ++ top :: st.sorted).Perm (st.unsorted ++ st.sorted) := by
      refine perm_middle.trans ?_
      exact ((perm_cons_erase hin).symm).append_right st.sorted
    exact hmove.trans h.perm
  · intro c hc
    obtain ⟨hne, hmem⟩ := hun.mem_erase_iff.mp hc
    rw [hother c hne]
    exact h.unsorted c hmem
  · intro c hc
    by_cases hne : c = top
    · rw [hne]
      exact hself
    · rw [hother c hne]
      exact h.sorted c ((mem_cons.mp hc).resolve_left hne)
  · intro c hc
    exact h.stack c (by rw [hstack]; exact mem_cons_of_mem top hc)
  · intro c hc
    have hne : c ≠ top := fun heq => hstackNodup.1 (heq ▸ hc)
    rw [hother c hne]
    exact h.pending c (by rw [hstack]; exact mem_cons_of_mem top hc)
  · intro c hc
    rw [hvisit c]
    exact h.visited c (by rw [hstack]; exact mem_of_mem_tail hc)
  · intro c hc
    have hne : c ≠ top := fun heq => hc (heq ▸ h.stack top htop)
    exact ⟨(hvisit c).trans (h.others c hc).1, (hother c hne).trans (h.others c hc).2⟩
  · have hlength := length_erase_of_mem hin
    have hpos := length_pos_of_mem hin
    unfold SortState.rest
    dsimp only
    unfold apmMaxSortLoopItr at *
    split
    · omega
    · omega

/-- **One round.** -/
lemma Sorting.round (hlist : list.Nodup) (hpeers : ∀ c ∈ list, ∀ p ∈ (conts₀ c).opPeers, p ∈ list)
    (hbailout : st.bailoutCntr ≤ apmMaxSortLoopItr) :
    Sorted list conts₀ st.rest (sortRound st) := by
  unfold sortRound
  split
  · rename_i top rest hstack
    have htop : top ∈ st.stack := by rw [hstack]; exact mem_cons_self
    unfold sortTop
    rw [if_neg (by rw [h.pending top htop]; exact Bool.false_ne_true)]
    dsimp only
    obtain ⟨hvisit, hvisited⟩ := h.visit hstack
    split
    · exact hvisit.sortInner hstack hvisited hpeers
    · exact hvisit.sortLeaf hlist hstack hbailout
  · rename_i hstack
    split
    · rename_i hempty
      exact .done h hempty
    · rename_i c rest hun
      have hc : c ∈ st.unsorted := by rw [hun]; exact mem_cons_self
      refine .more ⟨h.perm, h.unsorted, h.sorted, ?_, ?_, ?_, nodup_singleton c, h.same,
        h.others⟩ hbailout ?_
      · intro c' hc'
        rw [mem_singleton.mp hc']
        exact h.perm.subset (mem_append_left _ hc)
      · intro c' hc'
        rw [mem_singleton.mp hc']
        exact h.unsorted c hc
      · intro c' hc'
        cases hc'
      · unfold SortState.rest
        rw [hstack, if_pos rfl, if_neg (cons_ne_nil c [])]
        exact Nat.lt_succ_self _

end

/-! ## The loops -/

/-- How the loops end. -/
inductive SortEnded (list : List Addr) (conts₀ : Addr → Cont) : SortRound → Prop
  /-- All containers are in the sorted list. -/
  | done {st : SortState} (h : Sorting list conts₀ st) (hempty : st.unsorted = []) :
      SortEnded list conts₀ (.done st)
  /-- The sort is given up with containers left. -/
  | bailout {st : SortState} (h : Sorting list conts₀ st) (hleft : st.unsorted ≠ []) :
      SortEnded list conts₀ (.bailout .efailed st)

lemma Sorting.sortLoop (h : Sorting list conts₀ st) (hlist : list.Nodup)
    (hpeers : ∀ c ∈ list, ∀ p ∈ (conts₀ c).opPeers, p ∈ list)
    (hbailout : st.bailoutCntr ≤ apmMaxSortLoopItr) {rounds : ℕ} (hrounds : st.rest < rounds) :
    ∃ out, ContGraphInfo.sortLoop rounds st = some out ∧ SortEnded list conts₀ out := by
  induction rounds generalizing st with
  | zero => exact absurd hrounds (Nat.not_lt_zero _)
  | succ rounds ih =>
    have hround := h.round hlist hpeers hbailout
    unfold ContGraphInfo.sortLoop
    generalize sortRound st = out at hround ⊢
    cases hround with
    | more h' hbailout' hrest => exact ih h' hbailout' (by omega)
    | done h' hempty => exact ⟨_, rfl, .done h' hempty⟩
    | bailout h' hleft => exact ⟨_, rfl, .bailout h' hleft⟩

section

variable (list : List Addr) (conts : Addr → Cont) (c : Addr)

lemma clearContListGraphSortInfo_same :
    Same (conts c) (clearContListGraphSortInfo conts list c) := by
  induction list generalizing conts with
  | nil => exact Same.refl _
  | cons a list ih =>
    have hone : Same (conts c) (modifyCont conts a (fun cont =>
        { cont with graphUtils := ⟨false, false, 0⟩ }) c) :=
      modifyCont_rel Same.refl ⟨rfl, rfl, fun _ hp => hp⟩ c
    exact hone.trans (ih _)

lemma clearContListGraphSortInfo_graphUtils :
    (clearContListGraphSortInfo conts list c).graphUtils =
      if c ∈ list then ⟨false, false, 0⟩ else (conts c).graphUtils := by
  unfold clearContListGraphSortInfo
  induction list generalizing conts with
  | nil => rfl
  | cons a list ih =>
    rw [foldl_cons, ih]
    by_cases hin : c ∈ list
    · rw [if_pos hin, if_pos (mem_cons_of_mem a hin)]
    · rw [if_neg hin]
      by_cases heq : c = a
      · subst heq
        rw [modifyCont_self, if_pos mem_cons_self]
      · rw [modifyCont_of_ne heq, if_neg (by simp [heq, hin])]

end

/-! ## The sort -/

/-- No container is visited or sorted. -/
def Idle (conts : List Addr) (info : ContGraphInfo) : Prop :=
  ∀ c ∈ conts, (info.conts c).graphUtils.nodeVisited = false ∧
    (info.conts c).graphUtils.nodeSorted = false

/-- What a sort of graph `g` leaves: its list is a permutation of what it was, and all but the
ports, the order and the sorted flag are as they were. -/
structure Resorted (conts : List Addr) (g : Addr) (info info' : ContGraphInfo) : Prop where
  same : ∀ c, Same (info.conts c) (info'.conts c)
  idle : Idle conts info'
  perm : (info'.graphs g).containerList.Perm (info.graphs g).containerList
  graph : ∃ tail isSorted, info'.graphs g = { info.graphs g with
    containerList := (info'.graphs g).containerList
    contListTail := tail
    graphIsSorted := isSorted }
  others : ∀ g', g' ≠ g → info'.graphs g' = info.graphs g'
  lists : info' = { info with conts := info'.conts, graphs := info'.graphs }

/-- The end of a sort. -/
lemma Sorting.endSort {conts : List Addr} {st : SortState}
    (h : Sorting (info.graphs g).containerList info.conts st) (hidle : Idle conts info)
    {list : List Addr} (hperm : list.Perm (info.graphs g).containerList) (tail : Option Addr)
    (isSorted : Bool) :
    Resorted conts g info (endSort info g st list tail isSorted) := by
  have hself : (ContGraphInfo.endSort info g st list tail isSorted).graphs g =
      { info.graphs g with containerList := list, contListTail := tail, graphIsSorted := isSorted } :=
    Function.update_self _ _ _
  refine ⟨?_, ?_, ?_, ⟨tail, isSorted, ?_⟩, fun g' hne => Function.update_of_ne hne _ _, rfl⟩
  · intro c
    exact (h.same c).trans (clearContListGraphSortInfo_same list st.conts c)
  · intro c hc
    change (clearContListGraphSortInfo st.conts list c).graphUtils.nodeVisited = false ∧
      (clearContListGraphSortInfo st.conts list c).graphUtils.nodeSorted = false
    rw [clearContListGraphSortInfo_graphUtils]
    split
    · exact ⟨rfl, rfl⟩
    · rename_i hout
      obtain ⟨hvisited, hsorted⟩ := h.others c fun hin => hout (hperm.symm.subset hin)
      exact ⟨hvisited.trans (hidle c hc).1, hsorted.trans (hidle c hc).2⟩
  · rw [hself]
    exact hperm
  · rw [hself]

/-- **The sort keeps the containers.** -/
theorem sortContGraphProcOrder_resorted {conts : List Addr}
    (hidle : Idle conts info) (hnodup : (info.graphs g).containerList.Nodup)
    (hnonempty : (info.graphs g).containerList ≠ [])
    (hin : ∀ c ∈ (info.graphs g).containerList, c ∈ conts)
    (hpeers : ∀ c ∈ (info.graphs g).containerList, ∀ p ∈ (info.conts c).opPeers,
      p ∈ (info.graphs g).containerList) :
    ((info.sortContGraphProcOrder g).1 = .eok ∨ (info.sortContGraphProcOrder g).1 = .efailed) ∧
      Resorted conts g info (info.sortContGraphProcOrder g).2 := by
  set list := (info.graphs g).containerList with hlist
  set start : SortState :=
    { conts := list.foldl (fun conts c => modifyCont conts c countOutDegree) info.conts
      unsorted := list, stack := [], sorted := [], bailoutCntr := 0 } with hstart
  have hquiet : QuietConts info.conts start.conts := quiet_foldl quiet_countOutDegree _ _
  have hsorting : Sorting list info.conts start := by
    refine ⟨by simp [hstart], ?_, by simp [hstart], by simp [hstart], by simp [hstart],
      by simp [hstart], by simp [hstart], fun c => (hquiet c).toSame, fun c _ =>
        ⟨(hquiet c).nodeVisited, (hquiet c).nodeSorted⟩⟩
    intro c hc
    rw [(hquiet c).nodeSorted]
    exact (hidle c (hin c hc)).2
  have hrest : start.rest < sortRounds list := by
    unfold SortState.rest sortRounds apmMaxSortLoopItr
    simp [hstart]
  obtain ⟨out, hloop, hended⟩ := hsorting.sortLoop hnodup hpeers (Nat.zero_le _) hrest
  unfold sortContGraphProcOrder
  dsimp only
  rw [← hlist, ← hstart, hloop]
  cases hended with
  | @done st h hempty =>
    have hperm : st.sorted.Perm list := by
      have hall := h.perm
      rw [hempty, nil_append] at hall
      exact hall
    have hsorted : st.sorted ≠ [] := by
      intro hnil
      rw [hnil] at hperm
      exact hnonempty hperm.nil_eq.symm
    dsimp only
    rw [getLast?_eq_some_getLast hsorted]
    exact ⟨Or.inl rfl, h.endSort hidle hperm _ _⟩
  | @bailout st h hleft =>
    refine ⟨Or.inr rfl, h.endSort hidle ?_ _ _⟩
    unfold SortState.restored
    split
    · exact h.perm
    · rename_i hnone
      have hsorted : st.sorted = [] := by
        by_contra hne
        exact hnone ⟨hleft, hne⟩
      have hall := h.perm
      rw [hsorted, append_nil] at hall
      exact hall

/-! ## Long paths -/

/-- The only output link of each of the first containers of `path` leads to the next one. -/
def LongPath (conts : Addr → Cont) (path : ℕ → Addr) : Prop :=
  ∀ k ≤ apmMaxSortLoopItr, (conts (path k)).ports .acyclic .op = ⟨[⟨[path (k + 1)], 1⟩], 1⟩

/-- The sort has pushed the containers of the path up to `k`. -/
structure OnPath (path : ℕ → Addr) (k : ℕ) (st : SortState) : Prop where
  /-- Container `k` is the first one of the stack. -/
  stack : ∃ rest, st.stack = path k :: rest
  bailout : st.bailoutCntr = k
  links : LongPath st.conts path
  /-- Each of the containers has one link to follow. -/
  outDegree : ∀ j ≤ apmMaxSortLoopItr, (st.conts (path j)).graphUtils.outDegree = 1
  sorted : ∀ j, (st.conts (path j)).graphUtils.nodeSorted = false
  visited : ∀ j, k < j → (st.conts (path j)).graphUtils.nodeVisited = false

section

variable {path : ℕ → Addr} {k : ℕ} {st : SortState} (hpath : Function.Injective path)
include hpath

/-- One round on the path. -/
lemma OnPath.round (h : OnPath path k st) (hk : k ≤ apmMaxSortLoopItr) :
    (k < apmMaxSortLoopItr ∧ ∃ st', sortRound st = .more st' ∧ OnPath path (k + 1) st') ∨
      (k = apmMaxSortLoopItr ∧ ∃ st', sortRound st = .bailout .efailed st') := by
  obtain ⟨rest, hstack⟩ := h.stack
  set conts := modifyCont st.conts (path k) fun cont =>
    { cont with graphUtils := { cont.graphUtils with nodeVisited := true } } with hconts
  have hrel : ∀ c, (conts c).ports = (st.conts c).ports ∧
      (conts c).graphUtils.outDegree = (st.conts c).graphUtils.outDegree ∧
      (conts c).graphUtils.nodeSorted = (st.conts c).graphUtils.nodeSorted :=
    modifyCont_rel (R := fun cont cont' => cont'.ports = cont.ports ∧
      cont'.graphUtils.outDegree = cont.graphUtils.outDegree ∧
      cont'.graphUtils.nodeSorted = cont.graphUtils.nodeSorted) (fun _ => ⟨rfl, rfl, rfl⟩)
      ⟨rfl, rfl, rfl⟩
  have htop : sortRound st = sortTop st (path k) rest := by
    unfold sortRound
    rw [hstack]
  have hround : sortRound st = sortInner { st with conts := conts } (path k) := by
    rw [htop]
    unfold sortTop
    rw [if_neg (by rw [h.sorted k]; exact Bool.false_ne_true)]
    rw [if_pos]
    rw [(hrel (path k)).2.1, h.outDegree k hk]
    exact Nat.one_ne_zero
  rw [hround]
  unfold ContGraphInfo.sortInner
  rw [h.bailout]
  rcases Nat.lt_or_eq_of_le hk with hlt | heq
  · refine Or.inl ⟨hlt, ?_⟩
    have hports : (conts (path k)).ports .acyclic .op = ⟨[⟨[path (k + 1)], 1⟩], 1⟩ := by
      rw [(hrel (path k)).1]
      exact h.links k hk
    have hnext : nextPeer conts (path k) = some (path (k + 1)) := by
      unfold nextPeer
      rw [hports]
      simp [(hrel (path (k + 1))).2.2, h.sorted (k + 1)]
    have hahead : ∀ j, k < j → (conts (path j)).graphUtils.nodeVisited = false := by
      intro j hj
      have hne : path j ≠ path k := fun heq => (Nat.ne_of_gt hj) (hpath heq)
      rw [hconts, modifyCont_of_ne hne]
      exact h.visited j hj
    rw [if_neg (Nat.not_lt.mpr hlt), hnext]
    dsimp only
    rw [hahead (k + 1) (Nat.lt_succ_self k)]
    refine ⟨_, rfl, ⟨⟨_, rfl⟩, rfl, ?_, ?_, ?_, ?_⟩⟩
    · intro j hj
      exact (congrFun (congrFun (hrel (path j)).1 _) _).trans (h.links j hj)
    · intro j hj
      exact (hrel (path j)).2.1.trans (h.outDegree j hj)
    · intro j
      exact (hrel (path j)).2.2.trans (h.sorted j)
    · intro j hj
      exact hahead j (Nat.lt_of_succ_lt hj)
  · refine Or.inr ⟨heq, ?_⟩
    rw [if_pos (by rw [heq]; exact Nat.lt_succ_self _)]
    exact ⟨_, rfl⟩

lemma OnPath.sortLoop (rounds : ℕ) (h : OnPath path k st) (hk : k ≤ apmMaxSortLoopItr)
    (hrounds : apmMaxSortLoopItr < rounds + k) :
    ∃ st', ContGraphInfo.sortLoop rounds st = some (.bailout .efailed st') := by
  induction rounds generalizing k st with
  | zero => omega
  | succ rounds ih =>
    unfold ContGraphInfo.sortLoop
    rcases h.round hpath hk with ⟨hlt, st', hround, h'⟩ | ⟨-, st', hround⟩
    · rw [hround]
      exact ih h' hlt (by omega)
    · rw [hround]
      exact ⟨st', rfl⟩

end

/-- What the count of the out-degrees leaves. -/
lemma foldl_countOutDegree (list : List Addr) (conts : Addr → Cont) (c : Addr) :
    let out := list.foldl (fun conts c => modifyCont conts c countOutDegree) conts
    (out c).ports = (conts c).ports ∧ (c ∈ list → (out c).graphUtils.outDegree =
        (countOutDegree (conts c)).graphUtils.outDegree) ∧
      (c ∉ list → out c = conts c) := by
  have hports : ∀ cont : Cont, (countOutDegree cont).ports = cont.ports := by
    intro cont
    have hall : ∀ (l : List PortConnectInfo) (start : Cont), (l.foldl
        (fun cont info => addOutDegree info.numPeers cont) start).ports = start.ports := by
      intro l
      induction l with
      | nil => exact fun _ => rfl
      | cons i l ih => exact fun start => ih _
    exact hall _ _
  have hagain : ∀ cont : Cont, (countOutDegree (countOutDegree cont)).graphUtils.outDegree =
      (countOutDegree cont).graphUtils.outDegree := by
    intro cont
    have hall : ∀ (l : List PortConnectInfo) (start start' : Cont),
        start.graphUtils.outDegree = start'.graphUtils.outDegree →
        (l.foldl (fun cont info => addOutDegree info.numPeers cont) start).graphUtils.outDegree =
          (l.foldl (fun cont info => addOutDegree info.numPeers cont)
            start').graphUtils.outDegree := by
      intro l
      induction l with
      | nil => exact fun _ _ h => h
      | cons i l ih =>
        intro start start' h
        refine ih _ _ ?_
        unfold addOutDegree
        dsimp only
        rw [h]
    unfold countOutDegree
    have hsame := hports cont
    unfold countOutDegree at hsame
    rw [hsame]
    exact hall _ _ _ rfl
  intro out
  induction list generalizing conts with
  | nil => exact ⟨rfl, fun h => absurd h not_mem_nil, fun _ => rfl⟩
  | cons a list ih =>
    obtain ⟨hp, hin, hout⟩ := ih (modifyCont conts a countOutDegree)
    have hone : (modifyCont conts a countOutDegree c).ports = (conts c).ports :=
      modifyCont_rel (R := fun cont cont' => cont'.ports = cont.ports) (fun _ => rfl) (hports _) c
    refine ⟨hp.trans hone, ?_, ?_⟩
    · intro hc
      by_cases hmem : c ∈ list
      · refine (hin hmem).trans ?_
        by_cases heq : c = a
        · subst heq
          rw [modifyCont_self]
          exact hagain _
        · rw [modifyCont_of_ne heq]
      · have heq : c = a := (mem_cons.mp hc).resolve_right hmem
        have hfix : out c = modifyCont conts a countOutDegree c := hout hmem
        rw [hfix, ← heq, modifyCont_self]
    · intro hc
      obtain ⟨hne, hmem⟩ := not_or.mp (fun h => hc (mem_cons.mpr h))
      exact (hout hmem).trans (modifyCont_of_ne hne _ _)

/-- **The sort gives up on long paths.** From the first container of the list, there is one way to
go for more than `APM_MAX_SORT_LOOP_ITR` links. -/
theorem sortContGraphProcOrder_longPath (path : ℕ → Addr)
    (hpath : Function.Injective path) (hlinks : LongPath info.conts path)
    (hin : ∀ k ≤ apmMaxSortLoopItr, path k ∈ (info.graphs g).containerList)
    (hhead : (info.graphs g).containerList.head? = some (path 0))
    (hidle : ∀ k, (info.conts (path k)).graphUtils.nodeVisited = false ∧
      (info.conts (path k)).graphUtils.nodeSorted = false) :
    (info.sortContGraphProcOrder g).1 = .efailed := by
  obtain ⟨rest, hlist⟩ := head?_eq_some_iff.mp hhead
  set list := (info.graphs g).containerList with hdef
  set start : SortState :=
    { conts := list.foldl (fun conts c => modifyCont conts c countOutDegree) info.conts
      unsorted := list, stack := [], sorted := [], bailoutCntr := 0 } with hstart
  have hquiet : QuietConts info.conts start.conts := quiet_foldl quiet_countOutDegree _ _
  have hcount := foldl_countOutDegree list info.conts
  have hfirst : OnPath path 0 { start with stack := [path 0] } := by
    refine ⟨⟨[], rfl⟩, rfl, ?_, ?_, ?_, ?_⟩
    · intro k hk
      exact (congrFun (congrFun (hcount (path k)).1 _) _).trans (hlinks k hk)
    · intro k hk
      refine ((hcount (path k)).2.1 (hin k hk)).trans ?_
      unfold countOutDegree
      rw [hlinks k hk]
      rfl
    · intro k
      exact (hquiet (path k)).nodeSorted.trans (hidle k).2
    · intro k _
      exact (hquiet (path k)).nodeVisited.trans (hidle k).1
  have hpush : sortRound start = .more { start with stack := [path 0] } := by
    unfold sortRound
    rw [hstart]
    rw [hlist]
  have hrounds : sortRounds list = (503 * list.length + 502) + 1 := rfl
  obtain ⟨st, hloop⟩ := hfirst.sortLoop hpath (503 * list.length + 502) (Nat.zero_le _)
    (by unfold apmMaxSortLoopItr; omega)
  unfold sortContGraphProcOrder
  dsimp only
  rw [← hdef, ← hstart, hrounds, ContGraphInfo.sortLoop, hpush]
  dsimp only
  rw [hloop]

end ContGraphInfo

end AudioReach
