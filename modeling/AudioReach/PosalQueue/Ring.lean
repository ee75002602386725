import AudioReach.PosalQueue.Model
import AudioReach.Library.Ring

/-!
# The ring of a queue

`Shape` says which nodes of the ring are in use: the ring, read from the head, is the list of
the active nodes followed by the idle ones, the head is its first node and the tail its last
active one.  An empty queue keeps both ends at one idle node, the first one to be used next.

Each operation moves the border between the two lists or turns the ring by one node: a push
takes the idle node at its end of the active list, or a new one when there is none, and a pop
gives a node back at the same end.
-/

namespace AudioReach

open Function (update_of_ne update_self)
open Library List

variable {E : Type}

lemma toInt16_of_le {z : ℤ} (h0 : 0 ≤ z) (h : z ≤ 32767) : toInt16 z = z := by
  apply Int.bmod_eq_of_le <;> omega

/-- The ring of the queue read from its head: first the active nodes, then the idle ones. -/
structure Shape (q : PosalQueue) (m : QueueNodes E) (active idle : List Addr) : Prop where
  isRing : IsRing m.nextPtr m.prevPtr (active ++ idle)
  old : ∀ n ∈ active ++ idle, n < m.fresh
  head : ∀ a ∈ (active ++ idle).head?, q.activeHeadPtr = a
  /-- The active nodes end with the tail; it is the first idle node if there are none. -/
  tail : ∀ z ∈ active.getLast?.or idle.head?, q.activeTailPtr = z
  numNodes : q.numNodes = (active ++ idle).length

/-! ## Linking a node in -/

namespace QueueNodes

lemma linkBefore_eq_linkAfter {m : QueueNodes E} {a z n : Addr} (hnext : m.nextPtr z = a)
    (hprev : m.prevPtr a = z) (hzn : z ≠ n) (han : a ≠ n) : m.linkBefore a n = m.linkAfter z n := by
  simp only [linkBefore, linkAfter, setNext, setPrev, update_of_ne hzn,
    update_of_ne han, hnext, hprev]

section

variable {m : QueueNodes E} {s t : List Addr} {a z n : Addr}
  (h : IsRing m.nextPtr m.prevPtr (a :: t)) (hends : a :: t = s ++ [z]) (hn : n ∉ a :: t)
include h hends hn

lemma isRing_linkAfter :
    IsRing (m.linkAfter z n).nextPtr (m.linkAfter z n).prevPtr (a :: t ++ [n]) := by
  obtain ⟨hnext, _⟩ := h.ends hends
  have hne : ∀ x ∈ a :: t, x ≠ n := fun x hx hxn => hn (hxn ▸ hx)
  have hzn : z ≠ n := hne z (by simp [hends])
  have han : a ≠ n := hne a mem_cons_self
  simp only [linkAfter, setNext, setPrev, update_of_ne hzn, hnext]
  apply h.insert hends hn
  · rw [update_of_ne hzn.symm, update_self]
  · rw [update_of_ne han.symm, update_self]
  · rw [update_self]
  · rw [update_self]
  · intro x hx hxz
    rw [update_of_ne hxz, update_of_ne (hne x hx)]
  · intro x hx hxa
    rw [update_of_ne hxa, update_of_ne (hne x hx)]

lemma isRing_linkBefore :
    IsRing (m.linkBefore a n).nextPtr (m.linkBefore a n).prevPtr (n :: a :: t) := by
  obtain ⟨hnext, hprev⟩ := h.ends hends
  have hne : ∀ x ∈ a :: t, x ≠ n := fun x hx hxn => hn (hxn ▸ hx)
  rw [linkBefore_eq_linkAfter hnext hprev (hne z (by simp [hends])) (hne a mem_cons_self)]
  exact (isRing_linkAfter h hends hn).unshift

end

lemma isRing_linkSelf (m : QueueNodes E) (n : Addr) :
    IsRing (m.linkSelf n).nextPtr (m.linkSelf n).prevPtr [n] :=
  IsRing.singleton (update_self ..) (update_self ..)

@[simp] lemma linkSelf_fresh (m : QueueNodes E) (n : Addr) : (m.linkSelf n).fresh = m.fresh := rfl

end QueueNodes

/-- Finding the place for a push changes the ring only. -/
structure Placed (w w' : QueueWorld E) : Prop where
  elem : w'.nodes.elem = w.nodes.elem
  channels : w'.channels = w.channels
  queue : w'.queue = { w.queue with
    activeHeadPtr := w'.queue.activeHeadPtr
    activeTailPtr := w'.queue.activeTailPtr
    numNodes := w'.queue.numNodes }

namespace QueueWorld

variable {w w' : QueueWorld E} {allocated : Bool}

lemma placeBack_placed (h : w.placeBack allocated = some w') : Placed w w' := by
  unfold placeBack QueueNodes.createNode addIdleNode at h
  split_ifs at h <;> cases h <;> exact ⟨rfl, rfl, rfl⟩

lemma placeFront_placed (h : w.placeFront allocated = some w') : Placed w w' := by
  unfold placeFront QueueNodes.createNode at h
  split_ifs at h <;> cases h <;> exact ⟨rfl, rfl, rfl⟩

end QueueWorld

namespace Shape

variable {w w' : QueueWorld E} {active idle : List Addr}

section

variable {q : PosalQueue} {m : QueueNodes E} (h : Shape q m active idle)
include h

lemma fresh_notMem : m.fresh ∉ active ++ idle :=
  fun hmem => Nat.lt_irrefl _ (h.old _ hmem)

lemma numNodes_eq_zero_iff : q.numNodes = 0 ↔ active ++ idle = [] := by
  rw [h.numNodes, Int.natCast_eq_zero, length_eq_zero_iff]

lemma activeNodes_eq_numNodes_iff (hactive : q.activeNodes = active.length) :
    q.activeNodes = q.numNodes ↔ idle = [] := by
  rw [h.numNodes, hactive, length_append, ← length_eq_zero_iff]
  omega

end

lemma exists_ends {l : List Addr} (hne : l ≠ []) : ∃ a t s z, l = a :: t ∧ a :: t = s ++ [z] := by
  obtain ⟨a, t, rfl⟩ := exists_cons_of_ne_nil hne
  obtain hnil | ⟨s, z, hz⟩ := eq_nil_or_concat' (a :: t)
  · exact absurd hnil (cons_ne_nil a t)
  · exact ⟨a, t, s, z, rfl, hz⟩

lemma nil {q : PosalQueue} {m : QueueNodes E} (hzero : q.numNodes = 0) : Shape q m [] [] :=
  ⟨IsRing.nil, by simp, by simp, by simp, by simp [hzero]⟩

lemma first (q : PosalQueue) (m : QueueNodes E) :
    Shape { q with activeHeadPtr := m.fresh, activeTailPtr := m.fresh, numNodes := 1 }
      ({ m with fresh := m.fresh + 1 }.linkSelf m.fresh) [m.fresh] [] where
  isRing := QueueNodes.isRing_linkSelf _ _
  old := by simp
  head := by simp
  tail := by simp
  numNodes := by simp

section

variable {q : PosalQueue} {m : QueueNodes E} {n : ℤ} (h : Shape q m active []) (hne : active ≠ [])
  (hn : n = active.length + 1)
include h hne hn

/-- With all nodes in use, a new one linked in after the tail goes to the back. -/
lemma grow_back : Shape { q with activeTailPtr := m.fresh, numNodes := n }
      ({ m with fresh := m.fresh + 1 }.linkAfter q.activeTailPtr m.fresh)
      (active ++ [m.fresh]) [] := by
  obtain ⟨a, t, s, z, rfl, hends⟩ := exists_ends hne
  have hfresh := h.fresh_notMem
  have htail : q.activeTailPtr = z := h.tail z (by simp [hends])
  have hring := h.isRing
  have hold := h.old
  simp only [append_nil] at hfresh hring hold
  refine ⟨?_, ?_, ?_, ?_, ?_⟩
  · rw [htail, append_nil]
    exact QueueNodes.isRing_linkAfter hring hends hfresh
  · intro x hx
    simp only [append_nil, mem_append, mem_singleton] at hx
    rcases hx with hx | rfl
    · exact Nat.lt_succ_of_lt (hold x hx)
    · exact Nat.lt_succ_self _
  · intro x hx
    exact h.head x (by simpa using hx)
  · intro x hx
    rw [getLast?_concat] at hx
    exact Option.some_inj.mp hx
  · simp [hn]

/-- With all nodes in use, a new one linked in before the head goes to the front. -/
lemma grow_front : Shape { q with activeHeadPtr := m.fresh, numNodes := n }
      ({ m with fresh := m.fresh + 1 }.linkBefore q.activeHeadPtr m.fresh)
      (m.fresh :: active) [] := by
  obtain ⟨a, t, s, z, rfl, hends⟩ := exists_ends hne
  have hfresh := h.fresh_notMem
  have hhead : q.activeHeadPtr = a := h.head a (by simp)
  have hring := h.isRing
  have hold := h.old
  simp only [append_nil] at hfresh hring hold
  refine ⟨?_, ?_, ?_, ?_, ?_⟩
  · rw [hhead, append_nil]
    exact QueueNodes.isRing_linkBefore hring hends hfresh
  · intro x hx
    simp only [append_nil, mem_cons] at hx
    rcases hx with rfl | hx
    · exact Nat.lt_succ_self _
    · exact Nat.lt_succ_of_lt (hold x (mem_cons.mpr hx))
  · simp
  · intro x hx
    exact h.tail x (by simpa using hx)
  · simp [hn]

end

lemma advance_tail {q : PosalQueue} {m : QueueNodes E} {i : Addr}
    (h : Shape q m active (i :: idle)) (hne : active ≠ []) :
    Shape { q with activeTailPtr := m.nextPtr q.activeTailPtr } m (active ++ [i]) idle := by
  obtain ⟨a, t, s, z, rfl, hends⟩ := exists_ends hne
  have htail : q.activeTailPtr = z := h.tail z (by simp [hends])
  have hnext : m.nextPtr z = i := by
    have hring := h.isRing
    rw [hends, append_assoc] at hring
    exact hring.adjacent.1
  refine ⟨by simpa using h.isRing, by simpa using h.old, by simpa using h.head, ?_, ?_⟩
  · intro x hx
    rw [getLast?_concat] at hx
    rw [← Option.some_inj.mp hx, htail, hnext]
  · simp [h.numNodes]

/-- The node before the head becomes the first active one. -/
lemma advance_head {q : PosalQueue} {m : QueueNodes E} {i : Addr}
    (h : Shape q m active (idle ++ [i])) (hne : active ≠ []) :
    Shape { q with activeHeadPtr := m.prevPtr q.activeHeadPtr } m (i :: active) idle := by
  obtain ⟨a, t, s, z, rfl, hends⟩ := exists_ends hne
  have hhead : q.activeHeadPtr = a := h.head a (by simp)
  have hlast : (a :: t).getLast? = some z := by rw [hends, getLast?_concat]
  have hring : IsRing m.nextPtr m.prevPtr (a :: (t ++ idle ++ [i])) := by simpa using h.isRing
  have hprev : m.prevPtr a = i :=
    (hring.ends (show a :: (t ++ idle ++ [i]) = (a :: t ++ idle) ++ [i] by simp)).2
  refine ⟨?_, ?_, ?_, ?_, ?_⟩
  · have hturned : IsRing m.nextPtr m.prevPtr (a :: t ++ idle ++ [i]) := by simpa using hring
    simpa using hturned.unshift
  · intro x hx
    apply h.old
    simp only [cons_append, mem_cons, mem_append, not_mem_nil] at hx ⊢
    tauto
  · simp [hhead, hprev]
  · intro x hx
    apply h.tail
    simpa [getLast?_cons_cons, hlast] using hx
  · simp only [h.numNodes, length_append, length_cons, length_nil]
    omega

lemma start {q : PosalQueue} {m : QueueNodes E} {i : Addr} (h : Shape q m [] (i :: idle)) :
    Shape q m [i] idle :=
  ⟨h.isRing, h.old, h.head, h.tail, h.numNodes⟩

lemma stop {q : PosalQueue} {m : QueueNodes E} {i : Addr} (h : Shape q m [i] idle) :
    Shape q m [] (i :: idle) :=
  ⟨h.isRing, h.old, h.head, h.tail, h.numNodes⟩

lemma retreat_head {q : PosalQueue} {m : QueueNodes E} {a b : Addr} {t : List Addr}
    (h : Shape q m (a :: b :: t) idle) :
    Shape { q with activeHeadPtr := m.nextPtr q.activeHeadPtr } m (b :: t) (idle ++ [a]) := by
  obtain ⟨s, z, hends⟩ := (eq_nil_or_concat' (b :: t)).resolve_left (cons_ne_nil b t)
  have hhead : q.activeHeadPtr = a := h.head a (by simp)
  have hlast : (b :: t).getLast? = some z := by rw [hends, getLast?_concat]
  have hring : IsRing m.nextPtr m.prevPtr (a :: (b :: t ++ idle)) := by simpa using h.isRing
  have hnext : m.nextPtr a = b := (IsRing.adjacent (s := []) hring).1
  refine ⟨?_, ?_, ?_, ?_, ?_⟩
  · simpa using hring.shift
  · intro x hx
    apply h.old
    simp only [cons_append, mem_cons, mem_append, not_mem_nil] at hx ⊢
    tauto
  · simp [hhead, hnext]
  · intro x hx
    apply h.tail
    simpa [getLast?_cons_cons, hlast] using hx
  · simp only [h.numNodes, length_append, length_cons, length_nil]
    omega

lemma retreat_tail {q : PosalQueue} {m : QueueNodes E} {y z : Addr} {s : List Addr}
    (h : Shape q m (s ++ [y] ++ [z]) idle) :
    Shape { q with activeTailPtr := m.prevPtr q.activeTailPtr } m (s ++ [y]) (z :: idle) := by
  have htail : q.activeTailPtr = z := h.tail z (by simp)
  have hring : IsRing m.nextPtr m.prevPtr (s ++ y :: z :: idle) := by simpa using h.isRing
  have hprev : m.prevPtr z = y := hring.adjacent.2
  refine ⟨by simpa using hring, by simpa using h.old, by simpa using h.head, ?_, ?_⟩
  · simp [htail, hprev]
  · simp [h.numNodes]

/-! ## The place for a push -/

section

variable {allocated : Bool} (h : Shape w.queue w.nodes active idle)
  (hactive : w.queue.activeNodes = active.length)
include h hactive

lemma placeBack_eq_none_iff : w.placeBack allocated = none ↔ idle = [] ∧ allocated = false := by
  rw [← h.activeNodes_eq_numNodes_iff hactive]
  unfold QueueWorld.placeBack QueueNodes.createNode
  by_cases hfull : w.queue.activeNodes = w.queue.numNodes
  · cases allocated <;> simp [hfull]
  · rw [if_neg hfull]
    split <;> simp [hfull]

lemma placeFront_eq_none_iff : w.placeFront allocated = none ↔ idle = [] ∧ allocated = false := by
  rw [← h.activeNodes_eq_numNodes_iff hactive]
  unfold QueueWorld.placeFront QueueNodes.createNode
  by_cases hfull : w.queue.activeNodes = w.queue.numNodes
  · cases allocated with
    | false => simp [hfull]
    | true =>
      simp only [hfull, if_true]
      split <;> simp
  · rw [if_neg hfull]
    split <;> simp [hfull]

/-- A push at the back finds its place after the active nodes. -/
lemma placeBack (hroom : active.length < 32767) (hplace : w.placeBack allocated = some w') :
    ∃ node idle', Shape w'.queue w'.nodes (active ++ [node]) idle' ∧
      idle'.length = idle.length - 1 := by
  have hfull := h.activeNodes_eq_numNodes_iff hactive
  unfold QueueWorld.placeBack at hplace
  cases idle with
  | nil =>
    have hnum : w.queue.numNodes = active.length := by simpa using h.numNodes
    have hcount : toInt16 (w.queue.numNodes + 1) = active.length + 1 := by
      rw [hnum]
      exact toInt16_of_le (by omega) (by omega)
    rw [if_pos (hfull.mpr rfl)] at hplace
    cases allocated with
    | false => simp [QueueNodes.createNode] at hplace
    | true =>
      simp only [QueueNodes.createNode, if_true, Option.some_inj] at hplace
      subst hplace
      by_cases hne : active = []
      · subst hne
        have hzero : w.queue.numNodes = 0 := by simpa using hnum
        refine ⟨w.nodes.fresh, [], ?_, rfl⟩
        simp only [QueueWorld.addIdleNode, hzero, if_true, nil_append]
        exact first w.queue w.nodes
      · have hzero : w.queue.numNodes ≠ 0 := by
          rw [Ne, h.numNodes_eq_zero_iff]
          simpa using hne
        refine ⟨w.nodes.fresh, [], ?_, rfl⟩
        simp only [QueueWorld.addIdleNode, hzero, if_false]
        exact h.grow_back hne hcount
  | cons i idle =>
    rw [if_neg (fun heq => cons_ne_nil i idle (hfull.mp heq))] at hplace
    by_cases hne : active = []
    · subst hne
      rw [if_neg (by simp [hactive])] at hplace
      cases hplace
      exact ⟨i, idle, h.start, rfl⟩
    · have hpos : 0 < w.queue.activeNodes := by
        rw [hactive, Int.natCast_pos]
        exact length_pos_of_ne_nil hne
      rw [if_pos hpos] at hplace
      cases hplace
      exact ⟨i, idle, h.advance_tail hne, rfl⟩

/-- A push at the front finds its place before the active nodes. -/
lemma placeFront (hroom : active.length < 32767) (hplace : w.placeFront allocated = some w') :
    ∃ node idle', Shape w'.queue w'.nodes (node :: active) idle' ∧
      idle'.length = idle.length - 1 := by
  have hfull := h.activeNodes_eq_numNodes_iff hactive
  unfold QueueWorld.placeFront at hplace
  by_cases hidle : idle = []
  · subst hidle
    have hnum : w.queue.numNodes = active.length := by simpa using h.numNodes
    have hcount : toInt16 (w.queue.numNodes + 1) = active.length + 1 := by
      rw [hnum]
      exact toInt16_of_le (by omega) (by omega)
    rw [if_pos (hfull.mpr rfl)] at hplace
    cases allocated with
    | false => simp [QueueNodes.createNode] at hplace
    | true =>
      simp only [QueueNodes.createNode, if_true] at hplace
      by_cases hne : active = []
      · subst hne
        rw [if_pos (by simpa using hnum)] at hplace
        cases hplace
        refine ⟨w.nodes.fresh, [], ?_, rfl⟩
        rw [hcount]
        exact first w.queue w.nodes
      · have hzero : w.queue.numNodes ≠ 0 := by
          rw [Ne, h.numNodes_eq_zero_iff]
          simpa using hne
        rw [if_neg hzero] at hplace
        cases hplace
        exact ⟨w.nodes.fresh, [], h.grow_front hne hcount, rfl⟩
  · rw [if_neg (fun heq => hidle (hfull.mp heq))] at hplace
    by_cases hne : active = []
    · subst hne
      obtain ⟨i, idle, rfl⟩ := exists_cons_of_ne_nil hidle
      rw [if_neg (by simp [hactive])] at hplace
      cases hplace
      exact ⟨i, idle, h.start, rfl⟩
    · obtain ⟨idle, i, rfl⟩ := (eq_nil_or_concat' idle).resolve_left hidle
      have hpos : 0 < w.queue.activeNodes := by
        rw [hactive, Int.natCast_pos]
        exact length_pos_of_ne_nil hne
      rw [if_pos hpos] at hplace
      cases hplace
      exact ⟨i, idle, h.advance_head hne, by simp⟩

end

/-! ## Preallocation -/

/-- A preallocated node is idle. -/
lemma addIdleNode (h : Shape w.queue w.nodes [] idle) (hroom : idle.length < 32767) :
    ∃ idle', idle'.length = idle.length + 1 ∧
      Shape (w.addIdleNode w.nodes.fresh { w.nodes with fresh := w.nodes.fresh + 1 }).queue
        (w.addIdleNode w.nodes.fresh { w.nodes with fresh := w.nodes.fresh + 1 }).nodes [] idle' := by
  have hcount : toInt16 (w.queue.numNodes + 1) = idle.length + 1 := by
    rw [h.numNodes, nil_append]
    exact toInt16_of_le (by omega) (by omega)
  cases idle with
  | nil =>
    have hzero : w.queue.numNodes = 0 := by simpa using h.numNodes
    refine ⟨[w.nodes.fresh], rfl, ?_⟩
    simp only [QueueWorld.addIdleNode, hzero, if_true]
    exact (first w.queue w.nodes).stop
  | cons i idle =>
    have hzero : w.queue.numNodes ≠ 0 := by
      rw [Ne, h.numNodes_eq_zero_iff]
      simp
    have htail : w.queue.activeTailPtr = i := h.tail i (by simp)
    have hfresh := h.fresh_notMem
    obtain ⟨a, t, s, z, hat, hends⟩ := exists_ends (show idle ++ [i] ≠ [] by simp)
    obtain ⟨rfl, hzi⟩ := append_inj' (hat.trans hends) rfl
    obtain rfl := singleton_inj.mp hzi
    refine ⟨i :: w.nodes.fresh :: idle, by simp, ?_⟩
    simp only [QueueWorld.addIdleNode, hzero, if_false, htail]
    have hring := h.isRing.shift
    have hnew : w.nodes.fresh ∉ a :: t := by
      rw [← hat]
      simpa [and_comm, or_comm] using hfresh
    rw [hat] at hring
    refine ⟨?_, ?_, by simpa using h.head, by simp, ?_⟩
    · have hgrown := (QueueNodes.isRing_linkAfter
        (m := { w.nodes with fresh := w.nodes.fresh + 1 }) hring hends hnew).rotate idle.length
      rw [← hat, append_assoc] at hgrown
      simpa using hgrown
    · intro x hx
      simp only [nil_append, mem_cons] at hx
      rcases hx with rfl | rfl | hx
      · exact Nat.lt_succ_of_lt (h.old _ (by simp))
      · exact Nat.lt_succ_self _
      · exact Nat.lt_succ_of_lt (h.old _ (by simp [hx]))
    · simp [hcount]

end Shape

end AudioReach
