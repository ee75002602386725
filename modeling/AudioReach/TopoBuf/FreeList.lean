import AudioReach.Library.Linked
import AudioReach.TopoBuf.Model

/-!
# The list of free buffers

What the functions of the manager do to the links of the free buffers, and that they do
nothing else.  `FreeList` is a doubly linked list between `head_node_ptr` and `last_node_ptr`;
a buffer is taken out, put in before another one, put in behind the last one, and freed at the
end.  What is not a link stays: `unlinked` is the manager without its links, and most steps
leave it alone.
-/

namespace AudioReach

open Function (update)
open Library List

namespace TopoBufMgr

variable {m : TopoBufMgr} {s t : List Addr} {x y : Addr}

/-- The node after a node. -/
def next (m : TopoBufMgr) (a : Addr) : Option Addr := (m.elems a).nextPtr

/-- The node before a node. -/
def prev (m : TopoBufMgr) (a : Addr) : Option Addr := (m.elems a).prevPtr

/-- The size of a buffer. -/
def bufSize (m : TopoBufMgr) (a : Addr) : ℕ := (m.elems a).size.toNat

/-- The manager without the links and the ends of its list. -/
def unlinked (m : TopoBufMgr) : TopoBufMgr :=
  { m with
    elems := fun a => { m.elems a with nextPtr := none, prevPtr := none }
    lastNodePtr := none
    headNodePtr := none }

/-- The free buffers, from the smallest to the largest. -/
def FreeList (m : TopoBufMgr) (free : List Addr) : Prop :=
  IsLinkedList m.next m.prev m.headNodePtr m.lastNodePtr free

/-! ## Writes to links -/

section

variable (m : TopoBufMgr) (node : Addr) (value : Option Addr)

@[simp] lemma next_setNext : (m.setNext node value).next = update m.next node value := by
  funext a
  unfold next setNext modifyElem
  by_cases h : a = node
  · subst h
    simp
  · simp [h]

@[simp] lemma prev_setNext : (m.setNext node value).prev = m.prev := by
  funext a
  unfold prev setNext modifyElem
  by_cases h : a = node
  · subst h
    simp
  · simp [h]

@[simp] lemma next_setPrev : (m.setPrev node value).next = m.next := by
  funext a
  unfold next setPrev modifyElem
  by_cases h : a = node
  · subst h
    simp
  · simp [h]

@[simp] lemma prev_setPrev : (m.setPrev node value).prev = update m.prev node value := by
  funext a
  unfold prev setPrev modifyElem
  by_cases h : a = node
  · subst h
    simp
  · simp [h]

@[simp] lemma unlinked_setNext : (m.setNext node value).unlinked = m.unlinked := by
  unfold unlinked setNext modifyElem
  congr 1
  funext a
  by_cases h : a = node
  · subst h
    simp
  · simp [h]

@[simp] lemma unlinked_setPrev : (m.setPrev node value).unlinked = m.unlinked := by
  unfold unlinked setPrev modifyElem
  congr 1
  funext a
  by_cases h : a = node
  · subst h
    simp
  · simp [h]

@[simp] lemma setNext_headNodePtr : (m.setNext node value).headNodePtr = m.headNodePtr := rfl

@[simp] lemma setPrev_headNodePtr : (m.setPrev node value).headNodePtr = m.headNodePtr := rfl

end

lemma setNext?_spec (m : TopoBufMgr) (node value : Option Addr) :
    (m.setNext? node value).next = relink m.next node value ∧
      (m.setNext? node value).prev = m.prev ∧
      (m.setNext? node value).unlinked = m.unlinked ∧
      (m.setNext? node value).headNodePtr = m.headNodePtr ∧
      (m.setNext? node value).lastNodePtr = m.lastNodePtr := by
  cases node with
  | none => exact ⟨rfl, rfl, rfl, rfl, rfl⟩
  | some node => exact ⟨next_setNext m node value, prev_setNext m node value,
      unlinked_setNext m node value, rfl, rfl⟩

lemma setPrev?_spec (m : TopoBufMgr) (node value : Option Addr) :
    (m.setPrev? node value).next = m.next ∧
      (m.setPrev? node value).prev = relink m.prev node value ∧
      (m.setPrev? node value).unlinked = m.unlinked ∧
      (m.setPrev? node value).headNodePtr = m.headNodePtr ∧
      (m.setPrev? node value).lastNodePtr = m.lastNodePtr := by
  cases node with
  | none => exact ⟨rfl, rfl, rfl, rfl, rfl⟩
  | some node => exact ⟨next_setPrev m node value, prev_setPrev m node value,
      unlinked_setPrev m node value, rfl, rfl⟩

/-! ## Taking out and putting in -/

/-- A free buffer is taken out of the list. -/
lemma FreeList.removeNode (h : m.FreeList (s ++ x :: t)) :
    let m' := m.removeNodeFromListOnly x
    m'.next = relink m.next s.getLast? t.head? ∧ m'.prev = relink m.prev t.head? s.getLast? ∧
      m'.next x = t.head? ∧ m'.prev x = s.getLast? ∧ m'.unlinked = m.unlinked ∧
      m'.headNodePtr = m.headNodePtr ∧ m'.lastNodePtr = m.lastNodePtr := by
  obtain ⟨hprev, hnext⟩ := h.links
  have hnodup := nodup_middle.mp h.nodup
  have hx : x ∉ s ++ t := (nodup_cons.mp hnodup).1
  unfold removeNodeFromListOnly
  have hp : (m.elems x).prevPtr = s.getLast? := hprev
  have hn : (m.elems x).nextPtr = t.head? := hnext
  rw [hp, hn]
  obtain ⟨hn₁, hp₁, hu₁, hh₁, hl₁⟩ := m.setNext?_spec s.getLast? t.head?
  obtain ⟨hn₂, hp₂, hu₂, hh₂, hl₂⟩ := (m.setNext? s.getLast? t.head?).setPrev?_spec t.head? s.getLast?
  refine ⟨hn₂.trans hn₁, by rw [hp₂, hp₁], ?_, ?_, hu₂.trans hu₁, hh₂.trans hh₁, hl₂.trans hl₁⟩
  · rw [hn₂, hn₁, relink_of_ne]
    · exact hnext
    · intro heq
      exact hx (mem_append_left t (mem_of_getLast? heq))
  · rw [hp₂, hp₁, relink_of_ne]
    · exact hprev
    · intro heq
      exact hx (mem_append_right s (mem_of_mem_head? heq))

/-- The manager in which a free buffer is marked as used. -/
def markUsed (m : TopoBufMgr) (node : Addr) : TopoBufMgr :=
  let m := m.modifyElem node fun e => { e with unusedCount := 0, refCount := 1 }
  { m with numUsedBuffers := m.numUsedBuffers + 1 }

lemma next_markUsed (m : TopoBufMgr) (node : Addr) : (m.markUsed node).next = m.next := by
  funext a
  unfold next markUsed modifyElem
  by_cases h : a = node
  · subst h
    simp
  · simp [h]

lemma prev_markUsed (m : TopoBufMgr) (node : Addr) : (m.markUsed node).prev = m.prev := by
  funext a
  unfold prev markUsed modifyElem
  by_cases h : a = node
  · subst h
    simp
  · simp [h]

/-- **A buffer is taken.** The list goes on without it and everything else stays, but for the
marks of the buffer. -/
theorem FreeList.takeNode (h : m.FreeList (s ++ x :: t)) :
    (m.takeNode x).FreeList (s ++ t) ∧ (m.takeNode x).unlinked = (m.markUsed x).unlinked := by
  set m₁ := m.modifyElem x fun e => { e with unusedCount := 0, refCount := 1 } with hm₁
  have h₁ : m₁.FreeList (s ++ x :: t) := by
    have hnext := next_markUsed m x
    have hprev := prev_markUsed m x
    change IsLinkedList (m.markUsed x).next (m.markUsed x).prev m.headNodePtr m.lastNodePtr _
    rw [hnext, hprev]
    exact h
  obtain ⟨hnext, hprev, hnx, hpx, hun, hhead, hlast⟩ := h₁.removeNode
  set m₂ := m₁.removeNodeFromListOnly x with hm₂
  have htake : m.takeNode x = { m₂ with
      headNodePtr := if s.getLast? = none then t.head? else m₂.headNodePtr
      lastNodePtr := if t.head? = none then s.getLast? else m₂.lastNodePtr
      numUsedBuffers := m₂.numUsedBuffers + 1 } := by
    unfold TopoBufMgr.takeNode
    dsimp only
    have hn : (m₂.elems x).nextPtr = t.head? := hnx
    have hp : (m₂.elems x).prevPtr = s.getLast? := hpx
    rw [hp]
    by_cases hs : s.getLast? = none
    · rw [if_pos hs, if_pos hs]
      by_cases ht : t.head? = none
      · rw [if_pos (by exact hn.trans ht), if_pos ht]
        rw [hn, hp]
      · rw [if_neg (by rw [← hn] at ht; exact ht), if_neg ht, hn]
    · rw [if_neg hs, if_neg hs]
      by_cases ht : t.head? = none
      · rw [if_pos (by exact hn.trans ht), if_pos ht]
        rw [hp]
      · rw [if_neg (by rw [← hn] at ht; exact ht), if_neg ht]
  have hfirst : (if s.getLast? = none then t.head? else m₂.headNodePtr) = (s ++ t).head? := by
    rw [hhead, h₁.head_eq]
    cases s with
    | nil => simp
    | cons a s => simp
  have hend : (if t.head? = none then s.getLast? else m₂.lastNodePtr) = (s ++ t).getLast? := by
    rw [hlast, h₁.last_eq]
    rcases t.eq_nil_or_concat with rfl | ⟨t, z, rfl⟩
    · simp
    · simp [getLast?_append, getLast?_cons]
  constructor
  · rw [htake]
    change IsLinkedList m₂.next m₂.prev _ _ _
    rw [hnext, hprev]
    exact h₁.remove hfirst hend
  · rw [htake]
    have hcongr := congrArg (fun m => { m with numUsedBuffers := m.numUsedBuffers + 1 }) hun
    exact hcongr

/-- **A buffer is put in before another one.** -/
theorem FreeList.insertBeforeNode (h : m.FreeList (s ++ y :: t)) (hx : x ∉ s ++ y :: t) :
    (m.insertBeforeNode x y).FreeList (s ++ x :: y :: t) ∧
      (m.insertBeforeNode x y).unlinked = m.unlinked := by
  have hprev : m.prev y = s.getLast? := h.links.1
  have hne : y ≠ x := by
    rintro rfl
    exact hx (by simp)
  have hys : y ∉ s := fun hmem =>
    (nodup_cons.mp (nodup_middle.mp h.nodup)).1 (mem_append_left t hmem)
  set m₁ := m.setNext x (some y) with hm₁
  set m₂ := m₁.setPrev x s.getLast? with hm₂
  obtain ⟨hn₃, hp₃, hu₃, hh₃, hl₃⟩ := m₂.setNext?_spec s.getLast? (some x)
  set m₃ := m₂.setNext? s.getLast? (some x) with hm₃
  have hinsert : m.insertBeforeNode x y =
      { m₃.setPrev y (some x) with
        headNodePtr := if m₃.headNodePtr = some y then some x else m₃.headNodePtr } := by
    have hy₁ : (m₁.elems y).prevPtr = s.getLast? := by
      have hsame := congrFun (prev_setNext m x (some y)) y
      exact hsame.trans hprev
    have hy₂ : (m₂.elems y).prevPtr = s.getLast? := by
      have hsame := congrFun (prev_setPrev m₁ x s.getLast?) y
      rw [Function.update_of_ne hne] at hsame
      exact hsame.trans hy₁
    unfold TopoBufMgr.insertBeforeNode
    dsimp only
    rw [← hm₁, hy₁, ← hm₂, hy₂, ← hm₃, setPrev_headNodePtr]
    split_ifs <;> rfl
  have hnext : (m₃.setPrev y (some x)).next =
      relink (update m.next x (y :: t).head?) s.getLast? (some x) := by
    rw [next_setPrev, hn₃, hm₂, next_setPrev, hm₁, next_setNext]
    rfl
  have hprev' : (m₃.setPrev y (some x)).prev =
      relink (update m.prev x s.getLast?) (y :: t).head? (some x) := by
    rw [prev_setPrev, hp₃, hm₂, prev_setPrev, hm₁, prev_setNext]
    rfl
  have hfirst : (if m₃.headNodePtr = some y then some x else m₃.headNodePtr) =
      (s ++ x :: y :: t).head? := by
    rw [hh₃]
    change (if m.headNodePtr = some y then some x else m.headNodePtr) = _
    rw [h.head_eq]
    cases s with
    | nil => simp
    | cons a s =>
      have hay : a ≠ y := fun heq => hys (heq ▸ mem_cons_self)
      simp [hay]
  have hend : m₃.lastNodePtr = (s ++ x :: y :: t).getLast? := by
    rw [hl₃]
    change m.lastNodePtr = _
    rw [h.last_eq]
    simp [getLast?_append, getLast?_cons]
  rw [hinsert]
  constructor
  · change IsLinkedList (m₃.setPrev y (some x)).next (m₃.setPrev y (some x)).prev _
      m₃.lastNodePtr _
    rw [hnext, hprev']
    exact h.insert hx hfirst hend
  · change (m₃.setPrev y (some x)).unlinked = m.unlinked
    rw [unlinked_setPrev, hu₃, hm₂, unlinked_setPrev, hm₁, unlinked_setNext]

/-- The manager with a node behind the last one. -/
def insertBehind (m : TopoBufMgr) (last node : Addr) : TopoBufMgr :=
  { ((m.setNext last (some node)).setNext node none).setPrev node (some last) with
    lastNodePtr := some node }

/-- **A buffer is put in behind the last one.** -/
theorem FreeList.insertBehind (h : m.FreeList (s ++ [y])) (hx : x ∉ s ++ [y]) :
    (m.insertBehind y x).FreeList (s ++ [y, x]) ∧ (m.insertBehind y x).unlinked = m.unlinked := by
  have hne : y ≠ x := by
    rintro rfl
    exact hx (by simp)
  set m' := ((m.setNext y (some x)).setNext x none).setPrev x (some y) with hm'
  have hnext : m'.next = relink (update m.next x ([] : List Addr).head?) (s ++ [y]).getLast?
      (some x) := by
    rw [hm', next_setPrev, next_setNext, next_setNext, getLast?_concat]
    exact Function.update_comm hne _ _ _
  have hprev : m'.prev = relink (update m.prev x (s ++ [y]).getLast?) ([] : List Addr).head?
      (some x) := by
    rw [hm', prev_setPrev, prev_setNext, prev_setNext, getLast?_concat]
    rfl
  constructor
  · have hlist : IsLinkedList m.next m.prev m.headNodePtr m.lastNodePtr (s ++ [y] ++ []) := by
      rw [append_nil]
      exact h
    have hfirst : m.headNodePtr = (s ++ [y] ++ x :: []).head? := by
      rw [h.head_eq]
      cases s <;> simp
    have hnew := hlist.insert (by simpa using hx) hfirst (getLast?_concat).symm
    rw [← hnext, ← hprev, append_assoc] at hnew
    exact hnew
  · change m'.unlinked = m.unlinked
    rw [hm', unlinked_setPrev, unlinked_setNext, unlinked_setNext]

/-- **The first free buffer.** -/
theorem FreeList.pushNode (h : m.FreeList []) (x : Addr) :
    { m.pushNode x with lastNodePtr := some x }.FreeList [x] ∧
      { m.pushNode x with lastNodePtr := some x }.unlinked = m.unlinked ∧
      (m.pushNode x).next x = none := by
  have hhead : m.headNodePtr = none := h.head_eq
  have hpush : m.pushNode x =
      { (m.setNext x none).setPrev x none with headNodePtr := some x } := by
    unfold TopoBufMgr.pushNode
    dsimp only
    rw [setPrev_headNodePtr, setNext_headNodePtr, hhead]
    rfl
  rw [hpush]
  refine ⟨?_, ?_, ?_⟩
  · have hnew := (IsLinkedList.insert (s := []) h not_mem_nil (x := x) (by rfl) (by rfl))
    change IsLinkedList ((m.setNext x none).setPrev x none).next
      ((m.setNext x none).setPrev x none).prev (some x) (some x) [x]
    rw [next_setPrev, next_setNext, prev_setPrev, prev_setNext]
    exact hnew
  · change ((m.setNext x none).setPrev x none).unlinked = m.unlinked
    rw [unlinked_setPrev, unlinked_setNext]
  · change ((m.setNext x none).setPrev x none).next x = none
    rw [next_setPrev, next_setNext, Function.update_self]

/-- The manager without the last buffer of its list. -/
def freed (m : TopoBufMgr) (last : Addr) : TopoBufMgr :=
  { m with
    currentMemoryAllocated := m.currentMemoryAllocated - (m.elems last).size
    totalNumBufsAllocated := m.totalNumBufsAllocated - 1
    heap := m.heap.eraseP fun block => block.1 = last }

/-- **The last buffer is freed.** -/
theorem FreeList.destroyLast (h : m.FreeList (s ++ [x])) :
    (m.destroyLast x).FreeList s ∧ (m.destroyLast x).unlinked = (m.freed x).unlinked := by
  have hprev : (m.elems x).prevPtr = s.getLast? := h.links.1
  have hsize : ∀ node, ((m.setNext node none).elems x).size = (m.elems x).size := fun node =>
    congrArg (fun m => (m.elems x).size) (unlinked_setNext m node none)
  have hrule := IsLinkedList.remove h (by rw [append_nil]) (by rw [append_nil])
  rw [append_nil] at hrule
  unfold TopoBufMgr.destroyLast
  dsimp only
  rw [hprev]
  rcases s.eq_nil_or_concat with rfl | ⟨s, z, rfl⟩
  · exact ⟨IsLinkedList.nil, rfl⟩
  · rw [concat_eq_append] at *
    rw [getLast?_concat] at hrule ⊢
    constructor
    · change IsLinkedList (m.setNext z none).next (m.setNext z none).prev m.headNodePtr (some z) _
      rw [next_setNext, prev_setNext, h.head_eq]
      have hfirst : (s ++ [z] ++ [x]).head? = (s ++ [z]).head? := by
        cases s <;> simp
      rw [hfirst]
      exact hrule
    · rw [hsize]
      have hcongr := congrArg (fun m' => { m' with
        currentMemoryAllocated := m'.currentMemoryAllocated - (m.elems x).size
        totalNumBufsAllocated := m'.totalNumBufsAllocated - 1
        heap := m'.heap.eraseP fun block => block.1 = x }) (unlinked_setNext m z none)
      exact hcongr

end TopoBufMgr

end AudioReach
