import AudioReach.Library.RingStream

/-!
# The queue of the module loader

A queue keeps at most `max_elements` elements in a ring.  Only the location of the next push and the
number of elements are kept, the location of the next pop is computed from them.  What a queue is
for is said by two logs: the elements that were pushed, and those that pops returned, in order.
-/

namespace AudioReach

open Function (update)
open Library List

/-- `amdb_queue_t`, with what was pushed and popped so far. -/
structure AmdbQueue (α : Type) where
  /-- The elements, from `data_ptr` on. -/
  data : ℕ → α
  pushLocation : ℕ
  numElements : ℕ
  maxElements : ℕ
  pushed : List α
  popped : List α

namespace AmdbQueue

variable {α : Type}

/-- `amdb_queue_create`; the memory is not cleared. -/
def create (maxItems : ℕ) (data : ℕ → α) : AmdbQueue α where
  data := data
  pushLocation := 0
  numElements := 0
  maxElements := maxItems
  pushed := []
  popped := []

variable (q : AmdbQueue α)

/-- `amdb_queue_is_empty`. -/
def isEmpty : Bool := q.numElements = 0

/-- `amdb_queue_is_full`. -/
def isFull : Bool := q.maxElements = q.numElements

/-- `amdb_queue_push` when there is room. -/
def push (x : α) : AmdbQueue α :=
  { q with
    data := update q.data q.pushLocation x
    numElements := q.numElements + 1
    pushLocation := if q.maxElements ≤ q.pushLocation + 1 then 0 else q.pushLocation + 1
    pushed := q.pushed ++ [x] }

/-- Where the next pop reads. -/
def popLocation : ℕ :=
  let popLocation := q.pushLocation + q.maxElements - q.numElements
  if q.maxElements ≤ popLocation then popLocation - q.maxElements else popLocation

/-- `amdb_queue_pop` when there is an element: the element, and the queue. -/
def pop : α × AmdbQueue α :=
  (q.data q.popLocation,
    { q with
      numElements := q.numElements - 1
      popped := q.popped ++ [q.data q.popLocation] })

/-- What was pushed and not popped yet. -/
def contents : List α :=
  q.pushed.drop q.popped.length

/-- **The queue delivers in order**: what was popped is what was pushed first, and the rest is in
the ring. -/
structure Fifo : Prop where
  pos : 0 < q.maxElements
  /-- The elements popped are the first ones pushed. -/
  inOrder : q.pushed = q.popped ++ q.contents
  num : q.contents.length = q.numElements
  le : q.numElements ≤ q.maxElements
  location : q.pushLocation = q.pushed.length % q.maxElements
  shows : Shows q.maxElements q.data 0 q.pushed

variable {q}

lemma fifo_create {maxItems : ℕ} (hpos : 0 < maxItems) (data : ℕ → α) :
    (create maxItems data).Fifo where
  pos := hpos
  inOrder := rfl
  num := rfl
  le := Nat.zero_le _
  location := (Nat.zero_mod _).symm
  shows := Shows.nil

lemma isFull_iff : q.isFull = true ↔ q.maxElements = q.numElements := by
  exact decide_eq_true_iff

lemma isEmpty_iff : q.isEmpty = true ↔ q.numElements = 0 := by
  exact decide_eq_true_iff

lemma Fifo.popped_le (h : q.Fifo) : q.popped.length ≤ q.pushed.length := by
  have hlen := congrArg List.length h.inOrder
  rw [length_append] at hlen
  omega

lemma Fifo.contents_push (h : q.Fifo) (x : α) : (q.push x).contents = q.contents ++ [x] := by
  change (q.pushed ++ [x]).drop q.popped.length = _
  rw [drop_append_of_le_length h.popped_le]
  rfl

/-- **A push** into a queue with room. -/
lemma Fifo.push (h : q.Fifo) (hroom : q.isFull = false) (x : α) : (q.push x).Fifo := by
  have hlt : q.numElements < q.maxElements := by
    have hne : q.maxElements ≠ q.numElements := fun heq => by
      rw [isFull_iff.mpr heq] at hroom
      cases hroom
    have := h.le
    omega
  have hmod : q.pushed.length % q.maxElements < q.maxElements := Nat.mod_lt _ h.pos
  refine ⟨h.pos, ?_, ?_, hlt, ?_, ?_⟩
  · rw [h.contents_push, ← append_assoc]
    exact congrArg (· ++ [x]) h.inOrder
  · rw [h.contents_push, length_append, h.num]
    rfl
  · change (if q.maxElements ≤ q.pushLocation + 1 then 0 else q.pushLocation + 1) =
      (q.pushed ++ [x]).length % q.maxElements
    rw [h.location, length_append, length_singleton]
    split
    · rename_i hwrap
      have heq : q.pushed.length % q.maxElements + 1 = q.maxElements := by omega
      rw [← Nat.mod_add_mod, heq, Nat.mod_self]
    · rename_i hnowrap
      exact (add_mod_of_fits (by omega)).symm
  · have hstore : update q.data q.pushLocation x =
        putAt q.data ((0 + q.pushed.length) % q.maxElements) [x] := by
      rw [Nat.zero_add, ← h.location]
      funext p
      unfold putAt
      by_cases hp : p = q.pushLocation
      · subst hp
        simp
      · rw [Function.update_of_ne hp]
        split
        · have hnone : ([x] : List α)[p - q.pushLocation]? = none :=
            getElem?_eq_none (by rw [length_singleton]; omega)
          rw [hnone]
          rfl
        · rfl
    change Shows q.maxElements (update q.data q.pushLocation x) 0 (q.pushed ++ [x])
    rw [hstore]
    refine h.shows.append [x] ?_
    rw [Nat.zero_add, length_singleton]
    omega

@[simp] lemma push_maxElements (x : α) : (q.push x).maxElements = q.maxElements := rfl

/-- Pushes one after the other into a queue with room for all of them. -/
lemma Fifo.foldl_push (xs : List α) :
    ∀ {q : AmdbQueue α}, q.Fifo → q.numElements + xs.length ≤ q.maxElements →
      (xs.foldl AmdbQueue.push q).Fifo ∧ (xs.foldl AmdbQueue.push q).contents = q.contents ++ xs ∧
        (xs.foldl AmdbQueue.push q).maxElements = q.maxElements := by
  induction xs with
  | nil =>
    intro q h _
    exact ⟨h, (append_nil _).symm, rfl⟩
  | cons x xs ih =>
    intro q h hroom
    rw [length_cons] at hroom
    have hfull : q.isFull = false := by
      exact decide_eq_false (by omega)
    have hnum : (q.push x).numElements = q.numElements + 1 := rfl
    obtain ⟨hfifo, hcontents, hmax⟩ := ih (h.push hfull x) (by
      rw [hnum, push_maxElements]
      omega)
    refine ⟨hfifo, ?_, hmax⟩
    rw [foldl_cons, hcontents, h.contents_push, append_assoc]
    rfl

/-- **A pop** from a queue with elements returns the first of them. -/
lemma Fifo.pop (h : q.Fifo) (hsome : q.isEmpty = false) :
    ∃ x rest, q.contents = x :: rest ∧ q.pop.1 = x ∧ q.pop.2.Fifo ∧ q.pop.2.contents = rest := by
  have hne : q.numElements ≠ 0 := fun heq => by
    rw [isEmpty_iff.mpr heq] at hsome
    cases hsome
  obtain ⟨x, rest, hcons⟩ : ∃ x rest, q.contents = x :: rest := by
    rcases hc : q.contents with _ | ⟨x, rest⟩
    · have := h.num
      rw [hc] at this
      exact absurd this.symm hne
    · exact ⟨x, rest, rfl⟩
  have hlen : q.pushed.length = q.popped.length + q.numElements := by
    have := congrArg List.length h.inOrder
    rwa [length_append, h.num] at this
  have hfirst : q.pushed[q.popped.length]? = some x := by
    rw [h.inOrder, getElem?_append_right (Nat.le_refl _), Nat.sub_self, hcons]
    rfl
  have hle := h.le
  have hmod : q.pushed.length % q.maxElements < q.maxElements := Nat.mod_lt _ h.pos
  have hloc : q.popLocation = (0 + q.popped.length) % q.maxElements := by
    unfold popLocation
    dsimp only
    rw [h.location, Nat.zero_add]
    have hcongr : (q.pushed.length % q.maxElements + q.maxElements - q.numElements) %
        q.maxElements = q.popped.length % q.maxElements := by
      have hadd : q.pushed.length % q.maxElements + q.maxElements - q.numElements +
          q.maxElements * (q.pushed.length / q.maxElements) =
          q.popped.length + q.maxElements := by
        have := Nat.mod_add_div q.pushed.length q.maxElements
        omega
      rw [← Nat.add_mul_mod_self_left _ q.maxElements (q.pushed.length / q.maxElements), hadd,
        Nat.add_mod_right]
    rw [← hcongr]
    split
    · rename_i hwrap
      exact ((Nat.mod_eq_sub_mod hwrap).trans (Nat.mod_eq_of_lt (by omega))).symm
    · rename_i hnowrap
      exact (Nat.mod_eq_of_lt (by omega)).symm
  have hread : q.data q.popLocation = x := by
    rw [hloc]
    exact h.shows q.popped.length x hfirst (by omega)
  have hrest : q.pop.2.contents = rest := by
    change q.pushed.drop (q.popped ++ [q.data q.popLocation]).length = rest
    rw [length_append, length_singleton, ← drop_drop]
    change List.drop 1 q.contents = rest
    rw [hcons]
    rfl
  refine ⟨x, rest, hcons, hread, ⟨h.pos, ?_, ?_, ?_, h.location, h.shows⟩, hrest⟩
  · rw [hrest]
    change q.pushed = q.popped ++ [q.data q.popLocation] ++ rest
    rw [hread, append_assoc]
    exact h.inOrder.trans (by rw [hcons]; rfl)
  · have hnum := h.num
    rw [hrest]
    rw [hcons, length_cons] at hnum
    change rest.length = q.numElements - 1
    omega
  · change q.numElements - 1 ≤ q.maxElements
    omega

end AmdbQueue

end AudioReach
