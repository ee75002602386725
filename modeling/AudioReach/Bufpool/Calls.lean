import AudioReach.Bufpool.Occupancy
import AudioReach.Library.Runs

/-!
# The operations of a pool

What each operation is made of: `posal_bufpool_get_node` may add an array and takes a node,
`posal_bufpool_return_node` releases a node and may free its array, and
`posal_bufpool_pool_free_unused_lists` frees every empty array.  With the lemmas about these
changes this gives what an operation does to the nodes that clients have.
-/

namespace AudioReach

open Library

namespace Bufpool

variable {p : Bufpool} {live handed : Finset NodePtr} {index k : ℕ} {b : Addr}

/-! ## The count of the arrays -/

lemma Sized.arrays_lt (h : p.Sized) : p.nodesPerArr * p.arrays.card < 65536 := by
  have hcard : p.arrays.card ≤ p.numOfNodeArrays := by
    have hle := Finset.card_filter_le (Finset.range p.numOfNodeArrays) fun i => (p.mem i).isSome
    rwa [Finset.card_range] at hle
  calc p.nodesPerArr * p.arrays.card ≤ p.nodesPerArr * p.numOfNodeArrays :=
        Nat.mul_le_mul_left _ hcard
    _ = p.numOfNodeArrays * p.nodesPerArr := Nat.mul_comm _ _
    _ < 65536 := h.capacity

lemma arrays_congr {p' : Bufpool} (hnum : p'.numOfNodeArrays = p.numOfNodeArrays)
    (hmem : ∀ i, p'.mem i = p.mem i) : p'.arrays = p.arrays := by
  ext i
  rw [mem_arrays, mem_arrays, hnum, hmem]

lemma card_arrays_newArr (hindex : index < p.numOfNodeArrays) (hnone : p.mem index = none) :
    (p.newArr index).arrays.card = p.arrays.card + 1 := by
  have hnew : index ∉ p.arrays := by
    rw [mem_arrays, hnone]
    simp
  have harrays : (p.newArr index).arrays = insert index p.arrays := by
    ext i
    rw [Finset.mem_insert, mem_arrays, mem_arrays, mem_newArr,
      (p.sameSizes_newArr index).numOfNodeArrays]
    by_cases hi : i = index
    · simp [hi, hindex]
    · simp [hi]
  rw [harrays, Finset.card_insert_of_notMem hnew]

lemma card_arrays_freed (hmem : index ∈ p.arrays) :
    (p.freed index).arrays.card = p.arrays.card - 1 := by
  have harrays : (p.freed index).arrays = p.arrays.erase index := by
    ext i
    rw [Finset.mem_erase, mem_arrays, mem_arrays, mem_freed,
      (p.sameSizes_freed index).numOfNodeArrays]
    by_cases hi : i = index
    · simp [hi]
    · simp [hi]
  rw [harrays, Finset.card_erase_of_mem hmem]

lemma Counted.newArr (h : p.Counted) (hsized : p.Sized) (hindex : index < p.numOfNodeArrays)
    (hnone : p.mem index = none) : (p.newArr index).Counted := by
  have hroom := ((p.sameSizes_newArr index).sized hsized).arrays_lt
  unfold Counted at h ⊢
  rw [card_arrays_newArr hindex hnone, (p.sameSizes_newArr index).nodesPerArr] at hroom ⊢
  change (p.allocatedNodes + p.nodesPerArr) % 65536 = _
  rw [h, ← Nat.mul_succ, Nat.mod_eq_of_lt hroom]

lemma Counted.freed (h : p.Counted) (hsized : p.Sized) (hmem : index ∈ p.arrays) :
    (p.freed index).Counted := by
  have hroom := hsized.arrays_lt
  have hpos := Finset.card_pos.mpr ⟨index, hmem⟩
  unfold Counted at h ⊢
  rw [card_arrays_freed hmem, (p.sameSizes_freed index).nodesPerArr]
  change (p.allocatedNodes + 65536 - p.nodesPerArr) % 65536 = _
  have hsplit : p.nodesPerArr * p.arrays.card =
      p.nodesPerArr * (p.arrays.card - 1) + p.nodesPerArr := by
    rw [← Nat.mul_succ, Nat.succ_eq_add_one, Nat.sub_add_cancel hpos]
  omega

lemma Counted.congr {p' : Bufpool} (h : p.Counted) (hsizes : SameSizes p p')
    (hmem : ∀ i, p'.mem i = p.mem i) (hallocated : p'.allocatedNodes = p.allocatedNodes) :
    p'.Counted := by
  rw [Counted, hallocated, hsizes.nodesPerArr, arrays_congr hsizes.numOfNodeArrays hmem]
  exact h

/-! ## Handing out a node -/

lemma takeNode_newArr (p : Bufpool) (index : ℕ) : (p.newArr index).takeNode index
        (firstZeroIdx ((p.newArr index).nodesPtr index).listBitmask) =
      (some ⟨p.nextBlock, (p.newArr index).nodeOffset 0⟩,
        (p.newArr index).taken index 0 p.nextBlock) := by
  have hempty : ((p.newArr index).nodesPtr index).listBitmask = 0 := by
    simp [newArr, setArr]
  rw [hempty, show firstZeroIdx 0 = 0 by decide]
  exact takeNode_of_mem _ _ _ (by simp)

section

variable (h : Occupied p live handed)
include h

/-- The index found for an array is a free node of it, or there is none. -/
lemma Occupied.firstZeroIdx_spec (i : ℕ) :
    p.bit i (firstZeroIdx (p.nodesPtr i).listBitmask) = false ∧
      firstZeroIdx (p.nodesPtr i).listBitmask ≤ p.nodesPerArr ∧
      (p.nodesPerArr = firstZeroIdx (p.nodesPtr i).listBitmask ↔
        ∀ j < p.nodesPerArr, p.bit i j = true) := by
  have hbits := h.bits i
  have hsize := h.sized.le
  unfold bit at hbits ⊢
  generalize (p.nodesPtr i).listBitmask = num at hbits ⊢
  have hlt : num < 2 ^ 32 := by
    apply Nat.lt_pow_two_of_testBit
    intro j hj
    by_contra hset
    have := (hbits j (by simpa using hset)).1
    omega
  have hfree := testBit_firstZeroIdx hlt
  have hle : firstZeroIdx num ≤ p.nodesPerArr := by
    by_contra hgt
    have := (hbits _ (testBit_of_lt_firstZeroIdx hlt (Nat.lt_of_not_le hgt))).1
    omega
  refine ⟨hfree, hle, ?_, ?_⟩
  · intro heq j hj
    exact testBit_of_lt_firstZeroIdx hlt (heq ▸ hj)
  · intro hall
    by_contra hne
    rw [hall _ (by omega)] at hfree
    cases hfree

/-- Every array before `n` is there and full. -/
def FullBefore (p : Bufpool) (n : ℕ) : Prop :=
  ∀ i < n, p.mem i ≠ none ∧ ∀ j < p.nodesPerArr, p.bit i j = true

/-- `posal_bufpool_get_node` finds no node: an allocation failed, or all arrays are full. -/
def NoNode (p : Bufpool) (allocated : Bool) : Prop :=
  (allocated = false ∧ ∃ i < p.numOfNodeArrays, p.mem i = none) ∨ p.FullBefore p.numOfNodeArrays

/-- `posal_bufpool_get_node` takes free node `k` of array `i`, perhaps of a new one. -/
structure Takes (p p₁ : Bufpool) (i k : ℕ) (b : Addr) : Prop where
  pool : p₁ = p ∨ ∃ index < p.numOfNodeArrays, p.mem index = none ∧ p₁ = p.newArr index
  mem : p₁.mem i = some b
  lt : k < p₁.nodesPerArr
  free : p₁.bit i k = false

lemma Takes.first (hindex : index < p.numOfNodeArrays) (hnone : p.mem index = none) :
    Takes p (p.newArr index) index 0 p.nextBlock :=
  ⟨Or.inr ⟨index, hindex, hnone, rfl⟩, by simp, h.sized.pos, by simp⟩

/-- The loop of `posal_bufpool_get_node`, once the arrays before `i` turned out to be full. -/
lemma getNodeFrom_cases (allocated : Bool) {count i : ℕ} (htotal : i + count = p.numOfNodeArrays)
    (hfull : p.FullBefore i) :
    (getNodeFrom allocated count i p = (none, p) ∧ p.NoNode allocated) ∨
      ∃ p₁ i₁ k b, Takes p p₁ i₁ k b ∧
        getNodeFrom allocated count i p = (some ⟨b, p₁.nodeOffset k⟩, p₁.taken i₁ k b) := by
  induction count generalizing i with
  | zero =>
    have hi : i = p.numOfNodeArrays := htotal
    exact Or.inl ⟨rfl, Or.inr (hi ▸ hfull)⟩
  | succ count ih =>
    have hi : i < p.numOfNodeArrays := by omega
    obtain ⟨hfree, hle, hfullIff⟩ := h.firstZeroIdx_spec i
    unfold getNodeFrom
    by_cases hnone : p.mem i = none
    · have hraw : (p.nodesPtr i).memStartAddr = none := hnone
      rw [if_pos hraw, allocateNewNodesArr, if_neg (by omega), if_neg (by simp [hraw])]
      cases allocated with
      | false => exact Or.inl ⟨rfl, Or.inl ⟨rfl, i, hi, hnone⟩⟩
      | true =>
        exact Or.inr ⟨_, i, 0, p.nextBlock, Takes.first h hi hnone, p.takeNode_newArr i⟩
    · rw [if_neg (show ¬ (p.nodesPtr i).memStartAddr = none from hnone)]
      by_cases hfullHere : p.nodesPerArr = firstZeroIdx (p.nodesPtr i).listBitmask
      · rw [if_pos hfullHere]
        have hfull' : p.FullBefore (i + 1) := by
          intro i' hi'
          by_cases heq : i' = i
          · rw [heq]
            exact ⟨hnone, hfullIff.mp hfullHere⟩
          · exact hfull i' (by omega)
        by_cases hlast : i + 1 ≥ p.numOfNodeArrays
        · rw [allocateNewNodesArr, if_pos hlast]
          have heq : i + 1 = p.numOfNodeArrays := by omega
          exact Or.inl ⟨rfl, Or.inr (heq ▸ hfull')⟩
        · rw [allocateNewNodesArr, if_neg hlast]
          by_cases hnext : p.mem (i + 1) = none
          · have hraw : (p.nodesPtr (i + 1)).memStartAddr = none := hnext
            rw [if_neg (by simp [hraw])]
            cases allocated with
            | false => exact Or.inl ⟨rfl, Or.inl ⟨rfl, i + 1, by omega, hnext⟩⟩
            | true =>
              -- the loop goes on to the new array and takes its first node
              refine Or.inr ⟨_, i + 1, 0, p.nextBlock, Takes.first h (by omega) hnext, ?_⟩
              obtain ⟨count, rfl⟩ : ∃ c, count = c + 1 := ⟨count - 1, by omega⟩
              rw [← p.takeNode_newArr (i + 1)]
              simp only [if_true]
              unfold getNodeFrom
              have hthere : ((p.newArr (i + 1)).nodesPtr (i + 1)).memStartAddr ≠ none := by
                simp [Bufpool.newArr, setArr]
              have hroom : (p.newArr (i + 1)).nodesPerArr ≠
                  firstZeroIdx ((p.newArr (i + 1)).nodesPtr (i + 1)).listBitmask := by
                have hempty : ((p.newArr (i + 1)).nodesPtr (i + 1)).listBitmask = 0 := by
                  simp [Bufpool.newArr, setArr]
                rw [hempty, show firstZeroIdx 0 = 0 by decide]
                exact Nat.pos_iff_ne_zero.mp h.sized.pos
              rw [if_neg hthere, if_neg hroom]
          · have hraw : (p.nodesPtr (i + 1)).memStartAddr.isSome = true :=
              Option.isSome_iff_ne_none.mpr hnext
            rw [if_pos hraw]
            exact ih (by omega) hfull'
      · rw [if_neg hfullHere]
        obtain ⟨b, hb⟩ := Option.ne_none_iff_exists'.mp hnone
        exact Or.inr ⟨p, i, _, b, ⟨Or.inl rfl, hb, by omega, hfree⟩, takeNode_of_mem p i _ hb⟩

/-- What `posal_bufpool_get_node` does. -/
lemma getNode_cases (allocated : Bool) :
    (p.getNode allocated = (none, p) ∧ p.NoNode allocated) ∨ ∃ p₁ i k b, Takes p p₁ i k b ∧
        p.getNode allocated = (some ⟨b, p₁.nodeOffset k⟩, p₁.taken i k b) :=
  getNodeFrom_cases h allocated (Nat.zero_add _) (fun i hi => absurd hi (Nat.not_lt_zero i))

end

/-! ## Taking a node back -/

/-- The place of a node that was handed out and whose array is there. -/
lemma Occupied.place (h : Occupied p live handed) {n : NodePtr} (hn : n ∈ handed)
    (hmem : p.mem index = some n.block) :
    ∃ j, n = ⟨n.block, p.nodeOffset j⟩ ∧ (n ∈ live ↔ p.bit index j = true) ∧
      p.returnNode n = if p.bit index j then (p.releaseNode index j).freeIfUnused index else p := by
  obtain ⟨j, hj, hoffset, hheader⟩ := h.header n hn index hmem
  have hindex := h.inRange index (by simp [hmem])
  have harrays := h.sized.arrays
  have hnodes := h.sized.le
  have hpool := h.sized.poolIndex
  refine ⟨j, ?_, h.bit_of_live hmem hoffset, ?_⟩
  · obtain ⟨block, offset⟩ := n
    rw [show offset = _ from hoffset]
  · have hread : p.headers n.block (n.offset - p.headerSize) = p.newHeader index j := by
      rw [hoffset, nodeOffset, Nat.add_sub_cancel, hheader]
    unfold returnNode
    rw [hread]
    simp only [newHeader, Nat.mod_eq_of_lt (show p.poolIndex < 32 by omega),
      Nat.mod_eq_of_lt (show index < 16384 by omega), Nat.mod_eq_of_lt (show j < 32 by omega)]
    rw [if_neg (by simp), if_neg (by decide)]
    change (if (!p.bit index j) = true then _ else _) = _
    cases p.bit index j <;> rfl

lemma freeNodesArr_of_empty (hmem : p.mem index ≠ none) (hindex : index < p.numOfNodeArrays)
    (hempty : (p.nodesPtr index).listBitmask = 0) : p.freeNodesArr index = p.freed index := by
  unfold freeNodesArr
  rw [if_neg]
  · rfl
  · rintro (hge | hnone | hne)
    · omega
    · exact hmem hnone
    · exact hne hempty

lemma freeIfUnused_cases (hmem : p.mem index ≠ none) (hindex : index < p.numOfNodeArrays) :
    p.freeIfUnused index = p ∨
      (∀ j, p.bit index j = false) ∧ p.freeIfUnused index = p.freed index := by
  unfold freeIfUnused
  split
  · rename_i hunused
    right
    refine ⟨?_, freeNodesArr_of_empty hmem hindex hunused.1⟩
    intro j
    rw [bit, hunused.1, Nat.zero_testBit]
  · exact Or.inl rfl

end Bufpool

end AudioReach
