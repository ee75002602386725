import Mathlib.Data.Finset.Prod
import AudioReach.Bufpool.Model

/-!
# Which nodes of a pool are in use

`Occupied` is the agreement of the bitmasks, the headers and `used_nodes` with the nodes that
clients have: the live ones, and the ones that were ever handed out.  It is kept by each of the
four changes that the operations are made of: an array is added, a node is taken, a node is
released, and an empty array is freed.

`Counted` is the agreement of `allocated_nodes` with the arrays.  It is stated apart, since it is
what goes wrong.
-/

namespace AudioReach

open Library

/-! ## The first free node of an array -/

lemma shiftCount_two_pow {rounds k : ℕ} (h : k < rounds) : shiftCount rounds (2 ^ k) = k + 1 := by
  induction rounds generalizing k with
  | zero => exact absurd h (Nat.not_lt_zero k)
  | succ rounds ih =>
    unfold shiftCount
    rw [if_pos (Nat.two_pow_pos k), Nat.shiftRight_one]
    cases k with
    | zero =>
      have hzero : shiftCount rounds 0 = 0 := by
        cases rounds with
        | zero => rfl
        | succ rounds => rfl
      rw [Nat.pow_zero, show 1 / 2 = 0 from rfl, hzero]
    | succ k =>
      rw [Nat.pow_succ, Nat.mul_div_cancel _ (by omega), ih (by omega)]
      omega

lemma testBit_of_lt_firstZeroIdx {num i : ℕ} (hlt : num < 2 ^ 32) (h : i < firstZeroIdx num) :
    num.testBit i = true := by
  unfold firstZeroIdx at h
  split at h
  · rename_i hfull
    rw [hfull, testBit_lowMask]
    exact decide_eq_true h
  · rename_i hfull
    rw [compl_and_succ hlt hfull, shiftCount_two_pow (trailingOnes_lt hlt hfull),
      Nat.add_sub_cancel] at h
    exact testBit_of_lt_trailingOnes h

lemma testBit_firstZeroIdx {num : ℕ} (hlt : num < 2 ^ 32) :
    num.testBit (firstZeroIdx num) = false := by
  unfold firstZeroIdx
  split
  · exact Nat.testBit_lt_two_pow hlt
  · rename_i hfull
    rw [compl_and_succ hlt hfull, shiftCount_two_pow (trailingOnes_lt hlt hfull),
      Nat.add_sub_cancel]
    exact testBit_trailingOnes (trailingOnes_lt hlt hfull)

/-! ## Arrays and bits -/

namespace Bufpool

/-- The block of array `i`. -/
def mem (p : Bufpool) (i : ℕ) : Option Addr := (p.nodesPtr i).memStartAddr

/-- The bit of node `j` of array `i`. -/
def bit (p : Bufpool) (i j : ℕ) : Bool := (p.nodesPtr i).listBitmask.testBit j

/-- The bits that are set, of all bitmasks. -/
def setBits (p : Bufpool) : Finset (ℕ × ℕ) :=
  (Finset.range p.numOfNodeArrays ×ˢ Finset.range 32).filter fun x => p.bit x.1 x.2 = true

/-- The arrays that are allocated. -/
def arrays (p : Bufpool) : Finset ℕ :=
  (Finset.range p.numOfNodeArrays).filter fun i => (p.mem i).isSome

/-- `allocated_nodes` is the number of nodes of all arrays. -/
def Counted (p : Bufpool) : Prop := p.allocatedNodes = p.nodesPerArr * p.arrays.card

section Changes

variable (p : Bufpool) (index k i j : ℕ)

@[simp] lemma mem_newArr : (p.newArr index).mem i =
    if i = index then some p.nextBlock else p.mem i := by
  unfold mem newArr setArr
  by_cases h : i = index
  · subst h
    simp
  · simp [h]

@[simp] lemma bit_newArr : (p.newArr index).bit i j = (decide (i ≠ index) && p.bit i j) := by
  unfold bit newArr setArr
  by_cases h : i = index
  · subst h
    simp
  · simp [h]

@[simp] lemma mem_toggleBit : (p.toggleBit index k).mem i = p.mem i := by
  unfold mem toggleBit setArr
  by_cases h : i = index
  · subst h
    simp
  · simp [h]

@[simp] lemma bit_toggleBit : (p.toggleBit index k).bit i j =
    (p.bit i j ^^ decide (i = index ∧ j = k)) := by
  unfold bit toggleBit setArr
  by_cases h : i = index
  · subst h
    simp only [Function.update_self, testBit_toggle, true_and, @eq_comm _ j]
  · simp [h]

/-- The pool after node `k` of array `index`, which is in block `b`, was handed out. -/
def taken (b : Addr) : Bufpool :=
  { p.toggleBit index k with
    headers := Function.update p.headers b
      (Function.update (p.headers b) (p.headerOffset k) (p.newHeader index k))
    usedNodes := (p.usedNodes + 1) % 65536 }

lemma takeNode_of_mem {b : Addr} (h : p.mem index = some b) :
    p.takeNode index k = (some ⟨b, p.nodeOffset k⟩, p.taken index k b) := by
  unfold takeNode
  unfold mem at h
  rw [h]
  rfl

@[simp] lemma mem_taken (b : Addr) : (p.taken index k b).mem i = p.mem i :=
  p.mem_toggleBit index k i

@[simp] lemma bit_taken (b : Addr) : (p.taken index k b).bit i j =
    (p.bit i j ^^ decide (i = index ∧ j = k)) :=
  p.bit_toggleBit index k i j

@[simp] lemma mem_releaseNode : (p.releaseNode index k).mem i = p.mem i := by
  rw [← p.mem_toggleBit index k i]
  simp only [mem, releaseNode]

@[simp] lemma bit_releaseNode : (p.releaseNode index k).bit i j =
    (p.bit i j ^^ decide (i = index ∧ j = k)) := by
  rw [← p.bit_toggleBit index k i j]
  simp only [bit, releaseNode]

@[simp] lemma mem_dropAllocated : p.dropAllocated.mem i = p.mem i := by
  simp only [mem, dropAllocated]

/-- The pool after an empty array was freed. -/
def freed : Bufpool :=
  (p.setArr index { p.nodesPtr index with memStartAddr := none }).dropAllocated

@[simp] lemma mem_freed : (p.freed index).mem i = if i = index then none else p.mem i := by
  unfold mem freed dropAllocated setArr
  by_cases h : i = index
  · subst h
    simp
  · simp [h]

@[simp] lemma bit_freed : (p.freed index).bit i j = p.bit i j := by
  unfold bit freed dropAllocated setArr
  by_cases h : i = index
  · subst h
    simp
  · simp [h]

end Changes

lemma mem_setBits {p : Bufpool} {i j : ℕ} :
    (i, j) ∈ p.setBits ↔ (i < p.numOfNodeArrays ∧ j < 32) ∧ p.bit i j = true := by
  simp [setBits]

lemma mem_arrays {p : Bufpool} {i : ℕ} :
    i ∈ p.arrays ↔ i < p.numOfNodeArrays ∧ (p.mem i).isSome = true := by
  simp [arrays]

/-! ## The invariant -/

/-- The sizes that a pool is created with. -/
structure Sized (p : Bufpool) : Prop where
  pos : 0 < p.nodesPerArr
  le : p.nodesPerArr ≤ 32
  /-- The index of an array fits its field of the header. -/
  arrays : p.numOfNodeArrays ≤ 16384
  capacity : p.numOfNodeArrays * p.nodesPerArr < 65536
  poolIndex : p.poolIndex < 8
  headerSize : 0 < p.headerSize

/-- The bitmasks, the headers and `used_nodes` agree with the nodes that clients have. -/
structure Occupied (p : Bufpool) (live handed : Finset NodePtr) : Prop where
  sized : p.Sized
  /-- Only nodes of arrays that are there have a bit. -/
  bits : ∀ i j, p.bit i j = true → j < p.nodesPerArr ∧ p.mem i ≠ none
  inRange : ∀ i, p.mem i ≠ none → i < p.numOfNodeArrays
  old : ∀ i b, p.mem i = some b → b < p.nextBlock
  distinct : ∀ i i' b, p.mem i = some b → p.mem i' = some b → i = i'
  live_iff : ∀ n, n ∈ live ↔
    ∃ i j, p.bit i j = true ∧ p.mem i = some n.block ∧ n.offset = p.nodeOffset j
  usedNodes : p.usedNodes = p.setBits.card
  live_card : live.card = p.setBits.card
  /-- A node that was handed out knows its place while its array is there. -/
  header : ∀ n ∈ handed, ∀ i, p.mem i = some n.block →
    ∃ j < p.nodesPerArr, n.offset = p.nodeOffset j ∧
      p.headers n.block (p.headerOffset j) = p.newHeader i j
  handed_old : ∀ n ∈ handed, n.block < p.nextBlock
  live_handed : live ⊆ handed

/-- The sizes of a pool do not change. -/
structure SameSizes (p p' : Bufpool) : Prop where
  numOfNodeArrays : p'.numOfNodeArrays = p.numOfNodeArrays
  nodesPerArr : p'.nodesPerArr = p.nodesPerArr
  nodeSize : p'.nodeSize = p.nodeSize
  alignPaddingSize : p'.alignPaddingSize = p.alignPaddingSize
  poolIndex : p'.poolIndex = p.poolIndex
  headerSize : p'.headerSize = p.headerSize

namespace SameSizes

variable {p p' : Bufpool} (h : SameSizes p p')

include h

lemma sized (hp : p.Sized) : p'.Sized := by
  refine ⟨?_, ?_, ?_, ?_, ?_, ?_⟩
  · rw [h.nodesPerArr]
    exact hp.pos
  · rw [h.nodesPerArr]
    exact hp.le
  · rw [h.numOfNodeArrays]
    exact hp.arrays
  · rw [h.numOfNodeArrays, h.nodesPerArr]
    exact hp.capacity
  · rw [h.poolIndex]
    exact hp.poolIndex
  · rw [h.headerSize]
    exact hp.headerSize

lemma headerOffset (j : ℕ) : p'.headerOffset j = p.headerOffset j := by
  simp only [Bufpool.headerOffset, stride, h.alignPaddingSize, h.headerSize, h.nodeSize]

lemma nodeOffset (j : ℕ) : p'.nodeOffset j = p.nodeOffset j := by
  rw [Bufpool.nodeOffset, h.headerOffset, h.headerSize, Bufpool.nodeOffset]

lemma newHeader (i j : ℕ) : p'.newHeader i j = p.newHeader i j := by
  simp only [Bufpool.newHeader, h.poolIndex]

end SameSizes

section

variable (p : Bufpool)

lemma sameSizes_newArr (index : ℕ) : SameSizes p (p.newArr index) :=
  ⟨rfl, rfl, rfl, rfl, rfl, rfl⟩

lemma sameSizes_taken (index k : ℕ) (b : Addr) : SameSizes p (p.taken index k b) :=
  ⟨rfl, rfl, rfl, rfl, rfl, rfl⟩

lemma sameSizes_releaseNode (index k : ℕ) : SameSizes p (p.releaseNode index k) :=
  ⟨rfl, rfl, rfl, rfl, rfl, rfl⟩

lemma sameSizes_freed (index : ℕ) : SameSizes p (p.freed index) :=
  ⟨rfl, rfl, rfl, rfl, rfl, rfl⟩

lemma sameSizes_dropAllocated : SameSizes p p.dropAllocated :=
  ⟨rfl, rfl, rfl, rfl, rfl, rfl⟩

end

lemma nodeOffset_inj {p : Bufpool} (h : p.Sized) {j j' : ℕ}
    (heq : p.nodeOffset j = p.nodeOffset j') : j = j' := by
  have hpos : 0 < p.stride := by
    have := h.headerSize
    unfold stride
    omega
  unfold nodeOffset headerOffset at heq
  exact Nat.eq_of_mul_eq_mul_right hpos (by omega)

lemma card_setBits_lt {p : Bufpool} (h : p.Sized)
    (hbits : ∀ i j, p.bit i j = true → j < p.nodesPerArr) : p.setBits.card < 65536 := by
  have hsub : p.setBits ⊆ Finset.range p.numOfNodeArrays ×ˢ Finset.range p.nodesPerArr := by
    rintro ⟨i, j⟩ hij
    obtain ⟨⟨hi, _⟩, hbit⟩ := mem_setBits.mp hij
    simp [hi, hbits i j hbit]
  have hcard := Finset.card_le_card hsub
  rw [Finset.card_product, Finset.card_range, Finset.card_range] at hcard
  exact lt_of_le_of_lt hcard h.capacity

/-! ## The changes -/

namespace Occupied

variable {p : Bufpool} {live handed : Finset NodePtr} {index k : ℕ} {b : Addr}

section

variable (h : Occupied p live handed)
include h

lemma bit_eq_false (hnone : p.mem index = none) (j : ℕ) : p.bit index j = false := by
  by_contra hset
  exact (h.bits index j (by simpa using hset)).2 hnone

/-- A new array is empty. -/
lemma newArr (hindex : index < p.numOfNodeArrays) (hnone : p.mem index = none) :
    Occupied (p.newArr index) live handed := by
  have hsizes := p.sameSizes_newArr index
  have hbit : ∀ i j, (p.newArr index).bit i j = p.bit i j := by
    intro i j
    by_cases hi : i = index
    · subst hi
      simp [h.bit_eq_false hnone j]
    · simp [hi]
  have hset : (p.newArr index).setBits = p.setBits := by
    ext ⟨i, j⟩
    rw [mem_setBits, mem_setBits, hbit, hsizes.numOfNodeArrays]
  refine ⟨hsizes.sized h.sized, ?_, ?_, ?_, ?_, ?_, ?_, ?_, ?_, ?_, h.live_handed⟩
  · intro i j hij
    rw [hbit] at hij
    obtain ⟨hj, hmem⟩ := h.bits i j hij
    refine ⟨hj, ?_⟩
    rw [mem_newArr]
    split <;> simp [hmem]
  · intro i hi
    rw [mem_newArr] at hi
    split at hi
    · rename_i heq
      exact heq ▸ hindex
    · exact h.inRange i hi
  · intro i b hi
    rw [mem_newArr] at hi
    split at hi
    · cases hi
      exact Nat.lt_succ_self _
    · exact Nat.lt_succ_of_lt (h.old i b hi)
  · intro i i' b hi hi'
    rw [mem_newArr] at hi hi'
    split at hi
    · split at hi'
      · omega
      · cases hi
        exact absurd (h.old i' _ hi') (Nat.lt_irrefl _)
    · split at hi'
      · cases hi'
        exact absurd (h.old i _ hi) (Nat.lt_irrefl _)
      · exact h.distinct i i' b hi hi'
  · intro n
    rw [h.live_iff]
    refine exists_congr fun i => exists_congr fun j => ?_
    rw [hbit, hsizes.nodeOffset, mem_newArr]
    refine and_congr_right fun hij => ?_
    rw [if_neg]
    rintro rfl
    rw [h.bit_eq_false hnone] at hij
    cases hij
  · rw [hset]
    exact h.usedNodes
  · rw [hset]
    exact h.live_card
  · intro n hn i hi
    rw [mem_newArr] at hi
    split at hi
    · have hold := h.handed_old n hn
      rw [← Option.some_inj.mp hi] at hold
      exact absurd hold (Nat.lt_irrefl _)
    · exact h.header n hn i hi
  · intro n hn
    exact Nat.lt_succ_of_lt (h.handed_old n hn)

lemma bit_of_live {n : NodePtr} (hmem : p.mem index = some n.block)
    (hoffset : n.offset = p.nodeOffset k) : n ∈ live ↔ p.bit index k = true := by
  rw [h.live_iff]
  constructor
  · rintro ⟨i, j, hbit, hi, hj⟩
    rw [h.distinct index i n.block hmem hi, nodeOffset_inj h.sized (hoffset.symm.trans hj)]
    exact hbit
  · intro hbit
    exact ⟨index, k, hbit, hmem, hoffset⟩

/-- A node that is taken is live from then on. -/
lemma taken (hk : k < p.nodesPerArr) (hmem : p.mem index = some b) (hfree : p.bit index k = false) :
    Occupied (p.taken index k b) (insert ⟨b, p.nodeOffset k⟩ live)
      (insert ⟨b, p.nodeOffset k⟩ handed) := by
  have hsizes := p.sameSizes_taken index k b
  have hindex : index < p.numOfNodeArrays := h.inRange index (by simp [hmem])
  have hnew : (⟨b, p.nodeOffset k⟩ : NodePtr) ∉ live := by
    rw [h.bit_of_live hmem rfl, hfree]
    exact Bool.false_ne_true
  have hbit : ∀ i j, (p.taken index k b).bit i j = true ↔
      p.bit i j = true ∨ (i = index ∧ j = k) := by
    intro i j
    by_cases hij : i = index ∧ j = k
    · obtain ⟨rfl, rfl⟩ := hij
      simp [hfree]
    · simp [hij]
  have hnot : (index, k) ∉ p.setBits := by
    rw [mem_setBits, hfree]
    simp
  have hset : (p.taken index k b).setBits = insert (index, k) p.setBits := by
    have hk32 : k < 32 := lt_of_lt_of_le hk h.sized.le
    ext ⟨i, j⟩
    rw [Finset.mem_insert, mem_setBits, mem_setBits, hbit, hsizes.numOfNodeArrays, Prod.mk.injEq]
    constructor
    · rintro ⟨hrange, hold | heq⟩
      · exact Or.inr ⟨hrange, hold⟩
      · exact Or.inl heq
    · rintro (⟨rfl, rfl⟩ | ⟨hrange, hold⟩)
      · exact ⟨⟨hindex, hk32⟩, Or.inr ⟨rfl, rfl⟩⟩
      · exact ⟨hrange, Or.inl hold⟩
  have hbits : ∀ i j, (p.taken index k b).bit i j = true →
      j < (p.taken index k b).nodesPerArr ∧ (p.taken index k b).mem i ≠ none := by
    intro i j hij
    rw [mem_taken, hsizes.nodesPerArr]
    rcases (hbit i j).mp hij with hold | ⟨rfl, rfl⟩
    · exact h.bits i j hold
    · exact ⟨hk, by simp [hmem]⟩
  refine ⟨hsizes.sized h.sized, hbits, ?_, ?_, ?_, ?_, ?_, ?_, ?_, ?_, ?_⟩
  · intro i hi
    rw [mem_taken] at hi
    exact h.inRange i hi
  · intro i b' hi
    rw [mem_taken] at hi
    exact h.old i b' hi
  · intro i i' b' hi hi'
    rw [mem_taken] at hi hi'
    exact h.distinct i i' b' hi hi'
  · intro n
    rw [Finset.mem_insert, h.live_iff]
    constructor
    · rintro (rfl | ⟨i, j, hij, hi, hj⟩)
      · exact ⟨index, k, (hbit _ _).mpr (Or.inr ⟨rfl, rfl⟩), by rw [mem_taken, hmem],
          (hsizes.nodeOffset k).symm⟩
      · exact ⟨i, j, (hbit _ _).mpr (Or.inl hij), by rw [mem_taken, hi],
          by rw [hsizes.nodeOffset, hj]⟩
    · rintro ⟨i, j, hij, hi, hj⟩
      rw [mem_taken] at hi
      rw [hsizes.nodeOffset] at hj
      rcases (hbit i j).mp hij with hold | ⟨rfl, rfl⟩
      · exact Or.inr ⟨i, j, hold, hi, hj⟩
      · left
        obtain ⟨block, offset⟩ := n
        simp only at hi hj
        rw [hmem] at hi
        cases hi
        rw [hj]
  · have hroom := card_setBits_lt (hsizes.sized h.sized) fun i j hij => (hbits i j hij).1
    rw [hset, Finset.card_insert_of_notMem hnot] at hroom ⊢
    change (p.usedNodes + 1) % 65536 = _
    rw [h.usedNodes, Nat.mod_eq_of_lt hroom]
  · rw [hset, Finset.card_insert_of_notMem hnew, Finset.card_insert_of_notMem hnot, h.live_card]
  · intro n hn i hi
    rw [mem_taken] at hi
    simp only [hsizes.nodeOffset, hsizes.headerOffset, hsizes.newHeader]
    rcases Finset.mem_insert.mp hn with rfl | hn
    · refine ⟨k, hk, rfl, ?_⟩
      rw [h.distinct i index b hi hmem]
      simp [Bufpool.taken]
    · obtain ⟨j, hj, hoffset, hheader⟩ := h.header n hn i hi
      refine ⟨j, hj, hoffset, ?_⟩
      by_cases hb : n.block = b
      · rw [hb] at hi hheader ⊢
        obtain rfl := h.distinct i index b hi hmem
        by_cases hjk : j = k
        · rw [hjk]
          simp [Bufpool.taken]
        · have hne : p.headerOffset j ≠ p.headerOffset k := by
            intro heq
            exact hjk (nodeOffset_inj h.sized (by rw [Bufpool.nodeOffset, heq, Bufpool.nodeOffset]))
          simp [Bufpool.taken, hne, hheader]
      · simp [Bufpool.taken, hb, hheader]
  · intro n hn
    rcases Finset.mem_insert.mp hn with rfl | hn
    · exact h.old index b hmem
    · exact h.handed_old n hn
  · exact Finset.insert_subset_insert _ h.live_handed

/-- A node that is released is no longer live. -/
lemma releaseNode (hmem : p.mem index = some b) (hused : p.bit index k = true) :
    Occupied (p.releaseNode index k) (live.erase ⟨b, p.nodeOffset k⟩) handed := by
  have hsizes := p.sameSizes_releaseNode index k
  have hlive : (⟨b, p.nodeOffset k⟩ : NodePtr) ∈ live := (h.bit_of_live hmem rfl).mpr hused
  have hbit : ∀ i j, (p.releaseNode index k).bit i j = true ↔
      p.bit i j = true ∧ ¬ (i = index ∧ j = k) := by
    intro i j
    by_cases hij : i = index ∧ j = k
    · obtain ⟨rfl, rfl⟩ := hij
      simp [hused]
    · simp [hij]
  have hin : (index, k) ∈ p.setBits := by
    rw [mem_setBits]
    obtain ⟨hk, _⟩ := h.bits index k hused
    exact ⟨⟨h.inRange index (by simp [hmem]), lt_of_lt_of_le hk h.sized.le⟩, hused⟩
  have hset : (p.releaseNode index k).setBits = p.setBits.erase (index, k) := by
    ext ⟨i, j⟩
    rw [Finset.mem_erase, mem_setBits, mem_setBits, hbit, hsizes.numOfNodeArrays, Ne, Prod.mk.injEq]
    tauto
  have hcard : (p.releaseNode index k).setBits.card = p.setBits.card - 1 := by
    rw [hset, Finset.card_erase_of_mem hin]
  refine ⟨hsizes.sized h.sized, ?_, ?_, ?_, ?_, ?_, ?_, ?_, ?_, h.handed_old, ?_⟩
  · intro i j hij
    rw [mem_releaseNode, hsizes.nodesPerArr]
    exact h.bits i j ((hbit i j).mp hij).1
  · intro i hi
    rw [mem_releaseNode] at hi
    exact h.inRange i hi
  · intro i b' hi
    rw [mem_releaseNode] at hi
    exact h.old i b' hi
  · intro i i' b' hi hi'
    rw [mem_releaseNode] at hi hi'
    exact h.distinct i i' b' hi hi'
  · intro n
    rw [Finset.mem_erase, h.live_iff]
    constructor
    · rintro ⟨hne, i, j, hij, hi, hj⟩
      refine ⟨i, j, (hbit i j).mpr ⟨hij, ?_⟩, by rw [mem_releaseNode, hi],
        by rw [hsizes.nodeOffset, hj]⟩
      rintro ⟨rfl, rfl⟩
      obtain ⟨block, offset⟩ := n
      simp only at hi hj
      rw [hmem] at hi
      cases hi
      exact hne (by rw [hj])
    · rintro ⟨i, j, hij, hi, hj⟩
      rw [mem_releaseNode] at hi
      obtain ⟨hold, hother⟩ := (hbit i j).mp hij
      refine ⟨?_, i, j, hold, hi, hj⟩
      rintro rfl
      exact hother ⟨h.distinct i index b hi hmem, nodeOffset_inj h.sized hj.symm⟩
  · have hroom := card_setBits_lt h.sized fun i j hij => (h.bits i j hij).1
    have hpos := Finset.card_pos.mpr ⟨_, hin⟩
    change (p.usedNodes + 65536 - 1) % 65536 = _
    rw [hcard, h.usedNodes]
    omega
  · rw [hcard, Finset.card_erase_of_mem hlive, h.live_card]
  · intro n hn i hi
    rw [mem_releaseNode] at hi
    exact h.header n hn i hi
  · exact (Finset.erase_subset _ _).trans h.live_handed

/-- An array without live nodes may go. -/
lemma freed (hempty : ∀ j, p.bit index j = false) : Occupied (p.freed index) live handed := by
  have hsizes := p.sameSizes_freed index
  have hset : (p.freed index).setBits = p.setBits := by
    ext ⟨i, j⟩
    rw [mem_setBits, mem_setBits, bit_freed, hsizes.numOfNodeArrays]
  have hother : ∀ i j, p.bit i j = true → i ≠ index := by
    rintro i j hij rfl
    rw [hempty j] at hij
    cases hij
  have hmem : ∀ i b, (p.freed index).mem i = some b → p.mem i = some b := by
    intro i b hi
    rw [mem_freed] at hi
    split at hi
    · cases hi
    · exact hi
  refine ⟨hsizes.sized h.sized, ?_, ?_, ?_, ?_, ?_, ?_, ?_, ?_, h.handed_old, h.live_handed⟩
  · intro i j hij
    rw [bit_freed] at hij
    rw [mem_freed, if_neg (hother i j hij)]
    exact h.bits i j hij
  · intro i hi
    obtain ⟨b, hb⟩ := Option.ne_none_iff_exists'.mp hi
    exact h.inRange i (by simp [hmem i b hb])
  · intro i b hi
    exact h.old i b (hmem i b hi)
  · intro i i' b hi hi'
    exact h.distinct i i' b (hmem i b hi) (hmem i' b hi')
  · intro n
    rw [h.live_iff]
    refine exists_congr fun i => exists_congr fun j => ?_
    rw [bit_freed, hsizes.nodeOffset]
    refine and_congr_right fun hij => ?_
    rw [mem_freed, if_neg (hother i j hij)]
  · rw [hset]
    exact h.usedNodes
  · rw [hset]
    exact h.live_card
  · intro n hn i hi
    exact h.header n hn i (hmem i _ hi)

/-- `allocated_nodes` does not matter here. -/
lemma dropAllocated : Occupied p.dropAllocated live handed :=
  ⟨⟨h.sized.pos, h.sized.le, h.sized.arrays, h.sized.capacity, h.sized.poolIndex,
    h.sized.headerSize⟩, h.bits, h.inRange, h.old, h.distinct, h.live_iff, h.usedNodes,
    h.live_card, h.header, h.handed_old, h.live_handed⟩

end

end Occupied

end Bufpool

end AudioReach
