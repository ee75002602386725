import AudioReach.Bufpool.Calls

/-!
# Pools stay consistent

A run of calls on a pool, with the nodes that clients have kept next to it: the live ones, and
all that were ever handed out.  Clients return only nodes that they were given, and only while
the array of the node is there; they may return a node twice.

`posal_bufpool_pool_free_unused_lists` subtracts the nodes of each array that it frees from
`allocated_nodes`, after `posal_bufpool_free_nodes_arr` has done so.  The counter is right in
exactly the runs in which this function finds no array to free.
-/

namespace AudioReach

open Library

namespace Bufpool

variable {p : Bufpool} {live handed : Finset NodePtr}

/-! ## Freeing the empty arrays -/

/-- Array `i` is there and no node of it is in use. -/
def EmptyArr (p : Bufpool) (i : ℕ) : Prop :=
  p.mem i ≠ none ∧ (p.nodesPtr i).listBitmask = 0

instance (p : Bufpool) (i : ℕ) : Decidable (p.EmptyArr i) :=
  inferInstanceAs (Decidable (_ ∧ _))

lemma freeUnusedFrom_of_none {count i : ℕ}
    (hnone : ∀ i', i ≤ i' → i' < i + count → ¬ p.EmptyArr i') : freeUnusedFrom count i p = p := by
  induction count generalizing i with
  | zero => rfl
  | succ count ih =>
    unfold freeUnusedFrom
    rw [if_neg]
    · exact ih fun i' hle hlt => hnone i' (by omega) (by omega)
    · rintro ⟨hmem, hempty⟩
      exact hnone i (Nat.le_refl i) (by omega) ⟨Option.isSome_iff_ne_none.mp hmem, hempty⟩

/-- What the loop keeps: the occupancy, and the blocks of the arrays that it does not free.  For
each of the `k` arrays that it frees, `allocated_nodes` is too small by their nodes. -/
structure Swept (p p' : Bufpool) (k : ℕ) : Prop where
  sizes : SameSizes p p'
  mem : ∀ i b, p'.mem i = some b → p.mem i = some b
  card : p'.arrays.card + k = p.arrays.card
  allocated : (p'.allocatedNodes + p.nodesPerArr * k + p.nodesPerArr * k) % 65536 =
    p.allocatedNodes % 65536

lemma Swept.refl (p : Bufpool) : Swept p p 0 :=
  ⟨⟨rfl, rfl, rfl, rfl, rfl, rfl⟩, fun _ _ h => h, rfl, rfl⟩

lemma Swept.free {i : ℕ} (hin : i ∈ p.arrays) (hroom : p.nodesPerArr < 65536) :
    Swept p (p.freed i).dropAllocated 1 := by
  have hpos := Finset.card_pos.mpr ⟨i, hin⟩
  refine ⟨⟨rfl, rfl, rfl, rfl, rfl, rfl⟩, ?_, ?_, ?_⟩
  · intro i' b hi'
    rw [mem_dropAllocated, mem_freed] at hi'
    split at hi'
    · cases hi'
    · exact hi'
  · rw [arrays_congr (sameSizes_dropAllocated _).numOfNodeArrays fun i' => mem_dropAllocated _ i',
      card_arrays_freed hin]
    omega
  · simp only [dropAllocated, freed, setArr, Nat.mul_one]
    omega

lemma Swept.trans {p' p'' : Bufpool} {k k' : ℕ} (h : Swept p p' k) (h' : Swept p' p'' k') :
    Swept p p'' (k + k') := by
  refine ⟨?_, fun i b hi => h.mem i b (h'.mem i b hi), ?_, ?_⟩
  · obtain ⟨h₁, h₂, h₃, h₄, h₅, h₆⟩ := h.sizes
    obtain ⟨g₁, g₂, g₃, g₄, g₅, g₆⟩ := h'.sizes
    exact ⟨g₁.trans h₁, g₂.trans h₂, g₃.trans h₃, g₄.trans h₄, g₅.trans h₅, g₆.trans h₆⟩
  · have hcard := h.card
    have hcard' := h'.card
    omega
  · have halloc := h.allocated
    have halloc' := h'.allocated
    rw [h.sizes.nodesPerArr] at halloc'
    rw [Nat.mul_add]
    omega

/-- The loop of `posal_bufpool_pool_free_unused_lists`. -/
lemma freeUnusedFrom_swept {count i : ℕ} (h : Occupied p live handed)
    (hle : i + count ≤ p.numOfNodeArrays) :
    Occupied (freeUnusedFrom count i p) live handed ∧ ∃ k, Swept p (freeUnusedFrom count i p) k ∧
        (k = 0 → ∀ i', i ≤ i' → i' < i + count → ¬ p.EmptyArr i') := by
  induction count generalizing i p with
  | zero => exact ⟨h, 0, Swept.refl p, fun _ i' _ _ => by omega⟩
  | succ count ih =>
    unfold freeUnusedFrom
    split
    · rename_i hempty
      have hmem : p.mem i ≠ none := Option.isSome_iff_ne_none.mp hempty.1
      have hin : i ∈ p.arrays := mem_arrays.mpr ⟨by omega, hempty.1⟩
      have hbits : ∀ j, p.bit i j = false := by
        intro j
        rw [bit, hempty.2, Nat.zero_testBit]
      have hone := Swept.free hin (lt_of_le_of_lt h.sized.le (by omega))
      rw [freeNodesArr_of_empty hmem (by omega) hempty.2]
      have hbound : i + 1 + count ≤ (p.freed i).dropAllocated.numOfNodeArrays := by
        rw [hone.sizes.numOfNodeArrays]
        omega
      obtain ⟨hocc, k, hswept, _⟩ := ih (h.freed hbits).dropAllocated hbound
      exact ⟨hocc, 1 + k, hone.trans hswept, fun hzero => by omega⟩
    · rename_i hempty
      obtain ⟨hocc, k, hswept, hk⟩ := ih (i := i + 1) h (by omega)
      refine ⟨hocc, k, hswept, ?_⟩
      intro hzero i' hi' hlt
      by_cases heq : i' = i
      · rintro ⟨hmem, hmask⟩
        rw [heq] at hmem hmask
        exact hempty ⟨Option.isSome_iff_ne_none.mpr hmem, hmask⟩
      · exact hk hzero i' (by omega) (by omega)

/-- The counter is right after `posal_bufpool_pool_free_unused_lists` exactly when there was
nothing to free. -/
lemma counted_freeUnusedLists_iff (h : Occupied p live handed) (hcount : p.Counted) :
    p.freeUnusedLists.Counted ↔ ∀ i < p.numOfNodeArrays, ¬ p.EmptyArr i := by
  obtain ⟨hocc, k, hswept, hk⟩ := freeUnusedFrom_swept h (Nat.le_of_eq (Nat.zero_add _))
  constructor
  · intro hcount' i hi
    refine hk ?_ i (Nat.zero_le i) (by omega)
    have hroom := h.sized.arrays_lt
    have halloc := hswept.allocated
    have hpos := h.sized.pos
    have hsplit : p.nodesPerArr * p.arrays.card =
        p.nodesPerArr * (freeUnusedFrom p.numOfNodeArrays 0 p).arrays.card + p.nodesPerArr * k := by
      rw [← Nat.mul_add, hswept.card]
    unfold Counted at hcount
    change (freeUnusedFrom p.numOfNodeArrays 0 p).Counted at hcount'
    rw [Counted, hswept.sizes.nodesPerArr] at hcount'
    have hzero : p.nodesPerArr * k = 0 := by omega
    rcases Nat.mul_eq_zero.mp hzero with hnone | hzero
    · omega
    · exact hzero
  · intro hnone
    rw [freeUnusedLists, freeUnusedFrom_of_none fun i _ hi => hnone i (by omega)]
    exact hcount

end Bufpool

/-! ## Runs -/

/-- A pool, and the nodes that clients have. -/
structure PoolRun where
  pool : Bufpool
  /-- The nodes that were handed out and not returned. -/
  live : Finset NodePtr
  handed : Finset NodePtr

/-- A call of a client. -/
inductive PoolCall
  /-- `posal_bufpool_get_node`; `allocated` tells whether an array can be allocated. -/
  | getNode (allocated : Bool)
  /-- `posal_bufpool_return_node`. -/
  | returnNode (node : NodePtr)
  /-- `posal_bufpool_pool_free_unused_lists`. -/
  | freeUnusedLists

namespace PoolRun

open Bufpool

/-- What a call does. -/
def step (s : PoolRun) : PoolCall → PoolRun
  | .getNode allocated =>
    match s.pool.getNode allocated with
    | (none, p) => { s with pool := p }
    | (some node, p) => ⟨p, insert node s.live, insert node s.handed⟩
  | .returnNode node => { s with pool := s.pool.returnNode node, live := s.live.erase node }
  | .freeUnusedLists => { s with pool := s.pool.freeUnusedLists }

/-- A client returns a node that it was given, while the array of the node is there. -/
def Valid (s : PoolRun) : PoolCall → Prop
  | .returnNode node => node ∈ s.handed ∧ ∃ i, s.pool.mem i = some node.block
  | _ => True

/-- `posal_bufpool_pool_free_unused_lists` finds no array to free. -/
def KeepsCount (s : PoolRun) : PoolCall → Prop
  | .freeUnusedLists => ∀ i < s.pool.numOfNodeArrays, ¬ s.pool.EmptyArr i
  | _ => True

instance (s : PoolRun) : (a : PoolCall) → Decidable (s.KeepsCount a)
  | .freeUnusedLists =>
    inferInstanceAs (Decidable (∀ i < s.pool.numOfNodeArrays, ¬ s.pool.EmptyArr i))
  | .getNode _ => inferInstanceAs (Decidable True)
  | .returnNode _ => inferInstanceAs (Decidable True)

/-- The counters, and the bytes of the live nodes with their headers. -/
structure Consistent (s : PoolRun) : Prop where
  /-- `used_nodes` is the number of the bits. -/
  usedNodes_bits : s.pool.usedNodes = s.pool.setBits.card
  /-- `used_nodes` is the number of the live nodes. -/
  usedNodes_live : s.pool.usedNodes = s.live.card
  /-- `allocated_nodes` is the number of the nodes of all arrays. -/
  allocatedNodes : s.pool.allocatedNodes = s.pool.nodesPerArr * s.pool.arrays.card
  inside : ∀ n ∈ s.live, ∃ i < s.pool.numOfNodeArrays, s.pool.mem i = some n.block ∧
    s.pool.headerSize ≤ n.offset ∧ n.offset + s.pool.nodeSize ≤ s.pool.arrSize
  disjoint : ∀ m ∈ s.live, ∀ n ∈ s.live, m ≠ n → m.block = n.block →
    m.offset + s.pool.nodeSize ≤ n.offset - s.pool.headerSize ∨
      n.offset + s.pool.nodeSize ≤ m.offset - s.pool.headerSize

/-- What a call guarantees. -/
structure Behaves (s : PoolRun) (a : PoolCall) : Prop where
  /-- An array is freed only when no live node is in it. -/
  freed : ∀ i b, s.pool.mem i = some b → (s.step a).pool.mem i ≠ some b →
    ∀ n ∈ (s.step a).live, n.block ≠ b
  new : ∀ allocated n, a = .getNode allocated → (s.pool.getNode allocated).1 = some n → n ∉ s.live
  /-- There is no node only if an allocation failed or all arrays are full. -/
  full : ∀ allocated, a = .getNode allocated → (s.pool.getNode allocated).1 = none →
    s.pool.NoNode allocated
  /-- Returning a node that is not live changes nothing. -/
  idle : ∀ n, a = .returnNode n → n ∉ s.live → s.pool.returnNode n = s.pool

/-- The nodes that clients have agree with the pool. -/
def Sound (s : PoolRun) : Prop := Occupied s.pool s.live s.handed

/-! ## One call -/

/-- What a call of a client can do. -/
inductive Stepped (s : PoolRun) : PoolCall → PoolRun → Prop
  /-- There is no node to hand out. -/
  | refused {allocated : Bool} (hnone : (s.pool.getNode allocated).1 = none)
      (hfull : s.pool.NoNode allocated) : Stepped s (.getNode allocated) s
  /-- A free node is taken. -/
  | took {allocated : Bool} {p : Bufpool} {i k : ℕ} {b : Addr} (htakes : Takes s.pool p i k b)
      (hsome : (s.pool.getNode allocated).1 = some ⟨b, p.nodeOffset k⟩) :
      Stepped s (.getNode allocated) ⟨p.taken i k b, insert ⟨b, p.nodeOffset k⟩ s.live,
        insert ⟨b, p.nodeOffset k⟩ s.handed⟩
  /-- A node that is not live is returned. -/
  | ignored {n : NodePtr} (hn : n ∉ s.live) (hsame : s.pool.returnNode n = s.pool) :
      Stepped s (.returnNode n) s
  /-- A live node is returned, and its array stays or goes. -/
  | released {b : Addr} {i j : ℕ} {p : Bufpool} (hmem : s.pool.mem i = some b)
      (hbit : s.pool.bit i j = true)
      (hpool : p = s.pool.releaseNode i j ∨ (∀ j', (s.pool.releaseNode i j).bit i j' = false) ∧
          p = (s.pool.releaseNode i j).freed i) :
      Stepped s (.returnNode ⟨b, s.pool.nodeOffset j⟩)
        ⟨p, s.live.erase ⟨b, s.pool.nodeOffset j⟩, s.handed⟩
  /-- The empty arrays are freed. -/
  | swept {k : ℕ} (hocc : Occupied s.pool.freeUnusedLists s.live s.handed)
      (hswept : Swept s.pool s.pool.freeUnusedLists k) :
      Stepped s .freeUnusedLists { s with pool := s.pool.freeUnusedLists }

variable {s s' : PoolRun} {a : PoolCall}

/-- Every call does one of these things. -/
lemma Sound.stepped (h : s.Sound) (hv : s.Valid a) : Stepped s a (s.step a) := by
  cases a with
  | getNode allocated =>
    rcases getNode_cases h allocated with ⟨hget, hfull⟩ | ⟨p, i, k, b, htakes, hget⟩
    · have hstep : s.step (.getNode allocated) = s := by
        simp only [step, hget]
      rw [hstep]
      exact .refused (by rw [hget]) hfull
    · simp only [step, hget]
      exact .took htakes (by rw [hget])
  | returnNode n =>
    obtain ⟨hn, i, hmem⟩ := hv
    obtain ⟨j, hplace, hlive, hreturn⟩ := Occupied.place h hn hmem
    cases hbit : s.pool.bit i j with
    | false =>
      rw [hbit] at hlive hreturn
      have hdead : n ∉ s.live := fun hl => Bool.false_ne_true (hlive.mp hl)
      have hsame : s.pool.returnNode n = s.pool := hreturn
      have hstep : s.step (.returnNode n) = s := by
        simp only [step, hsame, Finset.erase_eq_of_notMem hdead]
      rw [hstep]
      exact .ignored hdead hsame
    | true =>
      rw [hbit, if_pos rfl] at hreturn
      have hthere : (s.pool.releaseNode i j).mem i ≠ none := by simp [hmem]
      have hindex : i < (s.pool.releaseNode i j).numOfNodeArrays := by
        exact h.inRange i (by simp [hmem])
      have hstep : Stepped s (.returnNode ⟨n.block, s.pool.nodeOffset j⟩)
          ⟨s.pool.returnNode n, s.live.erase ⟨n.block, s.pool.nodeOffset j⟩, s.handed⟩ := by
        refine .released hmem hbit ?_
        rw [hreturn]
        exact freeIfUnused_cases hthere hindex
      rw [← hplace] at hstep
      exact hstep
  | freeUnusedLists =>
    obtain ⟨hocc, k, hswept, _⟩ := freeUnusedFrom_swept h (Nat.le_of_eq (Nat.zero_add _))
    exact .swept hocc hswept

lemma Takes.occupied {p p₁ : Bufpool} {live handed : Finset NodePtr} {i k : ℕ} {b : Addr}
    (h : Occupied p live handed) (htakes : Takes p p₁ i k b) : Occupied p₁ live handed := by
  obtain rfl | ⟨index, hindex, hnone, rfl⟩ := htakes.pool
  · exact h
  · exact h.newArr hindex hnone

lemma Sound.next (h : s.Sound) (hstep : Stepped s a s') : s'.Sound := by
  cases hstep with
  | refused hnone hfull => exact h
  | took htakes hsome => exact (Takes.occupied h htakes).taken htakes.lt htakes.mem htakes.free
  | ignored hn hsame => exact h
  | released hmem hbit hpool =>
    rcases hpool with rfl | ⟨hempty, rfl⟩
    · exact Occupied.releaseNode h hmem hbit
    · exact (Occupied.releaseNode h hmem hbit).freed hempty
  | swept hocc hswept => exact hocc

/-- A call frees arrays and allocates new ones, and leaves the others where they are. -/
lemma Stepped.mem (hstep : Stepped s a s') {i : ℕ} {b : Addr} (hi : s'.pool.mem i = some b) :
    s.pool.mem i = some b ∨ b = s.pool.nextBlock := by
  cases hstep with
  | refused hnone hfull => exact Or.inl hi
  | took htakes hsome =>
    rw [mem_taken] at hi
    obtain rfl | ⟨index, hindex, hnone, rfl⟩ := htakes.pool
    · exact Or.inl hi
    · rw [mem_newArr] at hi
      split at hi
      · exact Or.inr (Option.some_inj.mp hi).symm
      · exact Or.inl hi
  | ignored hn hsame => exact Or.inl hi
  | released hmem hbit hpool =>
    rcases hpool with rfl | ⟨hempty, rfl⟩
    · exact Or.inl (by rwa [mem_releaseNode] at hi)
    · rw [mem_freed] at hi
      split at hi
      · cases hi
      · exact Or.inl (by rwa [mem_releaseNode] at hi)
  | swept hocc hswept => exact Or.inl (hswept.mem i b hi)

/-- **One call of the counter.** A call keeps `allocated_nodes` right exactly when it is not a
sweep that finds an array to free. -/
lemma Sound.counted_iff (h : s.Sound) (hcount : s.pool.Counted) (hstep : Stepped s a s') :
    s'.pool.Counted ↔ s.KeepsCount a := by
  cases hstep with
  | refused hnone hfull => exact iff_of_true hcount trivial
  | @took allocated p i k b htakes hsome =>
    have hgrown : p.Counted := by
      obtain rfl | ⟨index, hindex, hnone, rfl⟩ := htakes.pool
      · exact hcount
      · exact hcount.newArr h.sized hindex hnone
    exact iff_of_true (hgrown.congr (p.sameSizes_taken i k b) (fun i' => p.mem_taken i k i' b) rfl)
      trivial
  | ignored hn hsame => exact iff_of_true hcount trivial
  | @released b i j p hmem hbit hpool =>
    have hreleased : (s.pool.releaseNode i j).Counted :=
      hcount.congr (s.pool.sameSizes_releaseNode i j) (fun i' => s.pool.mem_releaseNode i j i') rfl
    refine iff_of_true ?_ trivial
    rcases hpool with rfl | ⟨hempty, rfl⟩
    · exact hreleased
    · have hsizes := s.pool.sameSizes_releaseNode i j
      have hin : i ∈ (s.pool.releaseNode i j).arrays := by
        rw [mem_arrays, mem_releaseNode, hmem, hsizes.numOfNodeArrays]
        exact ⟨h.inRange i (by simp [hmem]), rfl⟩
      exact hreleased.freed (hsizes.sized h.sized) hin
  | swept hocc hswept => exact counted_freeUnusedLists_iff h hcount

/-- Every call does what it guarantees. -/
lemma Sound.behaves (h : s.Sound) (hv : s.Valid a) : s.Behaves a := by
  have hstep := h.stepped hv
  have hnext := h.next hstep
  refine ⟨?_, ?_, ?_, ?_⟩
  · intro i b hi hgone n hn hblock
    obtain ⟨i', j, _, hi', _⟩ := (hnext.live_iff n).mp hn
    rw [hblock] at hi'
    rcases hstep.mem hi' with hold | hnew
    · rw [h.distinct i i' b hi hold] at hgone
      exact hgone hi'
    · exact absurd (h.old i b hi) (hnew ▸ Nat.lt_irrefl _)
  · rintro allocated n rfl hsome hn
    generalize s.step (.getNode allocated) = s' at hstep
    cases hstep with
    | refused hnone hfull =>
      rw [hnone] at hsome
      cases hsome
    | took htakes hsome' =>
      rw [hsome'] at hsome
      obtain rfl := Option.some_inj.mp hsome
      have hbit := ((Takes.occupied h htakes).bit_of_live htakes.mem rfl).mp hn
      rw [htakes.free] at hbit
      cases hbit
  · rintro allocated rfl hnone
    generalize s.step (.getNode allocated) = s' at hstep
    cases hstep with
    | refused _ hfull => exact hfull
    | took htakes hsome =>
      rw [hnone] at hsome
      cases hsome
  · rintro n rfl hn
    generalize s.step (.returnNode n) = s' at hstep
    cases hstep with
    | ignored _ hsame => exact hsame
    | released hmem hbit hpool =>
      exact absurd ((Occupied.bit_of_live h hmem rfl).mpr hbit) hn

/-! ## The bytes of the nodes -/

/-- The nodes of an array are inside it, and no two of them overlap. -/
lemma Sound.consistent (h : s.Sound) (hcount : s.pool.Counted) : s.Consistent := by
  refine ⟨h.usedNodes, ?_, hcount, ?_, ?_⟩
  · rw [h.usedNodes, h.live_card]
  · intro n hn
    obtain ⟨i, j, hbit, hmem, hoffset⟩ := (h.live_iff n).mp hn
    have hj := (h.bits i j hbit).1
    refine ⟨i, h.inRange i (by simp [hmem]), hmem, ?_, ?_⟩
    · rw [hoffset]
      exact Nat.le_add_left _ _
    · have hlast : (j + 1) * s.pool.stride ≤ s.pool.nodesPerArr * s.pool.stride :=
        Nat.mul_le_mul_right _ hj
      rw [hoffset, arrSize, Nat.mul_comm]
      simp only [nodeOffset, headerOffset, Nat.succ_mul] at hlast ⊢
      have hstride : s.pool.stride =
          s.pool.headerSize + s.pool.alignPaddingSize + s.pool.nodeSize := rfl
      omega
  · intro m hm n hn hne hblock
    obtain ⟨i, j, hbit, hmem, hoffset⟩ := (h.live_iff m).mp hm
    obtain ⟨i', j', hbit', hmem', hoffset'⟩ := (h.live_iff n).mp hn
    have hjj : j ≠ j' := by
      rintro rfl
      apply hne
      obtain ⟨block, offset⟩ := m
      obtain ⟨block', offset'⟩ := n
      simp only at hblock hoffset hoffset'
      rw [hblock, hoffset, hoffset']
    have hstride : s.pool.stride =
        s.pool.headerSize + s.pool.alignPaddingSize + s.pool.nodeSize := rfl
    rw [hoffset, hoffset']
    simp only [nodeOffset, headerOffset]
    rcases Nat.lt_or_gt_of_ne hjj with hlt | hgt
    · left
      have hnext : (j + 1) * s.pool.stride ≤ j' * s.pool.stride := Nat.mul_le_mul_right _ hlt
      rw [Nat.succ_mul] at hnext
      omega
    · right
      have hnext : (j' + 1) * s.pool.stride ≤ j * s.pool.stride := Nat.mul_le_mul_right _ hgt
      rw [Nat.succ_mul] at hnext
      omega

/-- The state right after the creation of the pool. -/
def start (p : Bufpool) : PoolRun := ⟨p, ∅, ∅⟩

section Creation

variable {nodeSize numArrays : ℕ} {eightByteAlign : Bool} {nodesPerArr headerSize : ℕ}
  {poolIndex : Fin 8} {headers : Addr → ℕ → NodeHeader} {nextBlock : Addr}
  {poolAllocated arrAllocated : Bool} {p : Bufpool}

/-- A pool without arrays. -/
lemma occupied_setUp (hnodes : 0 < nodesPerArr) (hle : nodesPerArr ≤ 32) (hheader : 0 < headerSize)
    (harrays : numArrays ≤ 16384) (hcapacity : numArrays * nodesPerArr < 65536) :
    Occupied (setUp nodeSize numArrays eightByteAlign nodesPerArr headerSize poolIndex headers
      nextBlock) ∅ ∅ := by
  have hnum : numArrays % 65536 = numArrays := Nat.mod_eq_of_lt (by omega)
  have hbits : (setUp nodeSize numArrays eightByteAlign nodesPerArr headerSize poolIndex headers
      nextBlock).setBits = ∅ := by
    ext ⟨i, j⟩
    simp [mem_setBits, bit, setUp]
  refine ⟨⟨hnodes, hle, ?_, ?_, poolIndex.isLt, hheader⟩, ?_, ?_, ?_, ?_, ?_, ?_, ?_, ?_, ?_, ?_⟩
  · simp only [setUp, hnum]
    exact harrays
  · simp only [setUp, hnum]
    exact hcapacity
  · intro i j hij
    simp [bit, setUp] at hij
  · intro i hi
    exact absurd rfl hi
  · intro i b hi
    cases hi
  · intro i i' b hi
    cases hi
  · intro n
    simp [bit, setUp]
  · rw [hbits]
    rfl
  · rw [hbits]
    rfl
  · simp
  · simp
  · exact Finset.Subset.refl _

/-- A new pool has its first array and no node in use. -/
lemma sound_start (hcreate : create nodeSize numArrays eightByteAlign nodesPerArr headerSize
      poolIndex headers nextBlock poolAllocated arrAllocated = some p)
    (hnodes : 0 < nodesPerArr) (hheader : 0 < headerSize) (harrays : numArrays ≤ 16384)
    (hcapacity : numArrays * nodesPerArr < 65536) : (start p).Sound ∧ p.Counted := by
  unfold create at hcreate
  split_ifs at hcreate with hmax hpool
  have hocc : Occupied (setUp nodeSize numArrays eightByteAlign nodesPerArr headerSize poolIndex
      headers nextBlock) ∅ ∅ :=
    occupied_setUp hnodes (Nat.le_of_not_lt hmax) hheader harrays hcapacity
  have hcount : (setUp nodeSize numArrays eightByteAlign nodesPerArr headerSize poolIndex
      headers nextBlock).Counted := by
    simp [Counted, arrays, mem, setUp]
  have hnone : (setUp nodeSize numArrays eightByteAlign nodesPerArr headerSize poolIndex
      headers nextBlock).mem 0 = none := rfl
  generalize setUp nodeSize numArrays eightByteAlign nodesPerArr headerSize poolIndex headers
    nextBlock = p₀ at hcreate hocc hcount hnone
  unfold allocateNewNodesArr at hcreate
  split_ifs at hcreate with hzero hsome harr
  · rw [show (p₀.nodesPtr 0).memStartAddr = none from hnone] at hsome
    cases hsome
  · cases hcreate
    exact ⟨hocc.newArr (by omega) hnone, hcount.newArr hocc.sized (by omega) hnone⟩

/-- **Buffer pools.** Let a pool be created with 1 to 32 nodes in an array, fewer than 65536 nodes
in all and at most 16384 arrays, so that the index of an array fits a header.  In a run in which
clients return nodes that they were given, while the arrays of these are there, and in which any
allocation may fail, the counters, the bitmasks and the live nodes agree and every call does what
it guarantees, in every state that the run passes through, if and only if no call of
`posal_bufpool_pool_free_unused_lists` finds an array to free. -/
theorem bufpool_consistent_iff (hcreate : create nodeSize numArrays eightByteAlign nodesPerArr
      headerSize poolIndex headers nextBlock poolAllocated arrAllocated = some p)
    (hnodes : 0 < nodesPerArr) (hheader : 0 < headerSize) (harrays : numArrays ≤ 16384)
    (hcapacity : numArrays * nodesPerArr < 65536) {calls : List PoolCall}
    (hvalid : Meets step Valid (start p) calls) :
    Along step Consistent (start p) calls ∧ Meets step Behaves (start p) calls ↔
      Meets step KeepsCount (start p) calls := by
  obtain ⟨hsound, hcount⟩ := sound_start hcreate hnodes hheader harrays hcapacity
  refine (meets_iff_along_of_meets (J := Sound) (V := Valid) ?_ ?_ hsound
    (hsound.consistent hcount) hvalid).symm
  · intro s a h hv
    exact h.next (h.stepped hv)
  · intro s a h hcons hv
    have hstep := h.stepped hv
    rw [← h.counted_iff hcons.allocatedNodes hstep]
    constructor
    · intro hnext
      exact ⟨(h.next hstep).consistent hnext, h.behaves hv⟩
    · intro hboth
      exact hboth.1.allocatedNodes

end Creation

local instance : NeZero 8 := ⟨by decide⟩

/-- A pool of two arrays with one node each. -/
def smallPool : Bufpool :=
  (setUp 8 2 false 1 4 0 (fun _ _ => ⟨0, 0, 0, 0⟩) 0).newArr 0

/-- Two nodes are taken, a sweep finds nothing, and one of the nodes is returned twice. -/
theorem bufpool_consistent_small :
    Along step Consistent (start smallPool) [.getNode true, .getNode true, .freeUnusedLists,
        .returnNode ⟨1, 4⟩, .returnNode ⟨1, 4⟩] ∧
      Meets step Behaves (start smallPool) [.getNode true, .getNode true, .freeUnusedLists,
        .returnNode ⟨1, 4⟩, .returnNode ⟨1, 4⟩] := by
  have hcreate : create 8 2 false 1 4 0 (fun _ _ => ⟨0, 0, 0, 0⟩) 0 true true =
      some smallPool := rfl
  refine (bufpool_consistent_iff hcreate (by decide) (by decide) (by decide) (by decide) ?_).mpr ?_
  · exact ⟨trivial, trivial, trivial, ⟨by decide, 1, by decide⟩, ⟨by decide, 1, by decide⟩, trivial⟩
  · exact ⟨trivial, trivial, by decide, trivial, trivial, trivial⟩

/-- A sweep right after the creation frees the only array and leaves `allocated_nodes` at 65535. -/
theorem not_bufpool_counted :
    ¬ ∀ (nodeSize numArrays : ℕ) (eightByteAlign : Bool) (nodesPerArr headerSize : ℕ)
        (poolIndex : Fin 8) (headers : Addr → ℕ → NodeHeader) (nextBlock : Addr)
        (poolAllocated arrAllocated : Bool) (p : Bufpool) (calls : List PoolCall),
      create nodeSize numArrays eightByteAlign nodesPerArr headerSize poolIndex headers nextBlock
        poolAllocated arrAllocated = some p →
      0 < nodesPerArr → 0 < headerSize → numArrays ≤ 16384 → numArrays * nodesPerArr < 65536 →
      Meets step Valid (start p) calls →
      Along step (fun s => s.pool.Counted) (start p) calls := by
  intro h
  have hcreate : create 8 2 false 1 4 0 (fun _ _ => ⟨0, 0, 0, 0⟩) 0 true true =
      some smallPool := rfl
  have hlast := (h _ _ _ _ _ _ _ _ _ _ _ [.freeUnusedLists] hcreate (by decide) (by decide)
    (by decide) (by decide) ⟨trivial, trivial⟩).last
  unfold Counted at hlast
  exact absurd hlast (by decide)

end PoolRun

end AudioReach
