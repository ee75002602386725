import Mathlib.Data.List.Pairwise
import Mathlib.Order.Nat
import AudioReach.GraphUtils.Async
import AudioReach.Library.Assign

/-!
# Port tables

The ports of one direction form a table: for every module its ports in index order, the
counter, the limit, the index of every port and the module that owns it.  Input and output ports
are the two tables `GuWorld.ins` and `GuWorld.outs` of a graph, so that what holds of a
table is proved once.

`PortTable.Ok` is the state a table is meant to be in: the counter is the number of
ports, no module exceeds its limit, the ports of a module are in strictly increasing
index order with all indices below the limit.  The rest of the file shows which updates keep it.
-/

namespace AudioReach

open Function (update update_of_ne update_self)
open List Library

/-! ## The smallest available index -/

namespace GuWorld

variable {index : Addr → ℕ}

/-- What the search finds: a place in the list and the free index that belongs there. -/
structure Gap (index : Addr → ℕ) (ports : List Addr) (r : ℕ × List Addr × List Addr) :
    Prop where
  /-- The ports before and after the place are all ports. -/
  append : r.2.1 ++ r.2.2 = ports
  before : ∀ p ∈ r.2.1, index p < r.1
  after : ∀ p ∈ r.2.2, r.1 < index p
  le : r.1 ≤ ports.length
  least : ∀ k < r.1, ∃ p ∈ ports, index p = k

section

variable {ports : List Addr} (hsorted : ports.Pairwise fun p p' => index p < index p')
include hsorted

/-- The search behind a port of index `q`, when the ports passed have the indices up to `q`. -/
lemma smallestAvailableIndex_some {q : ℕ} (hq : ∀ p ∈ ports, q < index p) :
    let r := smallestAvailableIndex index (some q) (q + 1) ports
    r.2.1 ++ r.2.2 = ports ∧ (∀ p ∈ r.2.1, index p < r.1) ∧ (∀ p ∈ r.2.2, r.1 < index p) ∧
      r.1 ≤ q + 1 + ports.length ∧ q < r.1 ∧
      ∀ k, q < k → k < r.1 → ∃ p ∈ ports, index p = k := by
  induction ports generalizing q with
  | nil =>
    simp only [smallestAvailableIndex]
    refine ⟨rfl, by simp, by simp, by simp, by omega, ?_⟩
    intro k hk hk'
    omega
  | cons p ports ih =>
    obtain ⟨hp, hsorted⟩ := pairwise_cons.mp hsorted
    have hqp : q < index p := hq p mem_cons_self
    unfold smallestAvailableIndex
    by_cases hgap : q + 1 < index p
    · rw [if_pos hgap]
      refine ⟨rfl, by simp, ?_, by simp, by simp, ?_⟩
      · intro p' hp'
        rcases mem_cons.mp hp' with rfl | hp'
        · exact hgap
        · exact hgap.trans (hp p' hp')
      · intro k hk hk'
        omega
    · rw [if_neg hgap]
      -- no gap here: the port has the index that follows, and the search goes on behind it
      have hindex : index p = q + 1 := by omega
      obtain ⟨happend, hbefore, hafter, hle, hlt, hleast⟩ := ih hsorted hp
      rw [hindex] at happend hbefore hafter hle hlt hleast ⊢
      refine ⟨?_, ?_, hafter, ?_, ?_, ?_⟩
      · exact congrArg (p :: ·) happend
      · intro p' hp'
        rcases mem_cons.mp hp' with rfl | hp'
        · rw [hindex]
          exact hlt
        · exact hbefore p' hp'
      · simp only [length_cons]
        omega
      · exact (Nat.lt_succ_self q).trans hlt
      · intro k hk hk'
        rcases eq_or_lt_of_le (Nat.succ_le_of_lt hk) with hk'' | hk''
        · exact ⟨p, mem_cons_self, by omega⟩
        · obtain ⟨p', hp', hkp'⟩ := hleast k hk'' hk'
          exact ⟨p', mem_cons_of_mem p hp', hkp'⟩

/-- `gu_move_port_to_smallest_available_index` finds the smallest free index and its place. -/
lemma smallestAvailableIndex_gap : Gap index ports (smallestAvailableIndex index none 0 ports) := by
  cases ports with
  | nil =>
    unfold smallestAvailableIndex
    refine ⟨rfl, by simp, by simp, le_rfl, ?_⟩
    intro k hk
    exact absurd hk (Nat.not_lt_zero k)
  | cons p ports =>
    obtain ⟨hp, hsorted⟩ := pairwise_cons.mp hsorted
    unfold smallestAvailableIndex
    by_cases hgap : 0 < index p
    · rw [if_pos hgap]
      refine ⟨rfl, by simp, ?_, Nat.zero_le _, ?_⟩
      · intro p' hp'
        rcases mem_cons.mp hp' with rfl | hp'
        · exact hgap
        · exact hgap.trans (hp p' hp')
      · intro k hk
        exact absurd hk (Nat.not_lt_zero k)
    · rw [if_neg hgap]
      have hindex : index p = 0 := Nat.eq_zero_of_not_pos hgap
      obtain ⟨happend, hbefore, hafter, hle, hlt, hleast⟩ :=
        smallestAvailableIndex_some hsorted hp
      rw [hindex] at happend hbefore hafter hle hlt hleast ⊢
      refine ⟨?_, ?_, hafter, ?_, ?_⟩
      · exact congrArg (p :: ·) happend
      · intro p' hp'
        rcases mem_cons.mp hp' with rfl | hp'
        · rw [hindex]
          exact hlt
        · exact hbefore p' hp'
      · simp only [length_cons]
        omega
      · intro k hk
        rcases Nat.eq_zero_or_pos k with rfl | hk'
        · exact ⟨p, mem_cons_self, hindex⟩
        · obtain ⟨p', hp', hkp'⟩ := hleast k hk' hk
          exact ⟨p', mem_cons_of_mem p hp', hkp'⟩

end

end GuWorld

/-! ## Tables -/

/-- The ports of one direction. -/
structure PortTable where
  ports : Addr → List Addr
  num : Addr → ℕ
  max : Addr → ℕ
  index : Addr → ℕ
  owner : Addr → Addr

/-- The input ports. -/
def GuWorld.ins (w : GuWorld) : PortTable :=
  ⟨w.inputPortList, w.numInputPorts, w.maxInputPorts, w.inIndex, w.inModule⟩

/-- The output ports. -/
def GuWorld.outs (w : GuWorld) : PortTable :=
  ⟨w.outputPortList, w.numOutputPorts, w.maxOutputPorts, w.outIndex, w.outModule⟩

namespace PortTable

/-- The table is in order; `next` is the next free address. -/
structure Ok (t : PortTable) (next : Addr) : Prop where
  count : ∀ m, t.num m = (t.ports m).length
  sorted : ∀ m, (t.ports m).Pairwise fun p p' => t.index p < t.index p'
  below : ∀ m, ∀ p ∈ t.ports m, t.index p < t.max m
  limit : ∀ m, (t.ports m).length ≤ t.max m
  /-- Limits are far from the range of the counters. -/
  small : ∀ m, t.max m ≤ 100
  owned : ∀ m, ∀ p ∈ t.ports m, t.owner p = m
  allocated : ∀ m, ∀ p ∈ t.ports m, p < next

variable {t : PortTable} {next : Addr}

/-- The table after a port was inserted by index. -/
def insert (t : PortTable) (m p : Addr) : PortTable :=
  { t with
    ports := update t.ports m (GuWorld.insertByIndex t.index (t.ports m) p)
    index := update t.index p (GuWorld.availableIndex t.index (t.ports m))
    num := update t.num m (incU8 (t.num m)) }

/-- The table after a module was cleared. -/
def clear (t : PortTable) (m : Addr) (limit : ℕ) : PortTable :=
  { t with
    ports := update t.ports m []
    num := update t.num m 0
    max := update t.max m limit }

/-- The table after a port was created. -/
def create (t : PortTable) (p m : Addr) : PortTable :=
  { t with
    owner := update t.owner p m
    index := update t.index p 0 }

/-- The table with another limit for one module. -/
def setMax (t : PortTable) (m : Addr) (limit : ℕ) : PortTable :=
  { t with max := update t.max m limit }

/-- The table after ports of one module were removed. -/
def restrict (t : PortTable) (m : Addr) (ports : List Addr) (num : ℕ) : PortTable :=
  { t with
    ports := update t.ports m ports
    num := update t.num m num }

namespace Ok

/-- More addresses do not hurt. -/
lemma mono (h : t.Ok next) {next' : Addr} (hle : next ≤ next') : t.Ok next' :=
  { h with allocated := fun m p hp => (h.allocated m p hp).trans_le hle }

section

variable {limit : ℕ} {m : Addr} (h : t.Ok next)
include h

/-- A new port keeps the table right. -/
lemma create (m : Addr) : (t.create next m).Ok (next + 1) := by
  have hne : ∀ m', ∀ p ∈ t.ports m', p ≠ next := fun m' p hp => (h.allocated m' p hp).ne
  refine ⟨h.count, ?_, ?_, h.limit, h.small, ?_, ?_⟩
  · intro m'
    refine (h.sorted m').imp_of_mem ?_
    intro p p' hp hp' hlt
    simp only [PortTable.create, update_of_ne (hne m' p hp), update_of_ne (hne m' p' hp')]
    exact hlt
  · intro m' p hp
    simp only [PortTable.create, update_of_ne (hne m' p hp)]
    exact h.below m' p hp
  · intro m' p hp
    simp only [PortTable.create, update_of_ne (hne m' p hp)]
    exact h.owned m' p hp
  · intro m' p hp
    exact (h.allocated m' p hp).trans (Nat.lt_succ_self next)

/-- Emptying a module keeps the table in order. -/
lemma clear (m : Addr) (hlimit : limit ≤ 100) : (t.clear m limit).Ok next := by
  refine ⟨?_, ?_, ?_, ?_, ?_, ?_, ?_⟩
  · exact forall_update₂ (p := fun _ n (l : List Addr) => n = l.length) h.count rfl
  · exact forall_update
      h.sorted .nil
  · exact forall_update₂ (p := fun _ l n => ∀ p ∈ l, t.index p < n) h.below (by simp)
  · exact forall_update₂ (p := fun _ (l : List Addr) n => l.length ≤ n) h.limit (Nat.zero_le _)
  · exact forall_update (p := fun _ n => n ≤ 100) h.small hlimit
  · exact forall_update (p := fun m l => ∀ p ∈ l, t.owner p = m) h.owned (by simp)
  · exact forall_update (p := fun _ l => ∀ p ∈ l, p < next) h.allocated (by simp)

/-- A limit that covers the ports of the module keeps the table in order. -/
lemma setMax (hlimit : limit ≤ 100) (hbelow : ∀ p ∈ t.ports m, t.index p < limit)
    (hlength : (t.ports m).length ≤ limit) : (t.setMax m limit).Ok next := by
  refine ⟨h.count, h.sorted, ?_, ?_, ?_, h.owned, h.allocated⟩
  · exact forall_update (p := fun m n => ∀ p ∈ t.ports m, t.index p < n) h.below hbelow
  · exact forall_update h.limit hlength
  · exact forall_update (p := fun _ n => n ≤ 100) h.small hlimit

/-- Removing ports of a module keeps the table in order. -/
lemma restrict {ports : List Addr} {num : ℕ} (hsub : ports.Sublist (t.ports m))
    (hnum : num = ports.length) : (t.restrict m ports num).Ok next := by
  have hports : ∀ m', ((t.restrict m ports num).ports m').Sublist (t.ports m') := by
    exact forall_update (p := fun m (l : List Addr) => l <+ t.ports m) (fun _ => .refl _) hsub
  refine ⟨?_, ?_, ?_, ?_, h.small, ?_, ?_⟩
  · exact forall_update₂ (p := fun _ n (l : List Addr) => n = l.length) h.count hnum
  · intro m'
    exact (h.sorted m').sublist (hports m')
  · intro m' p hp
    exact h.below m' p ((hports m').subset hp)
  · intro m'
    exact (hports m').length_le.trans (h.limit m')
  · intro m' p hp
    exact h.owned m' p ((hports m').subset hp)
  · intro m' p hp
    exact h.allocated m' p ((hports m').subset hp)

end

section Insert

variable {m p : Addr}

/-- The index that the code takes is the smallest available one. -/
lemma availableIndex_lt (h : t.Ok next) (m : Addr) : GuWorld.availableIndex t.index (t.ports m) =
      (GuWorld.smallestAvailableIndex t.index none 0 (t.ports m)).1 := by
  have hle := (GuWorld.smallestAvailableIndex_gap (h.sorted m)).le
  have hlimit := h.limit m
  have hsmall := h.small m
  exact Nat.mod_eq_of_lt (by omega)

/-- The ports after an insertion. -/
lemma mem_insert (h : t.Ok next) {q : Addr} :
    q ∈ (t.insert m p).ports m ↔ q = p ∨ q ∈ t.ports m := by
  have happend := (GuWorld.smallestAvailableIndex_gap (h.sorted m)).append
  simp only [PortTable.insert, update_self, GuWorld.insertByIndex]
  rw [mem_append, mem_cons]
  conv_rhs => rw [← happend, mem_append]
  tauto

/-- There is one port more. -/
lemma length_insert (h : t.Ok next) : ((t.insert m p).ports m).length = (t.ports m).length + 1 := by
  have happend := congrArg List.length (GuWorld.smallestAvailableIndex_gap (h.sorted m)).append
  rw [length_append] at happend
  simp only [PortTable.insert, update_self, GuWorld.insertByIndex, length_append, length_cons]
  omega

/-- **Insertion.** A port that is not listed yet can be inserted into a module that has
room. -/
theorem insert (h : t.Ok next) (howner : t.owner p = m) (hnew : p ∉ t.ports m)
    (halloc : p < next) (hroom : (t.ports m).length < t.max m) : (t.insert m p).Ok next := by
  have hgap := GuWorld.smallestAvailableIndex_gap (h.sorted m)
  have hindex := h.availableIndex_lt m
  have hnotin : ∀ m', p ∉ t.ports m' := by
    intro m' hp
    have hm := h.owned m' p hp
    rw [howner] at hm
    exact hnew (hm ▸ hp)
  have hold : ∀ m', ∀ q ∈ t.ports m', (t.insert m p).index q = t.index q := by
    intro m' q hq
    have hqp : q ≠ p := by
      rintro rfl
      exact hnotin m' hq
    simp only [PortTable.insert, update_of_ne hqp]
  have hother : ∀ m', m' ≠ m → (t.insert m p).ports m' = t.ports m' := by
    intro m' hm
    simp only [PortTable.insert, update_of_ne hm]
  have hself : (t.insert m p).index p = GuWorld.availableIndex t.index (t.ports m) := by
    simp only [PortTable.insert, update_self]
  have hat : (t.insert m p).ports m = GuWorld.insertByIndex t.index (t.ports m) p := update_self ..
  have hmem : ∀ {q}, q ∈ GuWorld.insertByIndex t.index (t.ports m) p → q = p ∨ q ∈ t.ports m :=
    fun hq => h.mem_insert.mp (hat ▸ hq)
  have hlength := h.length_insert (m := m) (p := p)
  rw [hat] at hlength
  refine ⟨?_, ?_, ?_, ?_, h.small, ?_, ?_⟩
  · refine forall_update₂ (p := fun _ n (l : List Addr) => n = l.length) h.count ?_
    have hsmall := h.small m
    rw [hlength, h.count m]
    exact Nat.mod_eq_of_lt (by omega)
  · intro m'
    by_cases hm : m' = m
    · subst hm
      -- the new index lies between those before and those after the place
      have happend := hgap.append
      have hparts := pairwise_append.mp (happend ▸ h.sorted m')
      have hmem : ∀ q ∈ (GuWorld.smallestAvailableIndex t.index none 0 (t.ports m')).2.1 ++
          (GuWorld.smallestAvailableIndex t.index none 0 (t.ports m')).2.2,
          (t.insert m' p).index q = t.index q := by
        intro q hq
        exact hold m' q (happend ▸ hq)
      have hlist : (t.insert m' p).ports m' =
          (GuWorld.smallestAvailableIndex t.index none 0 (t.ports m')).2.1 ++
            p :: (GuWorld.smallestAvailableIndex t.index none 0 (t.ports m')).2.2 := by
        simp only [PortTable.insert, update_self, GuWorld.insertByIndex]
      rw [hlist]
      refine pairwise_append.mpr ⟨?_, pairwise_cons.mpr ⟨?_, ?_⟩, ?_⟩
      · refine hparts.1.imp_of_mem ?_
        intro q q' hq hq' hlt
        rw [hmem q (mem_append_left _ hq), hmem q' (mem_append_left _ hq')]
        exact hlt
      · intro q hq
        rw [hself, hindex, hmem q (mem_append_right _ hq)]
        exact hgap.after q hq
      · refine hparts.2.1.imp_of_mem ?_
        intro q q' hq hq' hlt
        rw [hmem q (mem_append_right _ hq), hmem q' (mem_append_right _ hq')]
        exact hlt
      · intro q hq q' hq'
        rw [hmem q (mem_append_left _ hq)]
        rcases mem_cons.mp hq' with rfl | hq'
        · rw [hself, hindex]
          exact hgap.before q hq
        · rw [hmem q' (mem_append_right _ hq')]
          exact hparts.2.2 q hq q' hq'
    · rw [hother m' hm]
      refine (h.sorted m').imp_of_mem ?_
      intro q q' hq hq' hlt
      rw [hold m' q hq, hold m' q' hq']
      exact hlt
  · intro m' q hq
    by_cases hm : m' = m
    · subst hm
      rcases h.mem_insert.mp hq with rfl | hq
      · rw [hself, hindex]
        exact hgap.le.trans_lt hroom
      · rw [hold m' q hq]
        exact h.below m' q hq
    · rw [hother m' hm] at hq
      rw [hold m' q hq]
      exact h.below m' q hq
  · exact forall_update (p := fun m (l : List Addr) => l.length ≤ t.max m) h.limit (hlength ▸ hroom)
  · refine forall_update (p := fun m l => ∀ q ∈ l, t.owner q = m) h.owned fun q hq => ?_
    rcases hmem hq with rfl | hq
    · exact howner
    · exact h.owned m q hq
  · refine forall_update (p := fun _ l => ∀ q ∈ l, q < next) h.allocated fun q hq => ?_
    rcases hmem hq with rfl | hq
    · exact halloc
    · exact h.allocated m q hq

end Insert

end Ok

end PortTable

end AudioReach
