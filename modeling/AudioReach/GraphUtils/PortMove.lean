import Mathlib.Data.List.Perm.Subperm
import AudioReach.GraphUtils.PortTable
import AudioReach.Library.Linked
import AudioReach.Library.Runs

/-!
# Relinking a new port

`gu_insert_data_port` appends the list node of a new port at the tail of its module's port list,
and `gu_move_port_to_smallest_available_index` moves the node to where its index belongs.  Here
the list is what it is in memory, nodes with pointers to both neighbours; the loops follow the
pointers, with a number of rounds that says how long they may run.

The abstract function is `GuWorld.smallestAvailableIndex`, on the list of ports.  The pointer
code finds the same place and the same index.  Moving the node is then taking it out at the
tail and putting it in again, by the two rules of `IsLinkedList`.

An index is stored in eight bits.  The free index is found as long as there is one; with 256
ports in the list the new port gets the index 0 a second time.
-/

namespace AudioReach

open Function (update update_idem update_of_ne update_self)
open Library List Option

/-! ## The list in memory -/

/-- The port list of a module in one direction: nodes, and the ports they are for. -/
structure PortLinks where
  /-- `*list_pptr`. -/
  head : Option Addr
  /-- `next_ptr` of a node. -/
  next : Addr → Option Addr
  /-- `prev_ptr` of a node. -/
  prev : Addr → Option Addr
  /-- `obj_ptr` of a node. -/
  obj : Addr → Addr
  /-- `index` of a port. -/
  index : Addr → UInt8

namespace PortLinks

/-- The index of the port that a node is for. -/
def indexOf (s : PortLinks) (node : Addr) : ℕ := (s.index (s.obj node)).toNat

/-- The first loop of `gu_move_port_to_smallest_available_index`: the available index, the node
found behind the gap, and the node passed last. -/
def findGap (s : PortLinks) (newPort : Addr) :
    ℕ → Option Addr → Option Addr → UInt32 → UInt32 → Option Addr →
      Option (UInt32 × Option Addr × Option Addr)
  | 0, _, _, _, _, _ => none
  | _ + 1, none, _, _, available, newNode => some (available, none, newNode)
  | rounds + 1, some curr, prev, i, _, newNode =>
      if s.obj curr ≠ newPort then
        match prev with
        | some q =>
            if (1 : ℤ) < (s.indexOf curr : ℤ) - s.indexOf q then
              some (UInt32.ofNat (s.indexOf q) + 1, some curr, newNode)
            else s.findGap newPort rounds (s.next curr) (some curr) (i + 1) i (some curr)
        | none =>
            if 0 < s.indexOf curr then some (0, some curr, newNode)
            else s.findGap newPort rounds (s.next curr) (some curr) (i + 1) i (some curr)
      else s.findGap newPort rounds (s.next curr) (some curr) (i + 1) i (some curr)

/-- The second loop: the last node from `curr` on. -/
def lastFrom (s : PortLinks) : ℕ → Option Addr → Option Addr → Option (Option Addr)
  | 0, _, _ => none
  | _ + 1, none, newNode => some newNode
  | rounds + 1, some curr, _ => s.lastFrom rounds (s.next curr) (some curr)

/-- Put the node in front of the one that was found, write by write. -/
def moveBefore (s : PortLinks) (newNode found : Addr) : PortLinks :=
  let s := { s with next := update s.next newNode (some found) }
  let s := { s with next := relink s.next (s.prev newNode) none }
  let s := { s with next := relink s.next (s.prev found) (some newNode) }
  let s := { s with prev := update s.prev newNode (s.prev found) }
  let s := { s with prev := update s.prev found (some newNode) }
  if s.head = some found then { s with head := some newNode } else s

/-- `gu_move_port_to_smallest_available_index`. -/
def guMovePortToSmallestAvailableIndex (s : PortLinks) (rounds : ℕ) (newPort : Addr) :
    Option PortLinks :=
  match s.findGap newPort rounds s.head none 0 0 none with
  | none => none
  | some (available, found, newNode) =>
      match s.lastFrom rounds found newNode with
      | none => none
      | some newNode =>
          match found, newNode with
          | some found, some newNode =>
              let s := s.moveBefore newNode found
              some { s with index := update s.index newPort available.toUInt8 }
          | some _, none => none
          | none, _ => some { s with index := update s.index newPort available.toUInt8 }

/-- `spf_list_get_tail_node`. -/
def tailFrom (s : PortLinks) : ℕ → Addr → Option Addr
  | 0, _ => none
  | rounds + 1, curr =>
      match s.next curr with
      | none => some curr
      | some c => s.tailFrom rounds c

/-- `spf_list_insert_tail` once the node is there. -/
def spfListInsertTail (s : PortLinks) (rounds : ℕ) (node port : Addr) : Option PortLinks :=
  let s := { s with
    obj := update s.obj node port
    next := update s.next node none
    prev := update s.prev node none }
  match s.head with
  | none => some { s with head := some node }
  | some first =>
      match s.tailFrom rounds first with
      | none => none
      | some tail => some { s with
          next := update s.next tail (some node)
          prev := update s.prev node (some tail) }

/-- `gu_insert_data_port` once the node is there. -/
def guInsertDataPort (s : PortLinks) (rounds : ℕ) (node port : Addr) : Option PortLinks :=
  match s.spfListInsertTail rounds node port with
  | none => none
  | some s => s.guMovePortToSmallestAvailableIndex rounds port

/-- `spf_list_delete_node_and_free_obj` on a node, with the head of its list. -/
def spfListDeleteNodeAndFreeObj (s : PortLinks) (node : Addr) : PortLinks :=
  { s with
    next := relink s.next (s.prev node) (s.next node)
    prev := relink s.prev (s.next node) (s.prev node)
    head := if s.head = some node then s.next node else s.head }

/-! ## Sorted lists -/

/-- The nodes are linked in strictly increasing order of their ports' indices, and no port has
two nodes. -/
structure Sorted (s : PortLinks) (nodes : List Addr) : Prop where
  linked : IsLinkedList s.next s.prev s.head nodes.getLast? nodes
  ports : (nodes.map s.obj).Nodup
  increasing : nodes.Pairwise fun a b => s.indexOf a < s.indexOf b

/-- A sorted list with a new port appended at its tail; its index is not set yet. -/
structure Appended (s : PortLinks) (others : List Addr) (newNode : Addr) : Prop where
  linked : IsLinkedList s.next s.prev s.head (some newNode) (others ++ [newNode])
  ports : ((others ++ [newNode]).map s.obj).Nodup
  increasing : others.Pairwise fun a b => s.indexOf a < s.indexOf b

/-- What the move is for: the same nodes, sorted again, the new port with the smallest index not
in use, and nothing else changed. -/
structure MovedTo (s s' : PortLinks) (others : List Addr) (newNode : Addr) : Prop where
  sorted : ∃ nodes, nodes.Perm (newNode :: others) ∧ s'.Sorted nodes
  obj : s'.obj = s.obj
  index : ∀ port, port ≠ s.obj newNode → s'.index port = s.index port
  free : ∀ a ∈ others, s.indexOf a ≠ s'.indexOf newNode
  least : ∀ k < s'.indexOf newNode, ∃ a ∈ others, s.indexOf a = k
  /-- So it is at most the number of the other ports. -/
  le : s'.indexOf newNode ≤ others.length

/-- The move ends after at most one round for each node, and does what it is for. -/
def Moves (s : PortLinks) (others : List Addr) (newNode : Addr) : Prop :=
  ∃ s', (∀ rounds ≥ others.length + 2,
      s.guMovePortToSmallestAvailableIndex rounds (s.obj newNode) = some s') ∧
    s.MovedTo s' others newNode

/-! ## The loops -/

variable {s : PortLinks}

/-- The place where the search of the port list ends. -/
def place (s : PortLinks) (prev : Option ℕ) (i : ℕ) (nodes : List Addr) :
    ℕ × List Addr × List Addr :=
  GuWorld.smallestAvailableIndex s.indexOf prev i nodes

variable {newNode node : Addr} {nodes others : List Addr} {before : Option Addr}

/-- The node behind a stretch of nodes that ends with `newNode`. -/
lemma next_of_linked {curr : Addr} {rest : List Addr}
    (h : Linked s.next s.prev before (curr :: (rest ++ [newNode])) none) :
    s.next curr = (rest ++ [newNode]).head? ∧
      Linked s.next s.prev (some curr) (rest ++ [newNode]) none :=
  ⟨h.2.1.trans or_none, h.2.2⟩

/-- The search ends at the new node when there is no gap. -/
lemma findGap_last (rounds : ℕ) (i available : UInt32) (passed : Option Addr)
    (h : Linked s.next s.prev before [newNode] none) :
    s.findGap (s.obj newNode) (rounds + 2) (some newNode) before i available passed =
      some (i, none, some newNode) := by
  have hnext : s.next newNode = none := h.2.1
  unfold findGap
  rw [if_neg (not_not_intro rfl), hnext]
  rfl

/-- The search over the nodes that are left finds the index and the place that the search of the
port list finds. -/
lemma findGap_eq (rounds : ℕ) (prev passed : Option Addr) (i : ℕ)
    (available : UInt32) (rest : List Addr)
    (hlinked : Linked s.next s.prev prev (rest ++ [newNode]) none)
    (hports : ∀ a ∈ rest, s.obj a ≠ s.obj newNode) (hrounds : rest.length + 2 ≤ rounds) :
    ∃ passed', s.findGap (s.obj newNode) rounds (rest ++ [newNode]).head? prev (UInt32.ofNat i)
        available passed =
      some (UInt32.ofNat (s.place (prev.map s.indexOf) i rest).1,
        (s.place (prev.map s.indexOf) i rest).2.2.head?, passed') ∧
      ((s.place (prev.map s.indexOf) i rest).2.2 = [] → passed' = some newNode) := by
  induction rest generalizing rounds prev passed i available with
  | nil =>
    obtain ⟨rounds, rfl⟩ : ∃ r, rounds = r + 2 := ⟨rounds - 2, by simp at hrounds; omega⟩
    refine ⟨some newNode, ?_, fun _ => rfl⟩
    exact findGap_last rounds _ available passed hlinked
  | cons a rest ih =>
    obtain ⟨rounds, rfl⟩ : ∃ r, rounds = r + 1 := ⟨rounds - 1, by simp at hrounds; omega⟩
    obtain ⟨hnext, hrest⟩ := next_of_linked hlinked
    have hne : s.obj a ≠ s.obj newNode := hports a mem_cons_self
    obtain ⟨passed', hgo, hlast⟩ := ih rounds (some a) (some a) (i + 1) (UInt32.ofNat i) hrest
      (fun b hb => hports b (mem_cons_of_mem a hb)) (by simpa using hrounds)
    rw [← hnext, UInt32.ofNat_add] at hgo
    simp only [cons_append, head?_cons]
    unfold findGap
    rw [if_pos hne]
    cases prev with
    | none =>
      dsimp only [map_none, map_some, place] at hgo hlast ⊢
      unfold GuWorld.smallestAvailableIndex
      by_cases hgap : 0 < s.indexOf a
      · rw [if_pos hgap, if_pos hgap]
        exact ⟨passed, rfl, fun h => by cases h⟩
      · rw [if_neg hgap, if_neg hgap]
        exact ⟨passed', hgo, hlast⟩
    | some q =>
      dsimp only [map_some, place] at hgo hlast ⊢
      unfold GuWorld.smallestAvailableIndex
      by_cases hgap : s.indexOf q + 1 < s.indexOf a
      · rw [if_pos (by omega), if_pos hgap]
        exact ⟨passed, by rw [UInt32.ofNat_add]; rfl, fun h => by cases h⟩
      · rw [if_neg (by omega), if_neg hgap]
        exact ⟨passed', hgo, hlast⟩

/-- The second loop ends at the last node. -/
lemma lastFrom_eq (rounds : ℕ) (before passed : Option Addr) (rest : List Addr)
    (hlinked : Linked s.next s.prev before (rest ++ [newNode]) none)
    (hrounds : rest.length + 2 ≤ rounds) :
    s.lastFrom rounds (rest ++ [newNode]).head? passed = some (some newNode) := by
  induction rest generalizing rounds before passed with
  | nil =>
    obtain ⟨rounds, rfl⟩ : ∃ r, rounds = r + 2 := ⟨rounds - 2, by simp at hrounds; omega⟩
    have hnext : s.next newNode = none := hlinked.2.1
    rw [nil_append, head?_cons, lastFrom, hnext, lastFrom]
  | cons a rest ih =>
    obtain ⟨rounds, rfl⟩ : ∃ r, rounds = r + 1 := ⟨rounds - 1, by simp at hrounds; omega⟩
    obtain ⟨hnext, hrest⟩ := next_of_linked hlinked
    rw [cons_append, head?_cons, lastFrom, hnext]
    exact ih rounds (some a) (some a) hrest (by simpa using hrounds)

/-! ## The move -/

/-- The place of the search is the first gap. -/
lemma gap_place (h : nodes.Pairwise fun a b => s.indexOf a < s.indexOf b) :
    GuWorld.Gap s.indexOf nodes (s.place none 0 nodes) :=
  GuWorld.smallestAvailableIndex_gap h

/-- Taking the node out at the tail and putting it in before another one is what the six writes
do. -/
lemma moveBefore_linked {before after : List Addr} {found : Addr}
    (h : IsLinkedList s.next s.prev s.head (some newNode)
      ((before ++ found :: after) ++ [newNode])) :
    IsLinkedList (s.moveBefore newNode found).next (s.moveBefore newNode found).prev
      (s.moveBefore newNode found).head (before ++ newNode :: found :: after).getLast?
      (before ++ newNode :: found :: after) := by
  have hprevNew : s.prev newNode = (before ++ found :: after).getLast? := h.links.1
  have hprevFound : s.prev found = before.getLast? := by
    rw [append_assoc, cons_append] at h
    exact h.links.1
  have hnot : newNode ∉ before ++ found :: after := fun hmem =>
    (nodup_append.mp h.nodup).2.2 newNode hmem newNode (mem_singleton_self _) rfl
  have hout : IsLinkedList (relink s.next (before ++ found :: after).getLast? none) s.prev
      ((before ++ found :: after) ++ []).head? ((before ++ found :: after) ++ []).getLast?
      ((before ++ found :: after) ++ []) := h.remove rfl rfl
  rw [append_nil] at hout
  have hin : IsLinkedList
      (relink (update (relink s.next (before ++ found :: after).getLast? none) newNode
        (some found)) before.getLast? (some newNode))
      (relink (update s.prev newNode before.getLast?) (some found) (some newNode))
      (before ++ newNode :: found :: after).head? (before ++ newNode :: found :: after).getLast?
      (before ++ newNode :: found :: after) := hout.insert hnot rfl rfl
  have hlast : (before ++ found :: after).getLast? ≠ some newNode := fun heq =>
    hnot (mem_of_getLast? heq)
  rw [← relink_update_comm hlast] at hin
  have hhead : (before ++ newNode :: found :: after).head? =
      if s.head = some found then some newNode else s.head := by
    rw [h.head_eq]
    cases before with
    | nil => simp
    | cons b before =>
      have hne : b ≠ found := by
        rintro rfl
        have := (nodup_append.mp h.nodup).1
        simp at this
      simp [hne]
  have hmove : s.moveBefore newNode found =
      { s with
        next := relink (relink (update s.next newNode (some found))
          (before ++ found :: after).getLast? none) before.getLast? (some newNode)
        prev := relink (update s.prev newNode before.getLast?) (some found) (some newNode)
        head := (before ++ newNode :: found :: after).head? } := by
    rw [hhead, ← hprevNew, ← hprevFound]
    unfold moveBefore
    dsimp only
    split <;> rfl
  rw [hmove]
  exact hin

/-- The move keeps the ports of the nodes. -/
@[simp] lemma obj_moveBefore (newNode found : Addr) : (s.moveBefore newNode found).obj = s.obj := by
  unfold moveBefore
  dsimp only
  split <;> rfl

/-- The move keeps the indices. -/
@[simp] lemma index_moveBefore (newNode found : Addr) :
    (s.moveBefore newNode found).index = s.index := by
  unfold moveBefore
  dsimp only
  split <;> rfl

/-- The list after the move: the node is at its place and the new port has its index. -/
def afterMove (s : PortLinks) (others : List Addr) (newNode : Addr) : PortLinks :=
  { (match (s.place none 0 others).2.2 with
      | [] => s
      | found :: _ => s.moveBefore newNode found) with
    index := update s.index (s.obj newNode) (UInt32.ofNat (s.place none 0 others).1).toUInt8 }

/-- What the code computes, with enough rounds for its loops. -/
lemma guMovePort_eq (h : s.Appended others newNode)
    {rounds : ℕ} (hrounds : others.length + 2 ≤ rounds) :
    s.guMovePortToSmallestAvailableIndex rounds (s.obj newNode) =
      some (s.afterMove others newNode) := by
  have hports : ∀ a ∈ others, s.obj a ≠ s.obj newNode := by
    intro a ha heq
    have hnodup := h.ports
    rw [map_append, nodup_append] at hnodup
    exact hnodup.2.2 (s.obj a) (List.mem_map.mpr ⟨a, ha, rfl⟩) (s.obj newNode) (by simp) heq
  obtain ⟨passed, hfind, hpassed⟩ := findGap_eq rounds none none 0 0 others h.linked.linked hports
    hrounds
  have happend := (gap_place h.increasing).append
  rw [← h.linked.head_eq] at hfind
  unfold guMovePortToSmallestAvailableIndex afterMove
  change s.findGap (s.obj newNode) rounds s.head none 0 0 none = _ at hfind
  rw [hfind]
  dsimp only [map_none] at hpassed ⊢
  cases hplace : (s.place none 0 others).2.2 with
  | nil =>
    -- no gap: the loop arrived at the new node, which is at the right place
    obtain ⟨rounds, rfl⟩ : ∃ r, rounds = r + 1 := ⟨rounds - 1, by omega⟩
    rfl
  | cons found after =>
    rw [hplace] at happend
    have hlinked := h.linked.linked
    rw [← happend, append_assoc, Linked.append_iff] at hlinked
    have hlength := congrArg List.length happend
    rw [length_append, length_cons] at hlength
    have hlast := lastFrom_eq rounds _ passed (found :: after) hlinked.2
      (by rw [length_cons]; omega)
    rw [cons_append, head?_cons] at hlast
    rw [head?_cons, hlast]
    dsimp only
    rw [index_moveBefore]

/-- After the move the node is at its place. -/
lemma afterMove_linked (h : s.Appended others newNode) :
    IsLinkedList (s.afterMove others newNode).next (s.afterMove others newNode).prev
      (s.afterMove others newNode).head
      ((s.place none 0 others).2.1 ++ newNode :: (s.place none 0 others).2.2).getLast?
      ((s.place none 0 others).2.1 ++ newNode :: (s.place none 0 others).2.2) := by
  have happend := (gap_place h.increasing).append
  unfold afterMove
  cases hplace : (s.place none 0 others).2.2 with
  | nil =>
    rw [hplace, append_nil] at happend
    rw [happend, getLast?_concat]
    exact h.linked
  | cons found after =>
    have hlinked := h.linked
    rw [hplace] at happend
    rw [← happend] at hlinked
    exact moveBefore_linked hlinked

/-- After the move the nodes are for the same ports. -/
lemma afterMove_obj (others : List Addr) (newNode : Addr) :
    (s.afterMove others newNode).obj = s.obj := by
  unfold afterMove
  cases (s.place none 0 others).2.2 with
  | nil => rfl
  | cons found after => exact obj_moveBefore newNode found

/-- A small index survives the byte. -/
lemma toNat_toUInt8_ofNat {k : ℕ} (hk : k < 256) : (UInt32.ofNat k).toUInt8.toNat = k := by
  rw [UInt32.toNat_toUInt8, UInt32.toNat_ofNat']
  omega

/-- **The move.**  As long as the list has fewer than 256 other ports, the new port gets the
smallest free index and the list is sorted again. -/
lemma afterMove_movedTo (h : s.Appended others newNode)
    (hlength : others.length < 256) : s.MovedTo (s.afterMove others newNode) others newNode := by
  have hgap := gap_place h.increasing
  have hobj := s.afterMove_obj others newNode
  have hne : ∀ a ∈ others, s.obj a ≠ s.obj newNode := by
    intro a ha heq
    have hnodup := h.ports
    rw [map_append, nodup_append] at hnodup
    exact hnodup.2.2 (s.obj a) (List.mem_map.mpr ⟨a, ha, rfl⟩) (s.obj newNode) (by simp) heq
  have hindex : (s.afterMove others newNode).index = update s.index (s.obj newNode)
      (UInt32.ofNat (s.place none 0 others).1).toUInt8 := rfl
  have hnew : (s.afterMove others newNode).indexOf newNode = (s.place none 0 others).1 := by
    rw [indexOf, hobj, hindex, update_self]
    exact toNat_toUInt8_ofNat (by have := hgap.le; omega)
  have hold : ∀ a ∈ others, (s.afterMove others newNode).indexOf a = s.indexOf a := by
    intro a ha
    rw [indexOf, hobj, hindex, update_of_ne (hne a ha)]
    rfl
  obtain ⟨happend, hbefore, hafter, hle, hleast⟩ := hgap
  have hperm : ((s.place none 0 others).2.1 ++ newNode :: (s.place none 0 others).2.2).Perm
      (newNode :: others) := by
    refine perm_middle.trans ?_
    rw [happend]
  have hmem₁ : ∀ a ∈ (s.place none 0 others).2.1, a ∈ others := fun a ha => by
    rw [← happend]
    exact mem_append_left _ ha
  have hmem₂ : ∀ a ∈ (s.place none 0 others).2.2, a ∈ others := fun a ha => by
    rw [← happend]
    exact mem_append_right _ ha
  refine ⟨⟨_, hperm, afterMove_linked h, ?_, ?_⟩, hobj, ?_, ?_, ?_, hnew.trans_le hle⟩
  · rw [hobj]
    refine ((hperm.map s.obj).nodup_iff).mpr ?_
    exact (((perm_append_singleton newNode others).map s.obj).nodup_iff).mp h.ports
  · have hsorted := h.increasing
    rw [← happend, pairwise_append] at hsorted
    refine pairwise_append.mpr ⟨?_, pairwise_cons.mpr ⟨?_, ?_⟩, ?_⟩
    · refine hsorted.1.imp_of_mem fun ha hb hlt => ?_
      rwa [hold _ (hmem₁ _ ha), hold _ (hmem₁ _ hb)]
    · intro a ha
      rw [hnew, hold a (hmem₂ a ha)]
      exact hafter a ha
    · refine hsorted.2.1.imp_of_mem fun ha hb hlt => ?_
      rwa [hold _ (hmem₂ _ ha), hold _ (hmem₂ _ hb)]
    · intro a ha b hb
      rw [hold a (hmem₁ a ha)]
      rcases mem_cons.mp hb with rfl | hb
      · rw [hnew]
        exact hbefore a ha
      · rw [hold b (hmem₂ b hb)]
        exact hsorted.2.2 a ha b hb
  · intro port hport
    rw [hindex, update_of_ne hport]
  · intro a ha
    rw [hnew]
    rw [← happend] at ha
    rcases mem_append.mp ha with ha | ha
    · exact (hbefore a ha).ne
    · exact (hafter a ha).ne'
  · intro k hk
    rw [hnew] at hk
    exact hleast k hk

/-- With an index free there are fewer than 256 ports. -/
lemma length_lt_of_free
    (hsorted : others.Pairwise fun a b => s.indexOf a < s.indexOf b) {k : ℕ} (hk : k < 256)
    (hfree : ∀ a ∈ others, s.indexOf a ≠ k) : others.length < 256 := by
  have hnodup : (others.map s.indexOf).Nodup :=
    pairwise_map.mpr (hsorted.imp fun h => ne_of_lt h)
  have hsub : others.map s.indexOf ⊆ (range 256).erase k := by
    intro i hi
    obtain ⟨a, ha, rfl⟩ := List.mem_map.mp hi
    rw [nodup_range.mem_erase_iff, mem_range]
    exact ⟨hfree a ha, (s.index (s.obj a)).toNat_lt⟩
  have hle := (subperm_of_subset hnodup hsub).length_le
  rw [length_map, length_erase_of_mem (mem_range.mpr hk), length_range] at hle
  omega

/-- The move is right exactly when fewer than 256 other ports are in the list. -/
theorem moves_iff (h : s.Appended others newNode) :
    s.Moves others newNode ↔ others.length < 256 := by
  constructor
  · rintro ⟨s', -, hmoved⟩
    exact length_lt_of_free h.increasing (s'.index (s'.obj newNode)).toNat_lt hmoved.free
  · intro hlength
    exact ⟨_, fun rounds hrounds => guMovePort_eq h hrounds, afterMove_movedTo h hlength⟩

/-! ## Creating and deleting ports -/

/-- The tail is the last node. -/
lemma tailFrom_eq (rounds : ℕ) (before : Option Addr) (curr : Addr) (rest : List Addr)
    (hlinked : Linked s.next s.prev before (curr :: rest) none) (hrounds : rest.length < rounds) :
    s.tailFrom rounds curr = (curr :: rest).getLast? := by
  induction rest generalizing rounds before curr with
  | nil =>
    obtain ⟨rounds, rfl⟩ : ∃ r, rounds = r + 1 := ⟨rounds - 1, by omega⟩
    have hnext : s.next curr = none := hlinked.2.1
    rw [tailFrom, hnext]
    rfl
  | cons a rest ih =>
    obtain ⟨rounds, rfl⟩ : ∃ r, rounds = r + 1 := ⟨rounds - 1, by omega⟩
    have hnext : s.next curr = some a := hlinked.2.1
    rw [tailFrom, hnext, getLast?_cons_cons]
    exact ih rounds (some curr) a hlinked.2.2 (by simpa using hrounds)

section

variable {port : Addr} {rounds : ℕ} (h : s.Sorted nodes) (hnode : node ∉ nodes)
  (hport : port ∉ nodes.map s.obj)
include h hnode hport

/-- A new node behind the last one. -/
lemma spfListInsertTail_eq (hrounds : nodes.length ≤ rounds) :
    ∃ s', s.spfListInsertTail rounds node port = some s' ∧ s'.Appended nodes node ∧
      s'.obj = update s.obj node port ∧ s'.index = s.index := by
  have hobj : nodes.map (update s.obj node port) = nodes.map s.obj :=
    map_congr_left fun a ha => update_of_ne (ne_of_mem_of_not_mem ha hnode) _ _
  have hports : ((nodes ++ [node]).map (update s.obj node port)).Nodup := by
    rw [map_append, hobj, map_singleton, update_self]
    exact (perm_append_singleton port _).nodup_iff.mpr (nodup_cons.mpr ⟨hport, h.ports⟩)
  have hincreasing : nodes.Pairwise fun a b =>
      (s.index (update s.obj node port a)).toNat < (s.index (update s.obj node port b)).toNat := by
    refine h.increasing.imp_of_mem fun ha hb hlt => ?_
    rwa [update_of_ne (ne_of_mem_of_not_mem ha hnode), update_of_ne (ne_of_mem_of_not_mem hb hnode)]
  have hinsert : IsLinkedList (relink (update s.next node none) nodes.getLast? (some node))
      (update s.prev node nodes.getLast?) (nodes ++ [node]).head? (some node)
      (nodes ++ [node]) := by
    have hnil := h.linked
    rw [← append_nil nodes] at hnil
    exact hnil.insert (by simpa using hnode) rfl (by simp)
  unfold spfListInsertTail
  cases nodes with
  | nil =>
    have hhead : s.head = none := h.linked.head_eq
    rw [hhead]
    exact ⟨_, rfl, ⟨hinsert, hports, hincreasing⟩, rfl, rfl⟩
  | cons first rest =>
    have hhead : s.head = some first := h.linked.head_eq
    rw [hhead]
    have hlinked : Linked (update s.next node none) (update s.prev node none) none (first :: rest)
        none := h.linked.linked.congr
      (fun a ha => update_of_ne (ne_of_mem_of_not_mem ha hnode) _ _)
      fun a ha => update_of_ne (ne_of_mem_of_not_mem ha hnode) _ _
    have hfound := tailFrom_eq (s := { s with
      head := some first
      obj := update s.obj node port
      next := update s.next node none
      prev := update s.prev node none }) rounds none first rest hlinked
      (by rw [length_cons] at hrounds; omega)
    dsimp only
    rw [hfound]
    refine ⟨_, rfl, ⟨?_, hports, hincreasing⟩, rfl, rfl⟩
    rw [update_idem]
    exact hinsert

/-- `gu_insert_data_port` on a sorted list. -/
lemma guInsertDataPort_eq (hlength : nodes.length < 256) (hrounds : nodes.length + 2 ≤ rounds) :
    ∃ s' nodes', s.guInsertDataPort rounds node port = some s' ∧ s'.Sorted nodes' ∧
      nodes'.Perm (node :: nodes) ∧ (∀ a ∈ nodes, s'.indexOf a = s.indexOf a) ∧
      s'.indexOf node ≤ nodes.length := by
  obtain ⟨s₁, hinsert, happended, hobj, hindex⟩ := spfListInsertTail_eq h hnode hport
    (show nodes.length ≤ rounds by omega)
  have hnew : s₁.obj node = port := by rw [hobj, update_self]
  have hmove := guMovePort_eq happended hrounds
  have hmoved := afterMove_movedTo happended hlength
  rw [hnew] at hmove
  obtain ⟨nodes', hperm, hsorted⟩ := hmoved.sorted
  refine ⟨s₁.afterMove nodes node, nodes', ?_, hsorted, hperm, fun a ha => ?_, hmoved.le⟩
  · unfold guInsertDataPort
    rw [hinsert]
    exact hmove
  · have hsame : s₁.obj a = s.obj a := by
      rw [hobj, update_of_ne (ne_of_mem_of_not_mem ha hnode)]
    have hne : s₁.obj a ≠ s₁.obj node := by
      rw [hsame, hnew]
      rintro rfl
      exact hport (List.mem_map.mpr ⟨a, ha, rfl⟩)
    rw [indexOf, hmoved.obj, hmoved.index _ hne, hindex, hsame]
    rfl

end

/-- A deleted node leaves a sorted list. -/
lemma spfListDeleteNode_sorted {front back : List Addr} (h : s.Sorted (front ++ node :: back)) :
    (s.spfListDeleteNodeAndFreeObj node).Sorted (front ++ back) := by
  obtain ⟨hprev, hnext⟩ := h.linked.links
  have hsub : (front ++ back).Sublist (front ++ node :: back) :=
    List.Sublist.append_left (sublist_cons_self node back) front
  have hhead : (if s.head = some node then s.next node else s.head) = (front ++ back).head? := by
    rw [h.linked.head_eq, hnext]
    cases front with
    | nil => simp
    | cons a front =>
      have hne : a ≠ node := by
        rintro rfl
        have := h.linked.nodup
        simp at this
      simp [hne]
  refine ⟨?_, h.ports.sublist (hsub.map s.obj), h.increasing.sublist hsub⟩
  unfold spfListDeleteNodeAndFreeObj
  rw [hprev, hnext, ← hnext, hhead, hnext]
  exact h.linked.remove rfl rfl

end PortLinks

/-- The port list of a module over time. -/
structure PortListRun where
  links : PortLinks
  /-- The nodes of the open ports, the newest first. -/
  opened : List Addr
  hung : Bool

/-- What happens to a port list. -/
inductive PortListCall
  /-- A port is created and inserted; the list node is allocated or not. -/
  | create (node port : Addr) (mallocOk : Bool)
  /-- The port of a node is deleted. -/
  | delete (node : Addr)
  /-- The module is destroyed. -/
  | deleteAll
  deriving DecidableEq, Repr

namespace PortListRun

/-- The list of a new module. -/
def fresh : PortListRun :=
  ⟨⟨none, fun _ => none, fun _ => none, fun _ => 0, fun _ => 0⟩, [], false⟩

/-- The state after a call.  The loops may run once for each node and once more. -/
def step (r : PortListRun) : PortListCall → PortListRun
  | .create node port mallocOk =>
      if mallocOk then
        match r.links.guInsertDataPort (r.opened.length + 2) node port with
        | some links => { r with links := links, opened := node :: r.opened }
        | none => { r with hung := true }
      else r
  | .delete node =>
      { r with
        links := r.links.spfListDeleteNodeAndFreeObj node
        opened := r.opened.erase node }
  | .deleteAll => { r with links := { r.links with head := none }, opened := [] }

/-- What callers respect, and that an index is free: a new node is not in the list, nor is the
new port, and fewer than 256 ports are open; only open ports are deleted. -/
def Respects (r : PortListRun) : PortListCall → Prop
  | .create node port mallocOk => mallocOk = true →
      node ∉ r.opened ∧ port ∉ r.opened.map r.links.obj ∧ r.opened.length < 256
  | .delete node => node ∈ r.opened
  | .deleteAll => True

instance (r : PortListRun) : ∀ call, Decidable (r.Respects call)
  | .create node port mallocOk => inferInstanceAs (Decidable (mallocOk = true →
      node ∉ r.opened ∧ port ∉ r.opened.map r.links.obj ∧ r.opened.length < 256))
  | .delete node => inferInstanceAs (Decidable (node ∈ r.opened))
  | .deleteAll => inferInstanceAs (Decidable True)

/-- The indices of the open ports. -/
def indices (r : PortListRun) : List ℕ := r.opened.map r.links.indexOf

/-- No loop hangs, and the indices of the open ports differ and lie below a bound. -/
structure IndicesBelow (r : PortListRun) (bound : ℕ) : Prop where
  ends : r.hung = false
  nodup : r.indices.Nodup
  below : ∀ i ∈ r.indices, i < bound

/-- The invariant: the open ports are linked in the order of their indices. -/
structure Linked (r : PortListRun) (bound : ℕ) : Prop where
  ends : r.hung = false
  /-- The nodes of the open ports are a sorted list. -/
  sorted : ∃ nodes, r.links.Sorted nodes ∧ nodes.Perm r.opened
  below : ∀ a ∈ r.opened, r.links.indexOf a < bound

variable {r : PortListRun} {bound : ℕ}

/-- The invariant bounds the indices. -/
lemma Linked.indicesBelow (h : r.Linked bound) : r.IndicesBelow bound := by
  obtain ⟨nodes, hsorted, hperm⟩ := h.sorted
  refine ⟨h.ends, ?_, ?_⟩
  · refine ((hperm.map r.links.indexOf).nodup_iff).mp ?_
    exact pairwise_map.mpr (hsorted.increasing.imp fun hlt => ne_of_lt hlt)
  · intro i hi
    obtain ⟨a, ha, rfl⟩ := List.mem_map.mp hi
    exact h.below a ha

/-- A call keeps the invariant, as long as the bound covers the ports open after it. -/
lemma Linked.step (h : r.Linked bound) {call : PortListCall} (hcall : r.Respects call)
    (hbound : (r.step call).opened.length ≤ bound) : (r.step call).Linked bound := by
  obtain ⟨nodes, hsorted, hperm⟩ := h.sorted
  cases call with
  | create node port mallocOk =>
    cases mallocOk with
    | false => exact h
    | true =>
      obtain ⟨hnode, hport, hlength⟩ := hcall rfl
      obtain ⟨links, nodes', hinsert, hsorted', hperm', hold, hnew⟩ :=
        PortLinks.guInsertDataPort_eq hsorted (fun hmem => hnode (hperm.mem_iff.mp hmem))
          (fun hmem => hport ((hperm.map r.links.obj).mem_iff.mp hmem))
          (hperm.length_eq.trans_lt hlength) (show nodes.length + 2 ≤ r.opened.length + 2 by
            rw [hperm.length_eq])
      have hstep : r.step (.create node port true) =
          { r with links := links, opened := node :: r.opened } := by
        unfold PortListRun.step
        dsimp only
        rw [if_pos rfl, hinsert]
      rw [hstep] at hbound ⊢
      rw [length_cons] at hbound
      refine ⟨h.ends, ⟨nodes', hsorted', hperm'.trans (hperm.cons node)⟩, ?_⟩
      intro a ha
      rcases mem_cons.mp ha with rfl | ha
      · have hlen := hperm.length_eq
        exact hnew.trans_lt (by omega)
      · exact (hold a (hperm.mem_iff.mpr ha)).trans_lt (h.below a ha)
  | delete node =>
    obtain ⟨front, back, rfl⟩ := append_of_mem (hperm.mem_iff.mpr hcall)
    have herase : (front ++ back).Perm (r.opened.erase node) := by
      have hcons : (node :: (front ++ back)).Perm r.opened := perm_middle.symm.trans hperm
      exact (hcons.trans (perm_cons_erase hcall)).cons_inv
    refine ⟨h.ends, ⟨front ++ back, PortLinks.spfListDeleteNode_sorted hsorted, herase⟩, ?_⟩
    intro a ha
    exact h.below a (mem_of_mem_erase ha)
  | deleteAll =>
    refine ⟨h.ends, ⟨[], ⟨.nil, nodup_nil, List.Pairwise.nil⟩, .refl _⟩, ?_⟩
    intro a ha
    cases ha

/-- The indices are bounded along a run with few open ports. -/
lemma Linked.along (h : r.Linked bound) {calls : List PortListCall}
    (hcalls : Meets PortListRun.step Respects r calls)
    (hopen : Along PortListRun.step (fun r => r.opened.length ≤ bound) r calls) :
    Along PortListRun.step (fun r => r.IndicesBelow bound) r calls := by
  induction calls generalizing r with
  | nil => exact h.indicesBelow
  | cons call calls ih =>
    have hnext : (r.step call).opened.length ≤ bound :=
      along_iff.mp hopen.2 [] nil_prefix
    exact ⟨h.indicesBelow, ih (h.step hcalls.1 hnext) hcalls.2 hopen.2⟩

/-- A new list has no ports. -/
lemma fresh_linked (bound : ℕ) : fresh.Linked bound := by
  refine ⟨rfl, ⟨[], ⟨.nil, nodup_nil, List.Pairwise.nil⟩, .refl _⟩, ?_⟩
  intro a ha
  cases ha

end PortListRun

/-- **Port indices.**  The move of a port appended to a sorted list ends, gives it the smallest
free index, and sorts the list by relinking that one node, exactly when fewer than 256 other
ports are in the list.  So in every run of creations and deletions in which no port is created
while 256 are open, the indices of the open ports differ and lie below the greatest number of
ports open at the same time. -/
theorem guMovePort_keeps_indices (most : ℕ) (calls : List PortListCall) :
    (∀ (s : PortLinks) (others : List Addr) (newNode : Addr), s.Appended others newNode →
      (s.Moves others newNode ↔ others.length < 256)) ∧
    (Meets PortListRun.step PortListRun.Respects .fresh calls →
      Along PortListRun.step (fun r => r.opened.length ≤ most) .fresh calls →
      Along PortListRun.step (fun r => r.IndicesBelow most) .fresh calls) :=
  ⟨fun _ _ _ h => PortLinks.moves_iff h, fun hcalls hopen =>
    (PortListRun.fresh_linked most).along hcalls hopen⟩

/-- Three ports are created and the second is deleted; a fourth port takes its place, and there
are never more than three. -/
theorem guMovePort_keeps_indices_reuse : Along PortListRun.step (fun r => r.IndicesBelow 3) .fresh
      [.create 1 11 true, .create 2 12 true, .create 3 13 true, .delete 2, .create 4 14 true] :=
  (guMovePort_keeps_indices 3 _).2 (by decide) (by decide)

/-- A list of 256 ports with all indices, and a new port behind it. -/
def fullPortList : PortLinks where
  head := some 0
  next := fun a => if a < 256 then some (a + 1) else none
  prev := fun a => if 0 < a then some (a - 1) else none
  obj := id
  index := UInt8.ofNat

/-- The full list is linked. -/
lemma fullPortList_linked (first len : ℕ) (h : first + len = 257) :
    Linked fullPortList.next fullPortList.prev (fullPortList.prev first) (range' first len)
      none := by
  induction len generalizing first with
  | zero => trivial
  | succ len ih =>
    have hnext : fullPortList.next first = (range' (first + 1) len).head?.or none := by
      cases len with
      | zero =>
        obtain rfl : first = 256 := by omega
        rfl
      | succ len => exact if_pos (show first < 256 by omega)
    exact ⟨rfl, hnext, ih (first + 1) (by omega)⟩

/-- The new port is behind the full list. -/
lemma fullPortList_appended : fullPortList.Appended (range 256) 256 := by
  have hnodes : range 256 ++ [256] = range' 0 257 := by
    rw [← range_eq_range', ← range_succ]
  refine ⟨?_, ?_, ?_⟩
  · rw [hnodes]
    exact ⟨fullPortList_linked 0 257 rfl, nodup_range', rfl, by rw [← hnodes]; simp⟩
  · rw [hnodes]
    simp [fullPortList, nodup_range']
  · refine pairwise_lt_range.imp_of_mem fun {a b} ha hb hlt => ?_
    rw [mem_range] at ha hb
    simp only [PortLinks.indexOf, fullPortList, id, UInt8.toNat_ofNat']
    omega

/-- The 257th port gets an index that is in use. -/
theorem not_guMovePort_keeps_indices :
    ¬ ∀ (s : PortLinks) (others : List Addr) (newNode : Addr), s.Appended others newNode →
      s.Moves others newNode := by
  intro h
  have hlength := (PortLinks.moves_iff fullPortList_appended).mp (h _ _ _ fullPortList_appended)
  rw [length_range] at hlength
  exact absurd hlength (lt_irrefl 256)

end AudioReach
