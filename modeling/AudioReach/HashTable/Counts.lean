import AudioReach.HashTable.Chains

/-!
# The node and key counters

`num_nodes` is meant to be the number of linked nodes and `num_items` the number of
distinct keys among them.  The counters are kept by `hashtable_internalinsert` and
`spf_hashtable_remove`, and these are right only for some calls: growth runs the
internal insertion again over every linked node without resetting the counters, a
removal through the first node of a key always counts the key as gone, and a removal
of a node that is not there still counts a node as gone.

`SpfHashtable.CallCounts` lists, for each call and in terms of the table before it,
when none of this happens; along every run whose calls satisfy it both counters are
right.
-/

namespace AudioReach

open Library List

namespace SpfHashtable

/-- `num_nodes` and `num_items` say what they are named after. -/
def CountsRight (ht : SpfHashtable) : Prop :=
  ht.numNodes.toNat = ht.nodes.length ∧ ht.numItems.toNat = distinct SpfHashNode.key ht.nodes

instance (ht : SpfHashtable) : Decidable ht.CountsRight :=
  inferInstanceAs (Decidable (_ ∧ _))

/-- Insertions that keep the counters right.  Either the node is linked already, at
the end of its chain, and the call is refused; or its address is fresh, the counters
do not wrap around and the table is not grown: the keys fit, or the new table cannot
be allocated. -/
def InsertCounts (ht : SpfHashtable) (node : SpfHashNode) (mallocOk : Bool) : Prop :=
  (ht.table (ht.pos node.key)).getLast? = some node ∨
  (ht.Fresh node.addr ∧ ht.nodes.length + 1 < UInt32.size ∧
    (mallocOk = false ∨ ht.growBytes = 0 ∨
      distinct SpfHashNode.key (node :: ht.nodes) ≤ (ht.tableSize * ht.resizeFactor).toNat))

instance (ht : SpfHashtable) (node : SpfHashNode) (mallocOk : Bool) :
    Decidable (ht.InsertCounts node mallocOk) :=
  inferInstanceAs (Decidable (_ ∨ (∀ n ∈ ht.nodes, n.addr ≠ node.addr) ∧ _ ∧ (_ ∨ _ ∨ _)))

/-- Removals that keep the counters right, by what is left of the chain from the first
node of the key on.  The key is absent; or its first node is the one to go and no
other node has the key; or the node to go is further down the chain and is not the
only node with its own key. -/
def RemoveCountsAt (ht : SpfHashtable) (key : List UInt8) (node : Option Addr) :
    List SpfHashNode → Prop
  | [] => True
  | first :: rest =>
      if node = none ∨ node = some first.addr then
        ∀ n ∈ rest, n.key ≠ key
      else
        ∃ n ∈ rest, node = some n.addr ∧ ∃ m ∈ ht.nodes, m.addr ≠ n.addr ∧ m.key = n.key

instance (ht : SpfHashtable) (key : List UInt8) (node : Option Addr) :
    ∀ chain, Decidable (ht.RemoveCountsAt key node chain)
  | [] => inferInstanceAs (Decidable True)
  | first :: rest => inferInstanceAs (Decidable
      (if node = none ∨ node = some first.addr then ∀ n ∈ rest, n.key ≠ key
        else ∃ n ∈ rest, node = some n.addr ∧ ∃ m ∈ ht.nodes, m.addr ≠ n.addr ∧ m.key = n.key))

/-- Removals that keep the counters right. -/
def RemoveCounts (ht : SpfHashtable) (key : List UInt8) (node : Option Addr) : Prop :=
  ht.RemoveCountsAt key node (hashtableFindpos ht key).2

/-- The calls that keep the counters right. -/
def CallCounts (ht : SpfHashtable) : SpfHashtableCall → Prop
  | .insert node mallocOk => ht.InsertCounts node mallocOk
  | .remove key node => ht.RemoveCounts key node
  | .removeAll => True

instance (ht : SpfHashtable) : ∀ call, Decidable (ht.CallCounts call)
  | .insert node mallocOk => inferInstanceAs (Decidable (ht.InsertCounts node mallocOk))
  | .remove key node => inferInstanceAs (Decidable (ht.RemoveCountsAt key node _))
  | .removeAll => inferInstanceAs (Decidable True)

/-- The invariant of the runs below. -/
def Counted (ht : SpfHashtable) : Prop :=
  ht.WF ∧ ht.CountsRight

end SpfHashtable

/-! ## Word arithmetic -/

lemma UInt32.toNat_succ {c : UInt32} (h : c.toNat + 1 < UInt32.size) :
    (c + 1).toNat = c.toNat + 1 := by
  exact Nat.mod_eq_of_lt h

lemma UInt32.toNat_pred {c : UInt32} (h : 0 < c.toNat) : (c - 1).toNat = c.toNat - 1 := by
  rw [UInt32.toNat_sub_of_le]
  · rfl
  · exact UInt32.le_iff_toNat_le.mpr h

/-! ## Removing one node -/

/-- After the loss of `x` the number of keys falls by one exactly when no other node
has the key of `x`. -/
lemma distinct_of_perm_cons {x : SpfHashNode} {ns ns' : List SpfHashNode} (h : ns.Perm (x :: ns')) :
    distinct SpfHashNode.key ns =
      distinct SpfHashNode.key ns' + (if ∃ y ∈ ns', y.key = x.key then 0 else 1) := by
  rw [distinct_perm h, distinct_cons]

/-! ## One call -/

variable {ht : SpfHashtable}

lemma SpfHashtable.Counted.insert_fresh (h : ht.Counted) {node : SpfHashNode}
    (hfresh : ht.Fresh node.addr) (hroom : ht.nodes.length + 1 < UInt32.size) :
    ∃ ht', hashtableInternalinsert ht node = (.eok, ht') ∧ ht'.Counted ∧
      ht'.tableSize = ht.tableSize ∧ ht'.resizeFactor = ht.resizeFactor ∧
      ht'.nodes.Perm (node :: ht.nodes) := by
  obtain ⟨hwf, hnodes, hitems⟩ := h
  obtain ⟨ht', hins, hwf', hsize, hfactor, hperm, -, hnum, hnumItems⟩ :=
    hashtableInternalinsert_wf hwf hfresh
  refine ⟨ht', hins, ⟨hwf', ?_, ?_⟩, hsize, hfactor, hperm⟩
  · rw [hnum, UInt32.toNat_succ (by omega), hperm.length_eq, length_cons, hnodes]
  · have hle := distinct_le_length (f := SpfHashNode.key) ht.nodes
    rw [hnumItems, distinct_of_perm_cons hperm]
    split
    · rw [UInt32.add_zero, Nat.add_zero, hitems]
    · rw [UInt32.toNat_succ (by omega), hitems]

/-- An insertion that meets its condition keeps the counters right. -/
lemma SpfHashtable.Counted.insert {ht : SpfHashtable} (h : ht.Counted) {node : SpfHashNode}
    {mallocOk : Bool} (hcall : ht.InsertCounts node mallocOk) :
    (spfHashtableInsert ht node mallocOk).2.Counted := by
  rcases hcall with hlast | ⟨hfresh, hroom, hgrow⟩
  · obtain ⟨front, hchain⟩ := getLast?_eq_some_iff.mp hlast
    rw [spfHashtableInsert_of_last h.1 hchain]
    exact h
  · obtain ⟨ht', hins, hcounted, hsize, hfactor, hperm⟩ := h.insert_fresh hfresh hroom
    rw [spfHashtableInsert_of_fresh h.1 hfresh, hins]
    split
    · next hlarge =>
      -- the table wants to grow, so by the condition the allocation fails
      have hfail : ht'.growBytes = 0 ∨ mallocOk = false := by
        obtain ⟨table, nodes, items, htable⟩ := hashtableInternalinsert_table ht node
        rw [hins] at htable
        rcases hgrow with hmalloc | hzero | hfit
        · exact Or.inr hmalloc
        · exact Or.inl ((congrArg SpfHashtable.growBytes htable).trans hzero)
        · have hlt := UInt32.lt_iff_toNat_lt.mp hlarge
          rw [hcounted.2.2, distinct_perm hperm] at hlt
          omega
      unfold hashtableGrow
      rw [if_pos hfail]
      exact hcounted
    · exact hcounted

/-- A removal that meets its condition keeps the counters right. -/
lemma SpfHashtable.Counted.remove (h : ht.Counted) {key : List UInt8}
    {node : Option Addr} (hcall : ht.RemoveCounts key node) :
    (spfHashtableRemove ht key node).2.1.Counted := by
  obtain ⟨hwf, hnodes, hitems⟩ := h
  have hlt := hwf.pos_lt key
  rcases spfHashtableRemove_cases ht key node with ⟨-, -, hresult⟩ |
    ⟨before, first, rest, hpos, hchain, hbefore, hfirst, hcase⟩
  · rw [hresult]
    exact ⟨hwf, hnodes, hitems⟩
  unfold SpfHashtable.RemoveCounts at hcall
  rw [hpos] at hcall
  dsimp only [SpfHashtable.RemoveCountsAt] at hcall
  rcases hcase with ⟨hhead, hresult⟩ |
    ⟨hhead, between, found, after, hrest, hnode, hbetween, hresult⟩ | ⟨hhead, habsent, -⟩
  · -- the first node of the key goes, and it was the only one
    rw [if_pos hhead] at hcall
    have hperm : (ht.table (ht.pos key)).Perm (first :: (before ++ rest)) := by
      rw [hchain]
      exact perm_middle
    obtain ⟨hwf', hall⟩ := hwf.setChain_remove hlt hperm
    have hgone : ¬ ∃ n ∈ (ht.setChain (ht.pos key) (before ++ rest)).nodes, n.key = first.key := by
      rintro ⟨n, hn, hkey⟩
      have hbucket := hwf'.mem_nodes_iff.mp hn
      rw [hkey, hfirst, SpfHashtable.pos_setChain] at hbucket
      have hmem : n ∈ before ++ rest := by simpa [SpfHashtable.setChain] using hbucket
      rcases mem_append.mp hmem with hb | hr
      · exact hbefore n hb (hkey.trans hfirst)
      · exact hcall n hr (hkey.trans hfirst)
    have hkeys := distinct_of_perm_cons hall
    rw [if_neg hgone] at hkeys
    have hlen := hall.length_eq
    rw [length_cons] at hlen
    rw [hresult]
    refine ⟨hwf'.withCounts _ _, ?_, ?_⟩
    · change (ht.numNodes - 1).toNat = (ht.setChain (ht.pos key) (before ++ rest)).nodes.length
      rw [UInt32.toNat_pred (by omega)]
      omega
    · change (ht.numItems - 1).toNat =
        distinct SpfHashNode.key (ht.setChain (ht.pos key) (before ++ rest)).nodes
      rw [UInt32.toNat_pred (by omega)]
      omega
  · -- a later node of the chain goes, and its key keeps another node
    rw [if_neg hhead] at hcall
    obtain ⟨n, hn, hnaddr, m, hm, hmaddr, hmkey⟩ := hcall
    have haddr : n.addr = found.addr := by
      rw [hnode] at hnaddr
      exact (Option.some.inj hnaddr).symm
    have hperm : (ht.table (ht.pos key)).Perm
        (found :: (before ++ first :: (between ++ after))) := by
      rw [hchain, hrest]
      have hinner : (first :: (between ++ found :: after)).Perm
          (found :: first :: (between ++ after)) :=
        (perm_middle.cons first).trans (List.Perm.swap _ _ _)
      exact (hinner.append_left before).trans perm_middle
    obtain ⟨hwf', hall⟩ := hwf.setChain_remove hlt hperm
    have hsame : n = found := by
      have hnmem : n ∈ ht.nodes := hwf.mem_nodes_of_mem_table
        (by rw [hchain]; exact mem_append_right _ (mem_cons_of_mem _ hn))
      have hfmem : found ∈ ht.nodes := hall.mem_iff.mpr mem_cons_self
      exact inj_on_of_nodup_map hwf.nodup hnmem hfmem haddr
    have hkept : ∃ y ∈ (ht.setChain (ht.pos key) (before ++ first :: (between ++ after))).nodes,
        y.key = found.key := by
      rcases mem_cons.mp (hall.mem_iff.mp hm) with rfl | hm'
      · exact absurd haddr.symm hmaddr
      · exact ⟨m, hm', hsame ▸ hmkey⟩
    have hkeys := distinct_of_perm_cons hall
    rw [if_pos hkept] at hkeys
    have hlen := hall.length_eq
    rw [length_cons] at hlen
    rw [hresult]
    refine ⟨hwf'.withCounts _ ht.numItems, ?_, ?_⟩
    · change (ht.numNodes - 1).toNat =
        (ht.setChain (ht.pos key) (before ++ first :: (between ++ after))).nodes.length
      rw [UInt32.toNat_pred (by omega)]
      omega
    · change ht.numItems.toNat = distinct SpfHashNode.key
        (ht.setChain (ht.pos key) (before ++ first :: (between ++ after))).nodes
      omega
  · -- the node to go is not there, which the condition excludes
    rw [if_neg hhead] at hcall
    obtain ⟨n, hn, hnaddr, -⟩ := hcall
    exact absurd hnaddr (habsent n hn)

lemma SpfHashtable.Counted.removeAll (h : ht.Counted) : (spfHashtableRemoveAll ht).2.Counted := by
  obtain ⟨hwf, hempty⟩ := spfHashtableRemoveAll_spec h.1
  refine ⟨hwf, ?_⟩
  unfold SpfHashtable.CountsRight
  rw [hempty]
  exact ⟨rfl, rfl⟩

lemma SpfHashtable.Counted.step (h : ht.Counted) {call : SpfHashtableCall}
    (hcall : ht.CallCounts call) : (ht.step call).Counted := by
  cases call with
  | insert node mallocOk => exact h.insert hcall
  | remove key node => exact h.remove hcall
  | removeAll => exact h.removeAll

/-! ## Runs -/

/-- **Counters along a run.** From an initialised table, along every run of insertions,
removals and `remove_all` calls that all meet their condition, `num_nodes` is the
number of linked nodes and `num_items` the number of distinct keys among them. -/
theorem spfHashtable_counts_right_along (abi : Abi) (size factor : UInt32) (mallocOk : Bool)
    (ht : SpfHashtable) (hinit : spfHashtableInit abi size factor mallocOk = .ok ht)
    (calls : List SpfHashtableCall)
    (hcalls : Meets SpfHashtable.step SpfHashtable.CallCounts ht calls) :
    Along SpfHashtable.step SpfHashtable.CountsRight ht calls := by
  obtain ⟨hwf, hnodes, hnum, hitems⟩ := spfHashtableInit_spec hinit
  have hcounted : ht.Counted := by
    refine ⟨hwf, ?_, ?_⟩
    · rw [hnum, hnodes]
      rfl
    · rw [hitems, hnodes]
      rfl
  have halong := along_of_meets (I := SpfHashtable.Counted) (fun _ _ h hc => h.step hc) hcounted
    hcalls
  exact halong.mono fun _ h => h.2

/-- Four buckets; two nodes with one key, one with another, and the older duplicate
taken out again. -/
theorem spfHashtable_counts_right_along_dup : ∃ ht, spfHashtableInit .bits64 4 2 true = .ok ht ∧
      Along SpfHashtable.step SpfHashtable.CountsRight ht
        [.insert ⟨1, [7]⟩ true, .insert ⟨2, [7]⟩ true, .insert ⟨3, [8]⟩ true,
          .remove [7] (some 1)] :=
  ⟨_, rfl, spfHashtable_counts_right_along .bits64 4 2 true _ rfl _ (by decide +kernel)⟩

/-- Growing the table changes the counters: with one bucket and factor two, the third
key makes the table grow, which links the same three nodes again and leaves both
counters at six. -/
theorem spfHashtable_growth_counts_twice :
    ¬ ∀ (abi : Abi) (size factor : UInt32) (mallocOk : Bool) (ht : SpfHashtable)
        (calls : List SpfHashtableCall),
      spfHashtableInit abi size factor mallocOk = .ok ht →
      Along SpfHashtable.step SpfHashtable.CountsRight ht calls := by
  intro h
  have hrun := h .bits64 1 2 true _
    [.insert ⟨1, [1]⟩ true, .insert ⟨2, [2]⟩ true, .insert ⟨3, [3]⟩ true] rfl
  revert hrun
  decide +kernel

end AudioReach
