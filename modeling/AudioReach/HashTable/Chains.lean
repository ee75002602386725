import AudioReach.HashTable.Model

/-!
# What one call does to the chains

The counters and the multimap view of the hash table both rest on the same facts
about chains: where `hashtable_findpos` stops, that an insertion adds exactly its
node and puts it in front of the nodes of its key, that growing relinks the same
nodes and keeps the order of equal keys, and that a removal takes out exactly one
node.

`SpfHashtable.WF` is the invariant under which these hold: the mask belongs to the
size, every node sits in the bucket of its key, and no address is linked twice.
-/

namespace AudioReach

open Library List

namespace SpfHashtable

/-- The nodes with a given key, in the order of their chain. -/
def ofKey (ht : SpfHashtable) (key : List UInt8) : List SpfHashNode :=
  (ht.table (ht.pos key)).filter (fun n => n.key = key)

/-- No node with that address is linked. -/
def Fresh (ht : SpfHashtable) (addr : Addr) : Prop :=
  ∀ n ∈ ht.nodes, n.addr ≠ addr

/-- Shape invariant of the table. -/
structure WF (ht : SpfHashtable) : Prop where
  size_ne : ht.tableSize ≠ 0
  mask_eq : ht.maskSize = ht.tableSize - 1
  placed : ∀ i, ∀ n ∈ ht.table i, ht.pos n.key = i
  nodup : (ht.nodes.map SpfHashNode.addr).Nodup

end SpfHashtable

/-! ## Positions -/

section

variable {ht : SpfHashtable} {n : SpfHashNode} (hwf : ht.WF)
include hwf

lemma SpfHashtable.WF.pos_lt (key : List UInt8) : ht.pos key < ht.tableSize.toNat := by
  have hpos : 0 < ht.tableSize.toNat := by
    rcases Nat.eq_zero_or_pos ht.tableSize.toNat with h | h
    · exact absurd (UInt32.toNat_inj.mp (by simpa using h)) hwf.size_ne
    · exact h
  have hmask : ht.maskSize.toNat = ht.tableSize.toNat - 1 := by
    rw [hwf.mask_eq, UInt32.toNat_sub_of_le]
    · rfl
    · exact UInt32.le_iff_toNat_le.mpr hpos
  calc _ ≤ ht.maskSize.toNat := Nat.and_le_right
    _ < ht.tableSize.toNat := by omega

lemma SpfHashtable.WF.mem_nodes_iff : n ∈ ht.nodes ↔ n ∈ ht.table (ht.pos n.key) := by
  unfold SpfHashtable.nodes
  rw [mem_chains]
  constructor
  · rintro ⟨i, -, hn⟩
    rwa [hwf.placed i n hn]
  · intro hn
    exact ⟨_, hwf.pos_lt n.key, hn⟩

lemma SpfHashtable.WF.mem_nodes_of_mem_table {i : ℕ} (hn : n ∈ ht.table i) : n ∈ ht.nodes := by
  rw [hwf.mem_nodes_iff, hwf.placed i n hn]
  exact hn

lemma SpfHashtable.WF.filter_nodes (key : List UInt8) :
    ht.nodes.filter (fun n => n.key = key) = ht.ofKey key := by
  refine filter_chains (hwf.pos_lt key) ?_
  intro j _ n hn hkey
  rw [← of_decide_eq_true hkey, hwf.placed j n hn]

end

/-- `hashtable_findpos` either runs off the chain, which then has no node with the
key, or stops at the first node with it. -/
lemma hashtableFindpos_cases (ht : SpfHashtable) (key : List UInt8) :
    (hashtableFindpos ht key = (ht.table (ht.pos key), []) ∧
      ∀ n ∈ ht.table (ht.pos key), n.key ≠ key) ∨
    (∃ before first rest, hashtableFindpos ht key = (before, first :: rest) ∧
      ht.table (ht.pos key) = before ++ first :: rest ∧
      (∀ n ∈ before, n.key ≠ key) ∧ first.key = key) := by
  rcases span_cases (fun n => !hashtableEqualkey n.key key) (ht.table (ht.pos key)) with
    ⟨hsplit, hall⟩ | ⟨before, first, rest, hsplit, hchain, hbefore, hfirst⟩
  · left
    exact ⟨hsplit, fun n hn => by simpa using hall n hn⟩
  · right
    exact ⟨before, first, rest, hsplit, hchain, fun n hn => by simpa using hbefore n hn,
      by simpa using hfirst⟩

/-- `spf_hashtable_find` returns the first node of the key. -/
lemma spfHashtableFind_eq (ht : SpfHashtable) (key : List UInt8) :
    spfHashtableFind ht key = (ht.ofKey key).head? := by
  unfold spfHashtableFind SpfHashtable.ofKey
  rcases hashtableFindpos_cases ht key with ⟨hpos, hnone⟩ |
    ⟨before, first, rest, hpos, hchain, hbefore, hfirst⟩
  · have hempty : (ht.table (ht.pos key)).filter (fun n => n.key = key) = [] := by
      simpa [filter_eq_nil_iff] using hnone
    rw [hpos, hempty]
  · have hskip : before.filter (fun n => n.key = key) = [] := by
      simpa [filter_eq_nil_iff] using hbefore
    rw [hpos, hchain, filter_append, hskip]
    simp [hfirst]

/-! ## Replacing one chain -/

section SetChain

variable {ht : SpfHashtable} {i : ℕ} {chain : List SpfHashNode}

@[simp] lemma SpfHashtable.pos_setChain (key : List UInt8) :
    (ht.setChain i chain).pos key = ht.pos key := rfl

/-- A table with one more node `x` in the bucket of its key is well formed again. -/
lemma SpfHashtable.WF.setChain_insert (hwf : ht.WF) {x : SpfHashNode} (hfresh : ht.Fresh x.addr)
    (hchain : chain.Perm (x :: ht.table (ht.pos x.key))) :
    (ht.setChain (ht.pos x.key) chain).WF ∧
      (ht.setChain (ht.pos x.key) chain).nodes.Perm (x :: ht.nodes) := by
  have hperm : (ht.setChain (ht.pos x.key) chain).nodes.Perm (x :: ht.nodes) :=
    chains_update_perm_cons (hwf.pos_lt x.key) hchain
  refine ⟨⟨hwf.size_ne, hwf.mask_eq, ?_, ?_⟩, hperm⟩
  · intro j n hn
    by_cases hj : j = ht.pos x.key
    · subst hj
      have hn' : n ∈ chain := by simpa [SpfHashtable.setChain] using hn
      rcases mem_cons.mp (hchain.mem_iff.mp hn') with rfl | hold
      · rfl
      · exact hwf.placed _ n hold
    · exact hwf.placed j n (by simpa [SpfHashtable.setChain, Function.update_of_ne hj] using hn)
  · rw [(hperm.map SpfHashNode.addr).nodup_iff, map_cons, nodup_cons]
    refine ⟨?_, hwf.nodup⟩
    intro hmem
    obtain ⟨n, hn, haddr⟩ := mem_map.mp hmem
    exact hfresh n hn haddr

/-- A table with one node `x` less is well formed again. -/
lemma SpfHashtable.WF.setChain_remove (hwf : ht.WF) {x : SpfHashNode} (hi : i < ht.tableSize.toNat)
    (hchain : (ht.table i).Perm (x :: chain)) :
    (ht.setChain i chain).WF ∧ ht.nodes.Perm (x :: (ht.setChain i chain).nodes) := by
  have hperm : ht.nodes.Perm (x :: (ht.setChain i chain).nodes) :=
    chains_perm_cons_update hi hchain
  refine ⟨⟨hwf.size_ne, hwf.mask_eq, ?_, ?_⟩, hperm⟩
  · intro j n hn
    by_cases hj : j = i
    · subst hj
      have hn' : n ∈ chain := by simpa [SpfHashtable.setChain] using hn
      exact hwf.placed _ n (hchain.mem_iff.mpr (mem_cons_of_mem x hn'))
    · exact hwf.placed j n (by simpa [SpfHashtable.setChain, Function.update_of_ne hj] using hn)
  · have hnodup := (hperm.map SpfHashNode.addr).nodup_iff.mp hwf.nodup
    exact (nodup_cons.mp hnodup).2

lemma SpfHashtable.ofKey_setChain (key : List UInt8) : (ht.setChain i chain).ofKey key =
      if ht.pos key = i then chain.filter (fun n => n.key = key) else ht.ofKey key := by
  unfold SpfHashtable.ofKey
  rw [SpfHashtable.pos_setChain]
  split
  · next h => simp [SpfHashtable.setChain, h]
  · next h => simp [SpfHashtable.setChain, Function.update_of_ne h]

end SetChain

lemma SpfHashtable.WF.withCounts {ht : SpfHashtable} (hwf : ht.WF) (nodes items : UInt32) :
    ({ ht with numNodes := nodes, numItems := items } : SpfHashtable).WF :=
  ⟨hwf.size_ne, hwf.mask_eq, hwf.placed, hwf.nodup⟩

/-! ## Empty tables -/

lemma SpfHashtable.wf_of_empty (ht : SpfHashtable) (hsize : ht.tableSize ≠ 0)
    (hmask : ht.maskSize = ht.tableSize - 1) (hempty : ht.table = fun _ => []) :
    ht.WF ∧ ht.nodes = [] := by
  have hnodes : ht.nodes = [] := by
    simp [SpfHashtable.nodes, hempty, Library.chains]
  refine ⟨⟨hsize, hmask, ?_, ?_⟩, hnodes⟩
  · intro i n hn
    rw [hempty] at hn
    exact absurd hn not_mem_nil
  · rw [hnodes]
    exact nodup_nil

/-! ## Insertion -/

/-- Inserting a node that is not linked yet succeeds, adds exactly that node to the
chain of its key, in front of the other nodes of its key, and leaves the order of
all other keys alone. -/
lemma hashtableInternalinsert_spec (ht : SpfHashtable) (node : SpfHashNode)
    (hfresh : ∀ n ∈ ht.table (ht.pos node.key), n.addr ≠ node.addr) :
    ∃ chain, hashtableInternalinsert ht node =
        (.eok, { ht.setChain (ht.pos node.key) chain with
          numItems := ht.numItems +
            (if ∃ n ∈ ht.table (ht.pos node.key), n.key = node.key then 0 else 1)
          numNodes := ht.numNodes + 1 }) ∧
      chain.Perm (node :: ht.table (ht.pos node.key)) ∧
      ∀ key, chain.filter (fun n => n.key = key) =
        (node :: ht.table (ht.pos node.key)).filter (fun n => n.key = key) := by
  unfold hashtableInternalinsert
  rcases hashtableFindpos_cases ht node.key with ⟨hpos, hnone⟩ |
    ⟨before, first, rest, hpos, hchain, hbefore, hfirst⟩
  · have hnew : ¬ ∃ n ∈ ht.table (ht.pos node.key), n.key = node.key := by
      rintro ⟨n, hn, hkey⟩
      exact hnone n hn hkey
    refine ⟨ht.table (ht.pos node.key) ++ [node], ?_, perm_append_singleton _ _, ?_⟩
    · rw [hpos, if_neg hnew]
    · intro key
      simp only [filter_append, filter_cons, filter_nil]
      by_cases hkey : node.key = key
      · -- the chain has no node with this key, so front and end are the same
        have hempty : (ht.table (ht.pos node.key)).filter (fun n => n.key = key) = [] := by
          rw [filter_eq_nil_iff]
          intro n hn
          simpa [← hkey] using hnone n hn
        rw [hempty, nil_append]
      · simp [hkey]
  · have hdup : ∃ n ∈ ht.table (ht.pos node.key), n.key = node.key :=
      ⟨first, by simp [hchain], hfirst⟩
    have hother : ((first :: rest).any fun n => n.addr == node.addr) = false := by
      rw [any_eq_false]
      intro n hn
      have := hfresh n (by rw [hchain]; exact mem_append_right _ hn)
      simpa using this
    refine ⟨before ++ node :: first :: rest, ?_, ?_, ?_⟩
    · rw [hpos, if_pos hdup, UInt32.add_zero]
      simp only [hother, Bool.false_eq_true, if_false]
      rfl
    · rw [hchain]
      exact perm_middle
    · intro key
      rw [hchain]
      by_cases hkey : node.key = key
      · have hskip : before.filter (fun n => n.key = key) = [] := by
          rw [filter_eq_nil_iff]
          intro n hn
          simpa [← hkey] using hbefore n hn
        simp [hkey, hskip]
      · simp [hkey]

variable {node : SpfHashNode}

/-- Insertion of a fresh node into a well-formed table, as used by every caller. -/
lemma hashtableInternalinsert_wf {ht : SpfHashtable} (hwf : ht.WF) (hfresh : ht.Fresh node.addr) :
    ∃ ht', hashtableInternalinsert ht node = (.eok, ht') ∧ ht'.WF ∧
      ht'.tableSize = ht.tableSize ∧ ht'.resizeFactor = ht.resizeFactor ∧
      ht'.nodes.Perm (node :: ht.nodes) ∧
      (∀ key, ht'.ofKey key = (if node.key = key then [node] else []) ++ ht.ofKey key) ∧
      ht'.numNodes = ht.numNodes + 1 ∧
      ht'.numItems = ht.numItems + (if ∃ n ∈ ht.nodes, n.key = node.key then 0 else 1) := by
  obtain ⟨chain, hins, hperm, hfilter⟩ := hashtableInternalinsert_spec ht node
    fun n hn => hfresh n (hwf.mem_nodes_of_mem_table hn)
  obtain ⟨hwf', hnodes⟩ := hwf.setChain_insert hfresh hperm
  have hpresent : (∃ n ∈ ht.table (ht.pos node.key), n.key = node.key) ↔
      ∃ n ∈ ht.nodes, n.key = node.key := by
    constructor
    · rintro ⟨n, hn, hkey⟩
      exact ⟨n, hwf.mem_nodes_of_mem_table hn, hkey⟩
    · rintro ⟨n, hn, hkey⟩
      exact ⟨n, by rw [← hkey]; exact hwf.mem_nodes_iff.mp hn, hkey⟩
  refine ⟨_, hins, hwf'.withCounts _ _, rfl, rfl, hnodes, ?_, rfl, ?_⟩
  · intro key
    change (ht.setChain (ht.pos node.key) chain).ofKey key = _
    rw [SpfHashtable.ofKey_setChain]
    split
    · next hpos =>
      rw [hfilter key, ← hpos]
      by_cases hkey : node.key = key <;> simp [hkey, SpfHashtable.ofKey]
    · next hpos =>
      have hkey : node.key ≠ key := fun h => hpos (by rw [h])
      simp [hkey]
  · simp only [hpresent]

/-- An insertion links and counts; the table it works on stays the one it was. -/
lemma hashtableInternalinsert_table (ht : SpfHashtable) (node : SpfHashNode) :
    ∃ table nodes items, (hashtableInternalinsert ht node).2 =
      { ht with table := table, numNodes := nodes, numItems := items } := by
  unfold hashtableInternalinsert
  split
  · exact ⟨_, _, _, rfl⟩
  · split
    · exact ⟨_, _, _, rfl⟩
    · exact ⟨_, _, _, rfl⟩

/-! ## Growth -/

/-- Re-inserting fresh nodes one by one: they are all linked, and the nodes of each
key come out in reverse order of insertion in front of the old ones. -/
lemma hashtableReinsert_spec (ns : List SpfHashNode) {ht : SpfHashtable} (hwf : ht.WF)
    (hnodup : (ns.map SpfHashNode.addr).Nodup) (hfresh : ∀ n ∈ ns, ht.Fresh n.addr) :
    (hashtableReinsert ht ns).WF ∧ (hashtableReinsert ht ns).tableSize = ht.tableSize ∧
      (hashtableReinsert ht ns).resizeFactor = ht.resizeFactor ∧
      (hashtableReinsert ht ns).nodes.Perm (ns ++ ht.nodes) ∧
      ∀ key, (hashtableReinsert ht ns).ofKey key =
        (ns.filter (fun n => n.key = key)).reverse ++ ht.ofKey key := by
  induction ns generalizing ht with
  | nil => exact ⟨hwf, rfl, rfl, List.Perm.refl _, fun key => by simp [hashtableReinsert]⟩
  | cons n ns ih =>
    rw [map_cons, nodup_cons] at hnodup
    obtain ⟨ht', hins, hwf', hsize, hfactor, hperm, hkeys, -, -⟩ :=
      hashtableInternalinsert_wf hwf (hfresh n mem_cons_self)
    have hfresh' : ∀ m ∈ ns, ht'.Fresh m.addr := by
      intro m hm x hx
      rcases mem_cons.mp (hperm.mem_iff.mp hx) with rfl | hold
      · intro haddr
        exact hnodup.1 (mem_map.mpr ⟨m, hm, haddr.symm⟩)
      · exact hfresh m (mem_cons_of_mem n hm) x hold
    obtain ⟨hwf'', hsize', hfactor', hperm', hkeys'⟩ := ih hwf' hnodup.2 hfresh'
    have hcons : hashtableReinsert ht (n :: ns) = hashtableReinsert ht' ns := by
      simp [hashtableReinsert, hins]
    rw [hcons]
    refine ⟨hwf'', hsize'.trans hsize, hfactor'.trans hfactor, ?_, ?_⟩
    · calc (hashtableReinsert ht' ns).nodes.Perm (ns ++ ht'.nodes) := hperm'
        List.Perm _ (ns ++ n :: ht.nodes) := hperm.append_left ns
        List.Perm _ (n :: ns ++ ht.nodes) := perm_middle
    · intro key
      rw [hkeys' key, hkeys key]
      by_cases hkey : n.key = key <;> simp [hkey]

/-- A successful growth relinks the same nodes, and the nodes of each key keep their
order. -/
lemma hashtableGrow_spec {ht : SpfHashtable} (hwf : ht.WF) (mallocOk : Bool) :
    (hashtableGrow ht mallocOk).2.WF ∧ (hashtableGrow ht mallocOk).2.nodes.Perm ht.nodes ∧
      ∀ key, (hashtableGrow ht mallocOk).2.ofKey key = ht.ofKey key := by
  unfold hashtableGrow
  dsimp only
  split
  · exact ⟨hwf, List.Perm.refl _, fun _ => rfl⟩
  next halloc =>
  have hsize : ht.tableSize * ht.resizeFactor ≠ 0 := fun h =>
    halloc (.inl (by rw [SpfHashtable.growBytes, h, UInt32.zero_mul]))
  -- the loop over the old buckets is one re-insertion of all reversed chains
  set order := chains (fun i => (ht.table i).reverse) ht.tableSize.toNat with horder
  have hfold : ∀ new : SpfHashtable, (range ht.tableSize.toNat).foldl
        (fun new i => hashtableReinsert new (ht.table i).reverse) new =
      hashtableReinsert new order := by
    intro new
    rw [horder, Library.chains, hashtableReinsert, foldl_flatMap]
    rfl
  have hperm : order.Perm ht.nodes := by
    exact List.Perm.flatMap_left _ fun i _ => reverse_perm _
  set empty : SpfHashtable :=
    { ht with
      table := fun _ => []
      tableSize := ht.tableSize * ht.resizeFactor
      maskSize := ht.tableSize * ht.resizeFactor - 1
      overrun := ht.overrun || decide (ht.growBytes.toNat <
        (ht.tableSize * ht.resizeFactor).toNat * ht.abi.ptrSize) } with hempty
  obtain ⟨hwf0, hnone⟩ := empty.wf_of_empty hsize rfl rfl
  have hspec := hashtableReinsert_spec order hwf0
    ((hperm.map SpfHashNode.addr).nodup_iff.mpr hwf.nodup)
    (fun n _ m hm => by rw [hnone] at hm; exact absurd hm not_mem_nil)
  rw [hfold]
  obtain ⟨hwf', -, -, hnodes, hkeys⟩ := hspec
  refine ⟨hwf', ?_, ?_⟩
  · rw [hnone, append_nil] at hnodes
    exact hnodes.trans hperm
  · intro key
    have hone : order.filter (fun n => n.key = key) =
        (ht.table (ht.pos key)).reverse.filter (fun n => n.key = key) := by
      refine filter_chains (hwf.pos_lt key) ?_
      intro j _ n hn hkey
      rw [← of_decide_eq_true hkey, hwf.placed j n (mem_reverse.mp hn)]
    rw [hkeys key, hone]
    simp [hempty, SpfHashtable.ofKey]

/-! ## `spf_hashtable_insert` -/

/-- Clearing the `next_ptr` of a node that is not in the chain changes nothing. -/
lemma cutAfter_of_forall_ne {addr : Addr} {chain : List SpfHashNode}
    (h : ∀ n ∈ chain, n.addr ≠ addr) : cutAfter addr chain = chain := by
  unfold cutAfter
  rw [span_of_forall fun n hn => by simpa using h n hn]
  simp

/-- A chain that ends at the node is not changed by clearing its `next_ptr`. -/
lemma cutAfter_concat {front : List SpfHashNode} (h : ∀ n ∈ front, n.addr ≠ node.addr) :
    cutAfter node.addr (front ++ [node]) = front ++ [node] := by
  unfold cutAfter
  rw [span_concat (fun n hn => by simpa using h n hn) (by simp)]
  simp

/-- `spf_hashtable_insert` of a fresh node: the insertion, then perhaps growth. -/
lemma spfHashtableInsert_of_fresh {ht : SpfHashtable} (hwf : ht.WF)
    (hfresh : ht.Fresh node.addr) (mallocOk : Bool) :
    spfHashtableInsert ht node mallocOk = (.eok, if (hashtableInternalinsert ht node).2.numItems >
            ht.tableSize * ht.resizeFactor
        then (hashtableGrow (hashtableInternalinsert ht node).2 mallocOk).2
        else (hashtableInternalinsert ht node).2) := by
  have hcut : ({ ht with table := fun i => cutAfter node.addr (ht.table i) } : SpfHashtable) =
      ht := by
    have htable : (fun i => cutAfter node.addr (ht.table i)) = ht.table := by
      funext i
      exact cutAfter_of_forall_ne fun n hn => hfresh n (hwf.mem_nodes_of_mem_table hn)
    rw [htable]
  obtain ⟨ht', hins, -, hsize, hfactor, -⟩ := hashtableInternalinsert_wf hwf hfresh
  unfold spfHashtableInsert
  dsimp only
  rw [hcut, hins]
  dsimp only
  rw [hsize, hfactor]
  split <;> rfl

/-- `spf_hashtable_insert` of a node that already ends the chain of its key is
refused and changes nothing. -/
lemma spfHashtableInsert_of_last {ht : SpfHashtable} (hwf : ht.WF)
    {front : List SpfHashNode} (hchain : ht.table (ht.pos node.key) = front ++ [node])
    (mallocOk : Bool) : spfHashtableInsert ht node mallocOk = (.ealready, ht) := by
  have hmem : node ∈ ht.table (ht.pos node.key) := by simp [hchain]
  -- the node is linked once, so every other node has another address
  have hfront : ∀ n ∈ front, n.addr ≠ node.addr := by
    have hperm := (chains_perm ht.table (hwf.pos_lt node.key)).map SpfHashNode.addr
    have hnodup := hperm.nodup_iff.mp hwf.nodup
    rw [hchain, map_append, map_append] at hnodup
    intro n hn haddr
    have hdis := disjoint_of_nodup_append hnodup.of_append_left
    exact hdis (mem_map_of_mem hn) (by simp [haddr])
  have hcut : ({ ht with table := fun i => cutAfter node.addr (ht.table i) } : SpfHashtable) =
      ht := by
    have htable : (fun i => cutAfter node.addr (ht.table i)) = ht.table := by
      funext i
      by_cases hi : i = ht.pos node.key
      · rw [hi, hchain, cutAfter_concat hfront]
      · refine cutAfter_of_forall_ne ?_
        intro n hn haddr
        have hsame : n = node := inj_on_of_nodup_map hwf.nodup
          (hwf.mem_nodes_of_mem_table hn) (hwf.mem_nodes_of_mem_table hmem) haddr
        exact hi (by rw [← hwf.placed i n hn, hsame])
    rw [htable]
  have hins : hashtableInternalinsert ht node = (.ealready, ht) := by
    unfold hashtableInternalinsert
    rcases hashtableFindpos_cases ht node.key with ⟨-, hnone⟩ |
      ⟨before, first, rest, hpos, hsplit, hbefore, -⟩
    · exact absurd rfl (hnone node hmem)
    · have hlater : node ∈ first :: rest := by
        rw [hsplit] at hmem
        rcases mem_append.mp hmem with hb | hr
        · exact absurd rfl (hbefore node hb)
        · exact hr
      have hany : ((first :: rest).any fun n => n.addr == node.addr) = true :=
        any_eq_true.mpr ⟨node, hlater, by simp⟩
      rw [hpos]
      dsimp only
      rw [if_pos hany]
  unfold spfHashtableInsert
  dsimp only
  rw [hcut, hins]

/-! ## `spf_hashtable_remove` -/

/-- What a removal does, case by case: nothing if the key is absent; unlink the first
node of the key; unlink a later node of the chain; or unlink nothing at all. -/
lemma spfHashtableRemove_cases (ht : SpfHashtable) (key : List UInt8) (node : Option Addr) :
    (hashtableFindpos ht key = (ht.table (ht.pos key), []) ∧
      (∀ n ∈ ht.table (ht.pos key), n.key ≠ key) ∧
      (spfHashtableRemove ht key node).2.1 = ht) ∨
    ∃ before first rest, hashtableFindpos ht key = (before, first :: rest) ∧
      ht.table (ht.pos key) = before ++ first :: rest ∧
      (∀ n ∈ before, n.key ≠ key) ∧ first.key = key ∧
      (((node = none ∨ node = some first.addr) ∧ (spfHashtableRemove ht key node).2.1 =
            { ht.setChain (ht.pos key) (before ++ rest) with
              numNodes := ht.numNodes - 1, numItems := ht.numItems - 1 }) ∨
        (¬ (node = none ∨ node = some first.addr) ∧
          ∃ between found after, rest = between ++ found :: after ∧ node = some found.addr ∧
          (∀ n ∈ between, n.addr ≠ found.addr) ∧
          (spfHashtableRemove ht key node).2.1 =
            { ht.setChain (ht.pos key) (before ++ first :: (between ++ after)) with
              numNodes := ht.numNodes - 1 }) ∨
        (¬ (node = none ∨ node = some first.addr) ∧ (∀ n ∈ rest, node ≠ some n.addr) ∧
          (spfHashtableRemove ht key node).2.1 = { ht with numNodes := ht.numNodes - 1 })) := by
  unfold spfHashtableRemove
  rcases hashtableFindpos_cases ht key with ⟨hpos, hnone⟩ |
    ⟨before, first, rest, hpos, hchain, hbefore, hfirst⟩
  · left
    rw [hpos]
    exact ⟨rfl, hnone, rfl⟩
  · right
    refine ⟨before, first, rest, hpos, hchain, hbefore, hfirst, ?_⟩
    rw [hpos]
    dsimp only
    by_cases hhead : node = none ∨ node = some first.addr
    · left
      rw [if_pos hhead]
      exact ⟨hhead, rfl⟩
    · right
      rw [if_neg hhead]
      rcases span_cases (fun n : SpfHashNode => some n.addr != node) rest with
        ⟨hsplit, hall⟩ | ⟨between, found, after, hsplit, hrest, hbetween, hfound⟩
      · right
        rw [hsplit]
        refine ⟨hhead, ?_, rfl⟩
        intro n hn heq
        simpa [heq] using hall n hn
      · left
        have hnode : node = some found.addr := by simpa using (bne_eq_false_iff_eq.mp hfound).symm
        rw [hsplit]
        refine ⟨hhead, between, found, after, hrest, hnode, ?_, rfl⟩
        intro n hn heq
        simpa [hnode, heq] using hbetween n hn

/-! ## `spf_hashtable_remove_all` and `spf_hashtable_init` -/

/-- `spf_hashtable_remove_all` empties every chain. -/
lemma spfHashtableRemoveAll_table {ht : SpfHashtable} (hwf : ht.WF) :
    (spfHashtableRemoveAll ht).2.table = fun _ => [] := by
  funext i
  unfold spfHashtableRemoveAll
  dsimp only
  split
  · rfl
  · next hi =>
    -- no key has a bucket outside the table
    rw [eq_nil_iff_forall_not_mem]
    intro n hn
    have hlt := hwf.pos_lt n.key
    rw [hwf.placed i n hn] at hlt
    exact hi hlt

lemma spfHashtableRemoveAll_spec {ht : SpfHashtable} (hwf : ht.WF) :
    (spfHashtableRemoveAll ht).2.WF ∧ (spfHashtableRemoveAll ht).2.nodes = [] :=
  SpfHashtable.wf_of_empty _ hwf.size_ne hwf.mask_eq (spfHashtableRemoveAll_table hwf)

lemma spfHashtableInit_spec {abi : Abi} {size factor : UInt32} {mallocOk : Bool}
    {ht : SpfHashtable} (h : spfHashtableInit abi size factor mallocOk = .ok ht) :
    ht.WF ∧ ht.nodes = [] ∧ ht.numNodes = 0 ∧ ht.numItems = 0 := by
  unfold spfHashtableInit at h
  dsimp only at h
  split at h
  · cases h
  next hsize =>
  split at h
  · cases h
  split at h
  · cases h
  injection h with h
  subst h
  obtain ⟨hwf, hnodes⟩ := SpfHashtable.wf_of_empty
    { table := fun _ => [], tableSize := 1 <<< size.log2, maskSize := 1 <<< size.log2 - 1,
      resizeFactor := factor, numNodes := 0, numItems := 0, abi := abi,
      overrun := decide ((1 <<< size.log2 * UInt32.ofNat abi.ptrSize).toNat <
        (1 <<< size.log2).toNat * abi.ptrSize) } hsize rfl rfl
  exact ⟨hwf, hnodes, rfl, rfl⟩

end AudioReach
