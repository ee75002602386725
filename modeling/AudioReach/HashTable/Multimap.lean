import AudioReach.HashTable.Counts

/-!
# The hash table as a multimap

What the table is for: a multimap in which a lookup returns the node inserted last
among those of its key that are still there.  The abstract state is the list of live
nodes, most recent first; nothing of buckets, hashes or growth is left in it.

The table refines it.  The relation `SpfHashtable.Represents` says that the chains hold
exactly the live nodes and that inside each chain the nodes of one key stand in the
order of the abstract list.  Contiguity of equal keys in a chain is not needed: an
insertion only has to land in front of the first node of its key, and growth reverses
each chain twice, once by hand and once by inserting in front.
-/

namespace AudioReach

open Library List

/-! ## The abstract multimap -/

/-- Live nodes, the most recently inserted first. -/
abbrev LiveNodes := List SpfHashNode

namespace LiveNodes

/-- The most recently inserted live node with the key. -/
def find (live : LiveNodes) (key : List UInt8) : Option SpfHashNode :=
  find? (fun n => n.key = key) live

/-- Take out the node with that address. -/
def erase (live : LiveNodes) (addr : Addr) : LiveNodes :=
  filter (fun n => n.addr ≠ addr) live

/-- What a call does to the live nodes.  A removal without a node takes out the most
recent one of the key. -/
def step (live : LiveNodes) : SpfHashtableCall → LiveNodes
  | .insert node _ => node :: live
  | .remove key none => match live.find key with
      | some n => live.erase n.addr
      | none => live
  | .remove _ (some addr) => live.erase addr
  | .removeAll => []

/-- The calls the multimap is specified for: insertions of nodes that are not live and
removals of live nodes under their own key. -/
def Admits (live : LiveNodes) : SpfHashtableCall → Prop
  | .insert node _ => ∀ n ∈ live, n.addr ≠ node.addr
  | .remove key none => ∃ n ∈ live, n.key = key
  | .remove key (some addr) => ∃ n ∈ live, n.addr = addr ∧ n.key = key
  | .removeAll => True

instance (live : LiveNodes) : ∀ call, Decidable (live.Admits call)
  | .insert node _ => inferInstanceAs (Decidable (∀ n ∈ live, n.addr ≠ node.addr))
  | .remove key none => inferInstanceAs (Decidable (∃ n ∈ live, n.key = key))
  | .remove key (some addr) =>
      inferInstanceAs (Decidable (∃ n ∈ live, n.addr = addr ∧ n.key = key))
  | .removeAll => inferInstanceAs (Decidable True)

end LiveNodes

/-! ## The refinement relation -/

/-- The chains hold exactly the live nodes, and the nodes of each key in their order. -/
structure SpfHashtable.Represents (ht : SpfHashtable) (live : LiveNodes) : Prop where
  wf : ht.WF
  perm : ht.nodes.Perm live
  /-- Each key's nodes are in the order of the live nodes. -/
  order : ∀ key, ht.ofKey key = live.filter (fun n => n.key = key)

namespace SpfHashtable.Represents

variable {ht : SpfHashtable} {live : LiveNodes}

lemma of_empty (hwf : ht.WF) (hnodes : ht.nodes = []) : ht.Represents [] := by
  refine ⟨hwf, by rw [hnodes], ?_⟩
  intro key
  rw [← hwf.filter_nodes key, hnodes]

section

variable (h : ht.Represents live)
include h

lemma find_eq (key : List UInt8) : spfHashtableFind ht key = live.find key := by
  rw [spfHashtableFind_eq, h.order key, head?_filter]
  rfl

lemma grow (mallocOk : Bool) : (hashtableGrow ht mallocOk).2.Represents live := by
  obtain ⟨hwf, hperm, hkeys⟩ := hashtableGrow_spec h.wf mallocOk
  exact ⟨hwf, hperm.trans h.perm, fun key => (hkeys key).trans (h.order key)⟩

lemma insert {node : SpfHashNode} (hnew : ∀ n ∈ live, n.addr ≠ node.addr) (mallocOk : Bool) :
    (spfHashtableInsert ht node mallocOk).2.Represents (node :: live) := by
  have hfresh : ht.Fresh node.addr := fun n hn => hnew n (h.perm.mem_iff.mp hn)
  obtain ⟨ht', hins, hwf', -, -, hperm, hkeys, -, -⟩ := hashtableInternalinsert_wf h.wf hfresh
  have hrep : ht'.Represents (node :: live) := by
    refine ⟨hwf', hperm.trans (h.perm.cons node), ?_⟩
    intro key
    rw [hkeys key, h.order key, filter_cons]
    by_cases hkey : node.key = key <;> simp [hkey]
  rw [spfHashtableInsert_of_fresh h.wf hfresh, hins]
  split
  · exact hrep.grow mallocOk
  · exact hrep

/-- Taking one linked node out of its chain takes it out of the live nodes. -/
lemma erase {x : SpfHashNode} {before after : List SpfHashNode}
    (hchain : ht.table (ht.pos x.key) = before ++ x :: after) (nodes items : UInt32) :
    ({ ht.setChain (ht.pos x.key) (before ++ after) with
      numNodes := nodes, numItems := items } : SpfHashtable).Represents (live.erase x.addr) := by
  have hperm : (ht.table (ht.pos x.key)).Perm (x :: (before ++ after)) := by
    rw [hchain]
    exact perm_middle
  obtain ⟨hwf', hall⟩ := h.wf.setChain_remove (h.wf.pos_lt x.key) hperm
  have hchainNodup : ((before ++ x :: after).map SpfHashNode.addr).Nodup := by
    have hsplit := (chains_perm ht.table (h.wf.pos_lt x.key)).map SpfHashNode.addr
    have hnodup := hsplit.nodup_iff.mp h.wf.nodup
    rw [map_append, hchain] at hnodup
    exact hnodup.of_append_left
  refine ⟨hwf'.withCounts _ _, ?_, ?_⟩
  · exact perm_filter_ne hall h.perm h.wf.nodup
  · intro key
    change (ht.setChain (ht.pos x.key) (before ++ after)).ofKey key = _
    have hcomm : (live.erase x.addr).filter (fun n => n.key = key) =
        (ht.ofKey key).filter (fun n => n.addr ≠ x.addr) := by
      rw [h.order key, LiveNodes.erase, filter_filter, filter_filter]
      simp only [Bool.and_comm]
    rw [hcomm, SpfHashtable.ofKey_setChain]
    split
    · next hpos =>
      rw [SpfHashtable.ofKey, hpos, hchain, filter_filter,
        ← filter_ne_append_cons hchainNodup, filter_filter]
      simp only [Bool.and_comm]
    · next hpos =>
      -- `x` sits in another bucket
      symm
      rw [filter_eq_self]
      intro n hn
      have hnkey : n.key = key := by simpa using (mem_filter.mp hn).2
      have hntable := (mem_filter.mp hn).1
      refine decide_eq_true ?_
      intro haddr
      have hxmem : x ∈ ht.nodes :=
        h.wf.mem_nodes_of_mem_table (i := ht.pos x.key) (by simp [hchain])
      have hsame : n = x := inj_on_of_nodup_map h.wf.nodup
        (h.wf.mem_nodes_of_mem_table hntable) hxmem haddr
      exact hpos (by rw [← hnkey, hsame])

lemma remove_first {key : List UInt8} (hlive : ∃ n ∈ live, n.key = key) :
    ∃ n, live.find key = some n ∧
      (spfHashtableRemove ht key none).2.1.Represents (live.erase n.addr) := by
  rcases spfHashtableRemove_cases ht key none with ⟨-, hnone, -⟩ |
    ⟨before, first, rest, hpos, hchain, hbefore, hfirst, hcase⟩
  · obtain ⟨n, hn, hkey⟩ := hlive
    have hmem := h.wf.mem_nodes_iff.mp (h.perm.mem_iff.mpr hn)
    rw [hkey] at hmem
    exact absurd hkey (hnone n hmem)
  · have hfind : live.find key = some first := by
      rw [← h.find_eq key, spfHashtableFind, hpos]
      rfl
    refine ⟨first, hfind, ?_⟩
    rcases hcase with ⟨-, hresult⟩ | ⟨hhead, -⟩ | ⟨hhead, -⟩
    · rw [hresult]
      subst hfirst
      exact h.erase hchain _ _
    · exact absurd (Or.inl rfl) hhead
    · exact absurd (Or.inl rfl) hhead

/-- Removing a live node by its address removes exactly it. -/
lemma remove_node {key : List UInt8} {addr : Addr} (hlive : ∃ n ∈ live, n.addr = addr ∧ n.key = key)
    : (spfHashtableRemove ht key (some addr)).2.1.Represents (live.erase addr) := by
  obtain ⟨n, hn, haddr, hkey⟩ := hlive
  have hnodes : n ∈ ht.nodes := h.perm.mem_iff.mpr hn
  have hmem := h.wf.mem_nodes_iff.mp hnodes
  rw [hkey] at hmem
  rcases spfHashtableRemove_cases ht key (some addr) with ⟨-, hnone, -⟩ |
    ⟨before, first, rest, -, hchain, hbefore, hfirst, hcase⟩
  · exact absurd hkey (hnone n hmem)
  · rcases hcase with ⟨hhead, hresult⟩ |
      ⟨-, between, found, after, hrest, hnode, -, hresult⟩ | ⟨hhead, habsent, -⟩
    · have hsame : first.addr = addr := by
        rcases hhead with hhead | hhead
        · cases hhead
        · exact (Option.some.inj hhead).symm
      rw [hresult]
      subst hfirst hsame
      exact h.erase hchain _ _
    · have hsame : addr = found.addr := Option.some.inj hnode
      have hsplit : ht.table (ht.pos key) = (before ++ first :: between) ++ found :: after := by
        rw [hchain, hrest]
        simp
      have hfound : found = n := inj_on_of_nodup_map h.wf.nodup
        (h.wf.mem_nodes_of_mem_table (i := ht.pos key) (by simp [hsplit])) hnodes
        (hsame.symm.trans haddr.symm)
      have hfkey : found.key = key := by rw [hfound, hkey]
      rw [hresult]
      subst hfkey hsame
      have herase := h.erase hsplit (ht.numNodes - 1) ht.numItems
      rw [append_assoc, cons_append] at herase
      exact herase
    · -- the node is in the chain at or after the first node of its key
      rw [hchain] at hmem
      rcases mem_append.mp hmem with hb | hr
      · exact absurd hkey (hbefore n hb)
      · rcases mem_cons.mp hr with rfl | hr
        · exact absurd (Or.inr (by rw [haddr])) hhead
        · exact absurd (by rw [haddr]) (habsent n hr)

lemma removeAll : (spfHashtableRemoveAll ht).2.Represents [] := by
  obtain ⟨hwf, hnodes⟩ := spfHashtableRemoveAll_spec h.wf
  exact of_empty hwf hnodes

lemma step {call : SpfHashtableCall} (hcall : live.Admits call) :
    (ht.step call).Represents (live.step call) := by
  cases call with
  | insert node mallocOk => exact h.insert hcall mallocOk
  | remove key node =>
    cases node with
    | none =>
      obtain ⟨n, hfind, hrep⟩ := h.remove_first hcall
      change (spfHashtableRemove ht key none).2.1.Represents
        (match live.find key with | some n => live.erase n.addr | none => live)
      rw [hfind]
      exact hrep
    | some addr => exact h.remove_node hcall
  | removeAll => exact h.removeAll

end

end SpfHashtable.Represents

/-! ## The memory of the table -/

namespace SpfHashtable

/-- If there is memory for it, the table that an insertion makes the table grow to takes
fewer than `2 ^ 32` bytes, or the bytes asked for come to none. -/
def GrowthFits (ht : SpfHashtable) : SpfHashtableCall → Prop
  | .insert node mallocOk => mallocOk = false ∨ ht.growBytes = 0 ∨
      ht.numItems + (if ∃ n ∈ ht.nodes, n.key = node.key then 0 else 1) ≤
        ht.tableSize * ht.resizeFactor ∨
      (ht.tableSize * ht.resizeFactor).toNat * ht.abi.ptrSize < 2 ^ 32
  | .remove .. | .removeAll => True

instance (ht : SpfHashtable) : ∀ call, Decidable (ht.GrowthFits call)
  | .insert .. => inferInstanceAs (Decidable (_ ∨ _ ∨ _ ∨ _))
  | .remove .. | .removeAll => inferInstanceAs (Decidable True)

/-- The bytes asked for are those of the table, unless these are `2 ^ 32` or more. -/
lemma growBytes_lt_iff (ht : SpfHashtable) :
    ht.growBytes.toNat < (ht.tableSize * ht.resizeFactor).toNat * ht.abi.ptrSize ↔
      2 ^ 32 ≤ (ht.tableSize * ht.resizeFactor).toNat * ht.abi.ptrSize := by
  have hptr : (UInt32.ofNat ht.abi.ptrSize).toNat = ht.abi.ptrSize := by
    cases ht.abi <;> rfl
  rw [growBytes, UInt32.toNat_mul, hptr]
  constructor
  · intro h
    by_contra hlt
    rw [Nat.mod_eq_of_lt (not_le.mp hlt)] at h
    exact lt_irrefl _ h
  · exact fun h => (Nat.mod_lt _ (by decide)).trans_le h

end SpfHashtable

/-- Inserting into a table writes nothing outside its block. -/
lemma hashtableReinsert_overrun (ns : List SpfHashNode) (ht : SpfHashtable) :
    (hashtableReinsert ht ns).overrun = ht.overrun := by
  induction ns generalizing ht with
  | nil => rfl
  | cons n ns ih =>
    obtain ⟨table, nodes, items, htable⟩ := hashtableInternalinsert_table ht n
    calc (hashtableReinsert ht (n :: ns)).overrun
        = (hashtableInternalinsert ht n).2.overrun := ih _
      _ = ht.overrun := by rw [htable]

/-- A growth for which there is memory goes beyond the block iff the table takes `2 ^ 32`
bytes or more. -/
lemma hashtableGrow_overrun (ht : SpfHashtable) (mallocOk : Bool) :
    (hashtableGrow ht mallocOk).2.overrun = false ↔ ht.overrun = false ∧
      (mallocOk = false ∨ ht.growBytes = 0 ∨
        (ht.tableSize * ht.resizeFactor).toNat * ht.abi.ptrSize < 2 ^ 32) := by
  have hloop : ∀ (is : List ℕ) (new : SpfHashtable), (is.foldl
      (fun new i => hashtableReinsert new (ht.table i).reverse) new).overrun = new.overrun := by
    intro is
    induction is with
    | nil => exact fun _ => rfl
    | cons i is ih => exact fun new => (ih _).trans (hashtableReinsert_overrun _ new)
  unfold hashtableGrow
  split
  · next h => exact (and_iff_left (h.symm.imp_right .inl)).symm
  · next h =>
    obtain ⟨hbytes, hmalloc⟩ := not_or.mp h
    rw [hloop, Bool.or_eq_false_iff, decide_eq_false_iff_not, ht.growBytes_lt_iff, not_le,
      or_iff_right hmalloc, or_iff_right hbytes]

namespace SpfHashtable

variable {ht : SpfHashtable} {live : LiveNodes}

/-- One call goes beyond the block of the table iff it makes the table grow too far. -/
lemma Represents.step_overrun (h : ht.Represents live) {call : SpfHashtableCall}
    (hcall : live.Admits call) :
    (ht.step call).overrun = false ↔ ht.overrun = false ∧ ht.GrowthFits call := by
  cases call with
  | insert node mallocOk =>
    have hfresh : ht.Fresh node.addr := fun n hn => hcall n (h.perm.mem_iff.mp hn)
    obtain ⟨ht', hins, -, -, -, -, -, -, hitems⟩ := hashtableInternalinsert_wf h.wf hfresh
    obtain ⟨table, nodes, items, htable⟩ := hashtableInternalinsert_table ht node
    change (spfHashtableInsert ht node mallocOk).2.overrun = false ↔ _ ∧ (_ ∨ _ ∨ _ ∨ _)
    rw [hins] at htable
    subst htable
    rw [spfHashtableInsert_of_fresh h.wf hfresh, hins, ← hitems]
    dsimp only
    split
    · next hlarge =>
      rw [hashtableGrow_overrun, or_iff_right (UInt32.not_le.mpr hlarge)]
      rfl
    · next hfits =>
      exact (and_iff_left (.inr (.inr (.inl (UInt32.not_lt.mp hfits))))).symm
  | remove key node =>
    refine Iff.trans ?_ (and_iff_left trivial).symm
    change (spfHashtableRemove ht key node).2.1.overrun = false ↔ _
    rcases spfHashtableRemove_cases ht key node with ⟨-, -, hresult⟩ |
      ⟨_, _, _, -, -, -, -, ⟨-, hresult⟩ | ⟨-, _, _, _, -, -, -, hresult⟩ | ⟨-, -, hresult⟩⟩
    all_goals rw [hresult]
    all_goals rfl
  | removeAll => exact (and_iff_left trivial).symm

/-- What is claimed of a table whose live nodes are these: lookups return the node inserted
last, the chains hold every live node exactly once, and the table stays in its block. -/
structure Implements (ht : SpfHashtable) (live : LiveNodes) : Prop where
  find_eq : ∀ key, spfHashtableFind ht key = live.find key
  perm : ht.nodes.Perm live
  nodup : ht.nodes.Nodup
  inside : ht.overrun = false

lemma Represents.implements_run_iff (h : ht.Represents live) {calls : List SpfHashtableCall}
    (hcalls : Meets LiveNodes.step LiveNodes.Admits live calls) :
    (run SpfHashtable.step ht calls).Implements (run LiveNodes.step live calls) ↔
      ht.overrun = false ∧ Meets SpfHashtable.step GrowthFits ht calls := by
  induction calls generalizing ht live with
  | nil =>
    exact ⟨fun h => ⟨h.inside, trivial⟩,
      fun hin => ⟨h.find_eq, h.perm, h.wf.nodup.of_map, hin.1⟩⟩
  | cons call calls ih =>
    rw [run_cons, run_cons, ih (h.step hcalls.1) hcalls.2, h.step_overrun hcalls.1, and_assoc]
    rfl

end SpfHashtable

/-- The first table of an initialised table is not larger than its block: its size is a
power of two, and so is that of a pointer. -/
lemma spfHashtableInit_overrun {abi : Abi} {size factor : UInt32} {mallocOk : Bool}
    {ht : SpfHashtable} (h : spfHashtableInit abi size factor mallocOk = .ok ht) :
    ht.overrun = false := by
  have hpow : ∀ j < 32, 2 ^ j * abi.ptrSize % 2 ^ 32 = 0 ∨ 2 ^ j * abi.ptrSize < 2 ^ 32 := by
    cases abi <;> decide
  have hsize : (1 <<< size.log2 : UInt32).toNat = 2 ^ (size.log2.toNat % 32) := by
    rw [UInt32.toNat_shiftLeft, UInt32.toNat_one, Nat.one_shiftLeft]
    exact Nat.mod_eq_of_lt (Nat.pow_lt_pow_right (by decide) (Nat.mod_lt _ (by decide)))
  have hbytes : (1 <<< size.log2 * UInt32.ofNat abi.ptrSize).toNat =
      2 ^ (size.log2.toNat % 32) * abi.ptrSize % 2 ^ 32 := by
    rw [UInt32.toNat_mul, hsize]
    cases abi <;> rfl
  unfold spfHashtableInit at h
  dsimp only at h
  split at h
  · cases h
  split at h
  · cases h
  split at h
  · cases h
  next halloc =>
  injection h with h
  subst h
  refine decide_eq_false (not_lt.mpr ?_)
  rcases hpow _ (Nat.mod_lt size.log2.toNat (by decide : 0 < 32)) with hzero | hlt
  · exact absurd (.inl (UInt32.toNat_inj.mp (hbytes.trans hzero))) halloc
  · rw [hbytes, hsize, Nat.mod_eq_of_lt hlt]

/-- **The hash table as a multimap.** After a run of insertions of nodes that are not live,
removals of live nodes and `remove_all` calls, whatever growth or failed growth happened on
the way, a lookup returns the most recently inserted live node of its key, the chains hold
every live node exactly once and nothing outside the table was written, iff no table was
asked for that takes `2 ^ 32` bytes or more. -/
theorem spfHashtable_implements_multimap_iff (abi : Abi) (size factor : UInt32) (mallocOk : Bool)
    (ht : SpfHashtable) (hinit : spfHashtableInit abi size factor mallocOk = .ok ht)
    (calls : List SpfHashtableCall) (hcalls : Meets LiveNodes.step LiveNodes.Admits [] calls) :
    (run SpfHashtable.step ht calls).Implements (run LiveNodes.step [] calls) ↔
      Meets SpfHashtable.step SpfHashtable.GrowthFits ht calls := by
  obtain ⟨hwf, hnodes, -, -⟩ := spfHashtableInit_spec hinit
  rw [(SpfHashtable.Represents.of_empty hwf hnodes).implements_run_iff hcalls]
  exact and_iff_right (spfHashtableInit_overrun hinit)

/-- One bucket and factor two: the third key makes the table grow under two duplicates of
the first one, the newest of which is then removed. -/
theorem spfHashtable_implements_multimap_growth :
    ∃ ht, spfHashtableInit .bits64 1 2 true = .ok ht ∧
      (run SpfHashtable.step ht
        [.insert ⟨1, [1]⟩ true, .insert ⟨2, [2]⟩ true, .insert ⟨3, [1]⟩ true,
          .insert ⟨4, [1]⟩ true, .insert ⟨5, [3]⟩ true, .remove [1] none]).Implements
        [⟨5, [3]⟩, ⟨3, [1]⟩, ⟨2, [2]⟩, ⟨1, [1]⟩] :=
  ⟨_, rfl, (spfHashtable_implements_multimap_iff .bits64 1 2 true _ rfl
    [.insert ⟨1, [1]⟩ true, .insert ⟨2, [2]⟩ true, .insert ⟨3, [1]⟩ true,
      .insert ⟨4, [1]⟩ true, .insert ⟨5, [3]⟩ true, .remove [1] none] (by decide)).mpr
    (by decide +kernel)⟩

/-- Three nodes with one key, taken out again from the first one on, leave `num_items` at
`2 ^ 32 - 2`; the next key makes the table of one bucket grow to `2 ^ 29 + 1` of them, for
which `posal_memory_malloc` is asked for 8 bytes. -/
theorem not_spfHashtable_implements_multimap :
    ¬ ∀ (abi : Abi) (size factor : UInt32) (mallocOk : Bool) (ht : SpfHashtable)
        (calls : List SpfHashtableCall),
      spfHashtableInit abi size factor mallocOk = .ok ht →
      Meets LiveNodes.step LiveNodes.Admits [] calls →
      (run SpfHashtable.step ht calls).Implements (run LiveNodes.step [] calls) := by
  intro h
  have hin := (h .bits64 1 0x20000001 true _
    [.insert ⟨1, [1]⟩ true, .insert ⟨2, [1]⟩ true, .insert ⟨3, [1]⟩ true, .remove [1] none,
      .remove [1] none, .remove [1] none, .insert ⟨4, [2]⟩ true] rfl (by decide)).inside
  revert hin
  decide +kernel

end AudioReach
