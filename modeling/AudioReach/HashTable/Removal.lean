import AudioReach.HashTable.Chains

/-!
# Removing a node that may not be there

`spf_hashtable_remove` finds the first node with the key and, if another node was asked
for, walks down the rest of the chain.  The walk has no idea of keys: it stops at the node
whoever's key that is, and when it runs off the chain the variable it hands to the free
callback holds the last node of the chain.  By then the node counter is already
decremented.

So the call does what its caller expects as long as the caller names no node, or a node of
that key, or the key has no node at all.  In every other case it does not.
-/

namespace AudioReach

open Library List

namespace SpfHashtable

/-- The node with that address is linked under the key. -/
def LinkedUnder (ht : SpfHashtable) (key : List UInt8) (addr : Addr) : Prop :=
  ∃ n ∈ ht.nodes, n.key = key ∧ n.addr = addr

/-- The call may only take out what it was asked to take out: a node that is not linked
under the key changes nothing and frees no linked node, and a freed node is no longer
linked. -/
structure RemovesCleanly (ht : SpfHashtable) (key : List UInt8) (node : Option Addr) :
    Prop where
  /-- Nothing happens for a node that is not linked under the key. -/
  absent : ∀ addr, node = some addr → ¬ ht.LinkedUnder key addr →
    (spfHashtableRemove ht key node).2.1 = ht ∧
      ∀ freed ∈ (spfHashtableRemove ht key node).2.2, freed ∉ ht.nodes
  freed_gone : ∀ freed ∈ (spfHashtableRemove ht key node).2.2,
    (spfHashtableRemove ht key node).2.1.Fresh freed.addr

/-- The calls that are safe: no node is named, or the key has no node, or the node named
is linked under the key. -/
def RemovalNames (ht : SpfHashtable) (key : List UInt8) (node : Option Addr) : Prop :=
  (∀ n ∈ ht.nodes, n.key ≠ key) ∨ ∀ addr, node = some addr → ht.LinkedUnder key addr

end SpfHashtable

/-! ## The node handed to the callback -/

variable {key : List UInt8} {ht : SpfHashtable}

/-- `spf_hashtable_remove` for a key without nodes. -/
lemma spfHashtableRemove_of_absent (node : Option Addr)
    (hpos : hashtableFindpos ht key = (ht.table (ht.pos key), [])) :
    spfHashtableRemove ht key node = (.efailed, ht, none) := by
  unfold spfHashtableRemove
  rw [hpos]

lemma spfHashtableRemove_of_first {node : Option Addr}
    {before rest : List SpfHashNode} {first : SpfHashNode}
    (hpos : hashtableFindpos ht key = (before, first :: rest))
    (hhead : node = none ∨ node = some first.addr) :
    spfHashtableRemove ht key node =
      (.eok, { ht.setChain (ht.pos key) (before ++ rest) with
        numNodes := ht.numNodes - 1, numItems := ht.numItems - 1 }, some first) := by
  unfold spfHashtableRemove
  rw [hpos]
  dsimp only
  rw [if_pos hhead]
  rfl

lemma spfHashtableRemove_of_later {addr : Addr}
    {before between after : List SpfHashNode} {first found : SpfHashNode}
    (hpos : hashtableFindpos ht key = (before, first :: (between ++ found :: after)))
    (hhead : first.addr ≠ addr) (hbetween : ∀ n ∈ between, n.addr ≠ addr)
    (hfound : found.addr = addr) :
    spfHashtableRemove ht key (some addr) =
      (.eok, { ht.setChain (ht.pos key) (before ++ first :: (between ++ after)) with
        numNodes := ht.numNodes - 1 }, some found) := by
  have hall : ∀ n ∈ between, (some n.addr != some addr) = true := fun n hn => by
    simpa using hbetween n hn
  have hspan : (between ++ found :: after).span (fun n => some n.addr != some addr) =
      (between, found :: after) := by
    rw [span_eq_takeWhile_dropWhile, takeWhile_append_of_pos hall, dropWhile_append_of_pos hall]
    simp [hfound]
  unfold spfHashtableRemove
  rw [hpos]
  dsimp only
  rw [if_neg (by simpa using fun h => hhead h.symm), hspan]
  rfl

/-! ## A node that leaves its chain leaves the table -/

lemma SpfHashtable.WF.fresh_of_removed (hwf : ht.WF) {i : ℕ}
    (hi : i < ht.tableSize.toNat) {x : SpfHashNode} {before after : List SpfHashNode}
    (hchain : ht.table i = before ++ x :: after) :
    (ht.setChain i (before ++ after)).Fresh x.addr := by
  have hperm : (ht.table i).Perm (x :: (before ++ after)) := by
    rw [hchain]
    exact perm_middle
  obtain ⟨-, hall⟩ := hwf.setChain_remove hi hperm
  have hnodup := (hall.map SpfHashNode.addr).nodup_iff.mp hwf.nodup
  rw [map_cons, nodup_cons] at hnodup
  intro n hn haddr
  exact hnodup.1 (mem_map.mpr ⟨n, hn, haddr⟩)

lemma withNumNodes_pred_ne (ht : SpfHashtable) (ht' : SpfHashtable)
    (hcount : ht'.numNodes = ht.numNodes - 1) : ht' ≠ ht := by
  rintro rfl
  have hnat := congrArg UInt32.toNat hcount
  rw [UInt32.toNat_sub, UInt32.toNat_one] at hnat
  omega

lemma spfHashtableRemove_numNodes {node : Option Addr}
    {before rest : List SpfHashNode} {first : SpfHashNode}
    (hpos : hashtableFindpos ht key = (before, first :: rest)) :
    (spfHashtableRemove ht key node).2.1.numNodes = ht.numNodes - 1 := by
  rcases spfHashtableRemove_cases ht key node with ⟨hpos', -, -⟩ |
    ⟨_, _, _, -, -, -, -, hcase⟩
  · rw [hpos] at hpos'
    simp at hpos'
  · rcases hcase with ⟨-, hresult⟩ | ⟨-, _, _, _, -, -, -, hresult⟩ | ⟨-, -, hresult⟩
    all_goals rw [hresult]

/-! ## When a removal is clean -/

/-- **Removal touches nothing else.**  A call of `spf_hashtable_remove` on a well-formed
table leaves a node alone that is not linked under the key, and frees only what it has
unlinked, exactly when it names no node, or the key has none, or the node it names is
linked under the key. -/
theorem spfHashtableRemove_clean_iff {ht : SpfHashtable} (hwf : ht.WF) (key : List UInt8)
    (node : Option Addr) :
    ht.RemovesCleanly key node ↔ ht.RemovalNames key node := by
  rcases hashtableFindpos_cases ht key with ⟨hpos, hnone⟩ |
    ⟨before, first, rest, hpos, hchain, hbefore, hfirst⟩
  · -- the key has no node: the call fails and does nothing
    have hresult := spfHashtableRemove_of_absent node hpos
    refine ⟨fun _ => .inl ?_, fun _ => ⟨?_, ?_⟩⟩
    · intro n hn hkey
      have hmem := hwf.mem_nodes_iff.mp hn
      rw [hkey] at hmem
      exact hnone n hmem hkey
    · intro addr _ _
      rw [hresult]
      exact ⟨rfl, fun freed hfreed => by cases hfreed⟩
    · intro freed hfreed
      rw [hresult] at hfreed
      cases hfreed
  · have hmem : first ∈ ht.nodes :=
      hwf.mem_nodes_of_mem_table (i := ht.pos key) (by simp [hchain])
    constructor
    · intro hclean
      refine .inr fun addr hnode => ?_
      by_contra habsent
      -- the counter has dropped although nothing may change
      exact withNumNodes_pred_ne ht _ (spfHashtableRemove_numNodes hpos)
        (hclean.absent addr hnode habsent).1
    · rintro (hnone | hnames)
      · exact absurd hfirst (hnone first hmem)
      refine ⟨fun addr hnode habsent => absurd (hnames addr hnode) habsent, ?_⟩
      intro freed hfreed
      by_cases hhead : node = none ∨ node = some first.addr
      · rw [spfHashtableRemove_of_first hpos hhead] at hfreed ⊢
        obtain rfl : first = freed := Option.some.inj hfreed
        exact hwf.fresh_of_removed (hwf.pos_lt key) hchain
      · obtain ⟨addr, rfl⟩ : ∃ addr, node = some addr :=
          Option.ne_none_iff_exists'.mp fun h => hhead (.inl h)
        obtain ⟨n, hn, hkey, haddr⟩ := hnames addr rfl
        have hne : first.addr ≠ addr := fun h => hhead (.inr (by rw [h]))
        have hbucket := hwf.mem_nodes_iff.mp hn
        rw [hkey, hchain, mem_append, mem_cons] at hbucket
        -- the node named stands behind the first one of its key
        have hrest : n ∈ rest := by
          rcases hbucket with hb | rfl | hr
          · exact absurd hkey (hbefore n hb)
          · exact absurd haddr hne
          · exact hr
        rcases span_cases (fun n : SpfHashNode => some n.addr != some addr) rest with
          ⟨-, hall⟩ | ⟨between, found, after, -, rfl, hbetween, hfound⟩
        · exact absurd haddr (by simpa using hall n hrest)
        replace hbetween : ∀ n ∈ between, n.addr ≠ addr := fun n hn => by
          simpa using hbetween n hn
        replace hfound : found.addr = addr := by simpa using hfound
        rw [spfHashtableRemove_of_later hpos hne hbetween hfound] at hfreed ⊢
        obtain rfl : found = freed := Option.some.inj hfreed
        have hsplit : ht.table (ht.pos key) = (before ++ first :: between) ++ found :: after := by
          rw [hchain]
          simp
        have hfresh := hwf.fresh_of_removed (hwf.pos_lt key) hsplit
        rw [show (before ++ first :: between) ++ after = before ++ first :: (between ++ after) by
          simp] at hfresh
        exact hfresh

/-- A table of one bucket with the key `7` on two nodes: the older one can be named. -/
theorem spfHashtableRemove_clean_iff_dup :
    (⟨fun i => if i = 0 then [⟨2, [7]⟩, ⟨1, [7]⟩] else [], 1, 0, 2, 2, 1, .bits64, false⟩ :
      SpfHashtable).RemovesCleanly [7] (some 1) := by
  refine (spfHashtableRemove_clean_iff ⟨by decide, by decide, ?_, by decide⟩ [7] (some 1)).mpr
    (.inr ?_)
  · intro i n hn
    have hzero : (fnvHash n.key 0x811C9DC5 &&& 0).toNat = 0 := by simp
    refine hzero.trans ?_
    by_contra hi
    replace hn : n ∈ if i = 0 then [(⟨2, [7]⟩ : SpfHashNode), ⟨1, [7]⟩] else [] := hn
    rw [if_neg (Ne.symm hi)] at hn
    exact not_mem_nil hn
  · rintro addr h
    obtain rfl : 1 = addr := Option.some.inj h
    exact ⟨⟨1, [7]⟩, by decide, rfl, rfl⟩

/-- One bucket, one node with the key `7`: removing another node under that key frees the
linked one and counts it out. -/
theorem not_spfHashtableRemove_clean :
    ¬ ∀ (abi : Abi) (size factor : UInt32) (mallocOk : Bool) (ht : SpfHashtable)
        (calls : List SpfHashtableCall) (key : List UInt8) (node : Option Addr),
      spfHashtableInit abi size factor mallocOk = .ok ht →
      (run SpfHashtable.step ht calls).RemovesCleanly key node := by
  intro h
  have hgone := (h .bits64 1 2 true _ [.insert ⟨1, [7]⟩ true] [7] (some 5) rfl).freed_gone
  exact hgone ⟨1, [7]⟩ (by decide) ⟨1, [7]⟩ (by decide) rfl

end AudioReach
