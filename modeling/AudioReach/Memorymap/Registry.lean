import Mathlib.Data.List.Nodup
import AudioReach.Memorymap.Model

/-!
# The registry behind the memory map

What the memory map is for: each registered client has mappings, each with a handle and a
reference count, and a call on a handle acts on the mapping of that client.  `Registry` says this
without lists, tables and pointers, call by call.

The second half relates the two: the list of a client holds its mappings in order, and both hash
tables lead to what they should and to nothing else.
-/

namespace AudioReach

open Function (update)
open List Option

/-! ## The registry -/

/-- A mapping. -/
structure Mapping where
  handle : UInt32
  refCount : Int16
  deriving DecidableEq

/-- The mappings of the client in each slot, the last one first. -/
abbrev Registry := ℕ → Option (List Mapping)

/-- What a mapping call is to do, apart from its client and its id: whether its regions are well
formed, whether the heap and `mmap` give what it needs, and the handle without an id. -/
structure MapPlan where
  wellFormed : Bool
  /-- The heap and `mmap` give what is needed. -/
  supplied : Bool
  key : UInt32

open Memorymap (MapArgs MapEnv RegisterEnv mapRegions)

/-- The plan of `posal_memorymap_shm_mem_map_v2`. -/
def shmMemMapPlan (args : MapArgs) (env : MapEnv) : MapPlan where
  wellFormed := args.shmMemReg ≠ [] ∧ ¬ (1 < args.shmMemReg.length ∧ args.isOffsetMap)
  supplied := env.node.isSome ∧ env.hashNode ∧
    (mapRegions (fun i _ => env.mmap i) 0 args.shmMemReg).isSome
  key := (args.shmMemReg.head?.map (·.shmAddrLsw)).getD 0

/-- The plan of `posal_memorymap_virtaddr_mem_map_v2`. -/
def virtaddrMemMapPlan (args : MapArgs) (env : MapEnv) : MapPlan where
  wellFormed := args.shmMemReg ≠ []
  supplied := env.node.isSome ∧ env.hashNode
  key := (env.node.map UInt32.ofNat).getD 0

namespace Registry

/-- The slot of a token. -/
def slotOf (clientToken : UInt32) : ℕ := clientToken.toNat - 1

/-- The mappings of the client with this token. -/
def ofToken (a : Registry) (clientToken : UInt32) : Option (List Mapping) :=
  if clientToken = 0 then none else a (slotOf clientToken)

/-- The first free slot. -/
def freeSlot (a : Registry) : Option ℕ :=
  (range memoryMapMaxClients).find? fun i => (a i).isNone

/-- A client has a mapping under this handle. -/
def has (mappings : List Mapping) (handle : UInt32) : Bool :=
  mappings.any fun m => m.handle = handle

/-- Some client has a mapping under this handle. -/
def known (a : Registry) (handle : UInt32) : Bool :=
  (range memoryMapMaxClients).any fun i => has ((a i).getD []) handle

/-- The reference count of a mapping is changed. -/
def count (mappings : List Mapping) (handle : UInt32) (n : Int16) : List Mapping :=
  mappings.map fun m => if m.handle = handle then { m with refCount := m.refCount + n } else m

/-- What a call of the registry gives: whether it succeeded, a token or a handle, and the registry
after it. -/
abbrev Answer := Bool × UInt32 × Registry

/-- A call that is refused. -/
def refused (a : Registry) : Answer := (false, 0, a)

/-- A call on a mapping of the client. -/
def onMapping (a : Registry) (clientToken handle : UInt32)
    (f : List Mapping → Mapping → Answer) : Answer :=
  match a.ofToken clientToken with
  | none => a.refused
  | some mappings =>
    match mappings.find? fun m => m.handle = handle with
    | none => a.refused
    | some m => f mappings m

/-- A client maps memory. -/
def mapMem (a : Registry) (args : MapArgs) (plan : MapPlan) : Answer :=
  match a.ofToken args.clientToken with
  | none => a.refused
  | some mappings =>
    if args.uniqueShmemId24bit &&& 0xFF000000 = 0 ∧ plan.wellFormed ∧ plan.supplied ∧
        ¬ (args.uniqueShmemId24bit ≠ 0 ∧ has mappings args.uniqueShmemId24bit) then
      let handle :=
        if args.uniqueShmemId24bit ≠ 0 then args.uniqueShmemId24bit else plan.key
      (true, handle, update a (slotOf args.clientToken) (some (⟨handle, 0⟩ :: mappings)))
    else a.refused

/-- A call. -/
def call (a : Registry) : MemorymapCall → Answer
  | .register env =>
    match a.freeSlot with
    | some i => if env.client.isSome ∧ env.hashNode then (true, tokenOf i, update a i (some []))
      else a.refused
    | none => a.refused
  | .unregister t =>
    match a.ofToken t with
    | none => a.refused
    | some _ => (true, 0, update a (slotOf t) none)
  | .shmMemMap args env => a.mapMem args (shmMemMapPlan args env)
  | .virtaddrMemMap args env => a.mapMem args (virtaddrMemMapPlan args env)
  | .shmMemUnmap t handle => a.onMapping t handle fun mappings m =>
    if m.refCount ≠ 0 then a.refused
    else (true, 0, update a (slotOf t) (some (mappings.filter fun m => m.handle ≠ handle)))
  | .unmapAll t =>
    match a.ofToken t with
    | none => a.refused
    | some mappings =>
      if mappings.all fun m => m.refCount = 0 then (true, 0, update a (slotOf t) (some []))
      else a.refused
  | .incrRefcount t handle => a.onMapping t handle fun mappings _ =>
    (true, 0, update a (slotOf t) (some (count mappings handle 1)))
  | .decrRefcount t handle => a.onMapping t handle fun mappings _ =>
    (true, 0, update a (slotOf t) (some (count mappings handle (-1))))
  | .getMemMapHandle t shmemId => a.onMapping t shmemId fun _ _ => (true, shmemId, a)

/-! ## Tokens and handles -/

lemma tokenOf_slotOf {t : UInt32} (h : t ≠ 0) : tokenOf (slotOf t) = t := by
  have hpos : t.toNat ≠ 0 := fun hzero => h (UInt32.toNat_inj.mp hzero)
  rw [tokenOf, slotOf, Nat.sub_add_cancel (Nat.pos_of_ne_zero hpos), UInt32.ofNat_toNat]

lemma ofToken_eq_some {a : Registry} {t : UInt32} {mappings : List Mapping}
    (h : a.ofToken t = some mappings) :
    a (slotOf t) = some mappings ∧ tokenOf (slotOf t) = t := by
  rw [ofToken] at h
  split at h
  · contradiction
  · rename_i hne
    exact ⟨h, tokenOf_slotOf hne⟩

lemma has_iff {mappings : List Mapping} {handle : UInt32} :
    has mappings handle = true ↔ ∃ m ∈ mappings, m.handle = handle := by
  simp [has]

lemma known_iff {a : Registry} (hbound : ∀ i, memoryMapMaxClients ≤ i → a i = none)
    {handle : UInt32} :
    a.known handle = true ↔ ∃ i mappings, a i = some mappings ∧ has mappings handle = true := by
  rw [known, List.any_eq_true]
  constructor
  · rintro ⟨i, -, hhas⟩
    cases hi : a i with
    | none =>
      rw [hi] at hhas
      contradiction
    | some mappings =>
      rw [hi] at hhas
      exact ⟨i, mappings, hi, hhas⟩
  · rintro ⟨i, mappings, hi, hhas⟩
    refine ⟨i, mem_range.mpr ?_, by rw [hi]; exact hhas⟩
    by_contra hge
    rw [hbound i (Nat.not_lt.mp hge)] at hi
    contradiction

lemma find?_eq_none_of_has {mappings : List Mapping} {handle : UInt32}
    (h : has mappings handle = false) : (mappings.find? fun m => m.handle = handle) = none := by
  rw [find?_eq_none]
  intro m hm hhandle
  rw [has, List.any_eq_false] at h
  exact h m hm hhandle

lemma find?_of_has {mappings : List Mapping} {handle : UInt32} (h : has mappings handle = true) :
    ∃ m ∈ mappings, m.handle = handle ∧ (mappings.find? fun m => m.handle = handle) = some m := by
  cases hfind : mappings.find? fun m => m.handle = handle with
  | none =>
    obtain ⟨m, hm, hhandle⟩ := has_iff.mp h
    exact absurd (decide_eq_true hhandle) (find?_eq_none.mp hfind m hm)
  | some m =>
    exact ⟨m, mem_of_find?_eq_some hfind, by simpa using find?_some hfind, rfl⟩

@[simp] lemma map_handle_count (mappings : List Mapping) (handle : UInt32) (n : Int16) :
    (count mappings handle n).map (·.handle) = mappings.map (·.handle) := by
  rw [count, List.map_map]
  apply map_congr_left
  intro m _
  simp only [Function.comp_apply]
  split <;> rfl

end Registry

/-! ## The memory map follows the registry -/

/-- The nodes at `ptrs` are linked one after another. -/
def Chained (nodes : Addr → Option MemorymapNode) : List Addr → Prop
  | [] => True
  | p :: ptrs => (∃ n, nodes p = some n ∧ n.pNext = ptrs.head?) ∧ Chained nodes ptrs

/-- The mapping of a node. -/
def MemorymapNode.mapping (n : MemorymapNode) : Mapping := ⟨n.shmemId, n.refCount⟩

lemma Chained.live {nodes : Addr → Option MemorymapNode} {ptrs : List Addr}
    (h : Chained nodes ptrs) {p : Addr} (hp : p ∈ ptrs) : ∃ n, nodes p = some n := by
  induction ptrs with
  | nil => contradiction
  | cons q ptrs ih =>
    rcases mem_cons.mp hp with rfl | hp
    · obtain ⟨n, hn, -⟩ := h.1
      exact ⟨n, hn⟩
    · exact ih h.2 hp

lemma Chained.congr {nodes nodes' : Addr → Option MemorymapNode} {ptrs : List Addr}
    (h : Chained nodes ptrs)
    (hsame : ∀ p ∈ ptrs, ∀ n, nodes p = some n → ∃ n', nodes' p = some n' ∧ n'.pNext = n.pNext) :
    Chained nodes' ptrs := by
  induction ptrs with
  | nil => trivial
  | cons p ptrs ih =>
    obtain ⟨⟨n, hn, hnext⟩, hrest⟩ := h
    obtain ⟨n', hn', hsame'⟩ := hsame p mem_cons_self n hn
    exact ⟨⟨n', hn', hsame'.trans hnext⟩, ih hrest fun q hq => hsame q (mem_cons_of_mem p hq)⟩

/-- The nodes of the clients are at `ptrs`, and everything is as the registry says. -/
structure Memorymap.HeldBy (s : Memorymap) (a : Registry) (ptrs : ℕ → List Addr) : Prop where
  bound : ∀ i, memoryMapMaxClients ≤ i → a i = none
  free : ∀ i, a i = none → s.memMapClientList i = none ∧ ptrs i = []
  /-- A client is in its slot, and its token leads to it. -/
  client : ∀ i mappings, a i = some mappings → ∃ p, s.memMapClientList i = some p ∧
    s.clients p = some ⟨i, (ptrs i).head?⟩ ∧ s.memmapHt.lookup (tokenOf i) = some p
  /-- Nothing else is in the hash table of the clients. -/
  tokens : ∀ e ∈ s.memmapHt, ∃ i mappings, a i = some mappings ∧ s.memMapClientList i = some e.2
  chain : ∀ i, Chained s.nodes (ptrs i)
  mappings : ∀ i mappings, a i = some mappings →
    (ptrs i).map (fun p => (s.nodes p).map MemorymapNode.mapping) = mappings.map some
  unique : ∀ i mappings, a i = some mappings → (mappings.map (·.handle)).Nodup
  handles : ∀ i, ∀ p ∈ ptrs i, ∀ n, s.nodes p = some n →
    s.shmmapHt.lookup n.shmemId = some p ∧ n.shmemId ≠ 0
  /-- Nothing else is in the hash table of the nodes. -/
  nodes : ∀ e ∈ s.shmmapHt, ∃ i, e.2 ∈ ptrs i ∧ ∃ n, s.nodes e.2 = some n ∧ n.shmemId = e.1
  disjoint : ∀ i j p, p ∈ ptrs i → p ∈ ptrs j → i = j
  number : s.numRegisteredMemmapClients.toNat
    = (range memoryMapMaxClients).countP fun i => (s.memMapClientList i).isSome
  lengths : ∀ i, (ptrs i).length ≤ s.allocated

namespace Memorymap.HeldBy

variable {s : Memorymap} {a : Registry} {ptrs : ℕ → List Addr} {t handle : UInt32}
  {mappings : List Mapping}

/-! ## Lookups -/

lemma findClient (h : s.HeldBy a ptrs) (ht : a.ofToken t = some mappings) :
    ∃ p, s.memMapClientList (Registry.slotOf t) = some p ∧
      s.findClientPtr t = some (p, ⟨Registry.slotOf t, (ptrs (Registry.slotOf t)).head?⟩) ∧
      s.utilFindClient t = some .eok := by
  obtain ⟨hslot, htoken⟩ := Registry.ofToken_eq_some ht
  obtain ⟨p, hlist, hclient, hlookup⟩ := h.client _ _ hslot
  rw [htoken] at hlookup
  have hfind : s.findClientPtr t
      = some (p, ⟨Registry.slotOf t, (ptrs (Registry.slotOf t)).head?⟩) := by
    rw [findClientPtr, hlookup, bind_some, hclient, map_some]
  refine ⟨p, hlist, hfind, ?_⟩
  rw [utilFindClient, hfind, map_some, if_pos hlist]

variable {n : MemorymapNode}

section

variable {i : ℕ} {p : Addr} (h : s.HeldBy a ptrs)
include h

lemma mem_mappings (hi : a i = some mappings) (hp : p ∈ ptrs i) (hn : s.nodes p = some n) :
    n.mapping ∈ mappings := by
  have hmem : (s.nodes p).map MemorymapNode.mapping ∈ mappings.map some := by
    rw [← h.mappings i mappings hi]
    exact List.mem_map_of_mem hp
  rw [hn, map_some] at hmem
  obtain ⟨m, hm, heq⟩ := List.mem_map.mp hmem
  rw [← Option.some.inj heq]
  exact hm

lemma exists_node (hi : a i = some mappings) {m : Mapping} (hm : m ∈ mappings) :
    ∃ p ∈ ptrs i, ∃ n, s.nodes p = some n ∧ n.mapping = m := by
  have hmem : some m ∈ (ptrs i).map fun p => (s.nodes p).map MemorymapNode.mapping := by
    rw [h.mappings i mappings hi]
    exact List.mem_map_of_mem hm
  obtain ⟨p, hp, heq⟩ := List.mem_map.mp hmem
  obtain ⟨n, hn, hmapping⟩ := map_eq_some_iff.mp heq
  exact ⟨p, hp, n, hn, hmapping⟩

lemma used_of_mem (hp : p ∈ ptrs i) : ∃ mappings, a i = some mappings := by
  cases hi : a i with
  | none =>
    rw [(h.free i hi).2] at hp
    contradiction
  | some mappings => exact ⟨mappings, rfl⟩

lemma lookup_of_known (hknown : a.known handle = true) :
    ∃ i p n, p ∈ ptrs i ∧ s.nodes p = some n ∧ n.shmemId = handle ∧ handle ≠ 0 ∧
      s.shmmapHt.lookup handle = some p := by
  obtain ⟨i, mappings, hi, hhas⟩ := (Registry.known_iff h.bound).mp hknown
  obtain ⟨m, hm, hhandle⟩ := Registry.has_iff.mp hhas
  obtain ⟨p, hp, n, hn, hmapping⟩ := h.exists_node hi hm
  have hid : n.shmemId = handle := by
    rw [← hhandle, ← hmapping]
    rfl
  obtain ⟨hlookup, hne⟩ := h.handles i p hp n hn
  rw [hid] at hlookup hne
  exact ⟨i, p, n, hp, hn, hid, hne, hlookup⟩

lemma ne_of_unknown (hknown : a.known handle = false) (hp : p ∈ ptrs i) (hn : s.nodes p = some n) :
    n.shmemId ≠ handle := by
  rintro rfl
  obtain ⟨mappings, hi⟩ := h.used_of_mem hp
  have hhas : Registry.has mappings n.shmemId = true :=
    Registry.has_iff.mpr ⟨_, h.mem_mappings hi hp hn, rfl⟩
  rw [(Registry.known_iff h.bound).mpr ⟨i, mappings, hi, hhas⟩] at hknown
  contradiction

/-- The loop finds the node of the handle if it is in the list of the client. -/
lemma search {j : ℕ} (hp : p ∈ ptrs j) (hn : s.nodes p = some n) (fuel : ℕ) (prev : Option Addr)
    {qs : List Addr} (hqs : ∀ q ∈ qs, q ∈ ptrs i) (hchain : Chained s.nodes qs)
    (hfuel : qs.length ≤ fuel) :
    ∃ found, s.searchNode p fuel prev qs.head? = some found ∧ (found.isSome = true ↔ p ∈ qs) := by
  induction qs generalizing fuel prev with
  | nil => exact ⟨none, by rw [head?_nil, searchNode], by simp⟩
  | cons q qs ih =>
    obtain ⟨⟨m, hm, hnext⟩, hrest⟩ := hchain
    obtain ⟨fuel, rfl⟩ : ∃ k, fuel = k + 1 := ⟨fuel - 1, by rw [length_cons] at hfuel; omega⟩
    have hq := hqs q mem_cons_self
    rw [head?_cons, searchNode, hn, bind_some, hm, bind_some]
    by_cases hsame : n.shmemId = m.shmemId
    · have hpq : p = q := by
        have hlookup := (h.handles i q hq m hm).1
        rw [← hsame, (h.handles j p hp n hn).1] at hlookup
        exact Option.some.inj hlookup
      rw [if_pos hsame]
      exact ⟨_, rfl, by simp [hpq]⟩
    · have hpq : p ≠ q := by
        rintro rfl
        rw [hn] at hm
        exact hsame (by rw [Option.some.inj hm])
      obtain ⟨found, hsearch, hiff⟩ := ih fuel (some q)
        (fun r hr => hqs r (mem_cons_of_mem q hr)) hrest
        (by rw [length_cons] at hfuel; omega)
      rw [if_neg hsame, hnext]
      exact ⟨found, hsearch, hiff.trans (by rw [mem_cons, or_iff_right hpq])⟩

/-- The node of a known handle, as the client of the token meets it. -/
lemma searchKnown (ht : a.ofToken t = some mappings) (hknown : a.known handle = true) :
    ∃ p n found, s.shmmapHt.lookup handle = some p ∧ s.nodes p = some n ∧ n.shmemId = handle ∧
      handle ≠ 0 ∧
      s.searchNode p s.allocated none (ptrs (Registry.slotOf t)).head? = some found ∧
      (found.isSome = true ↔ p ∈ ptrs (Registry.slotOf t)) ∧
      (p ∈ ptrs (Registry.slotOf t) ↔ Registry.has mappings handle = true) := by
  obtain ⟨j, p, n, hp, hn, hid, hne, hlookup⟩ := h.lookup_of_known hknown
  obtain ⟨found, hsearch, hfound⟩ := h.search hp hn s.allocated none
    (fun q hq => hq) (h.chain (Registry.slotOf t)) (h.lengths _)
  refine ⟨p, n, found, hlookup, hn, hid, hne, hsearch, hfound, ?_⟩
  have hslot := (Registry.ofToken_eq_some ht).1
  constructor
  · intro hmem
    exact Registry.has_iff.mpr ⟨_, h.mem_mappings hslot hmem hn, hid⟩
  · intro hhas
    obtain ⟨m, hm, hhandle⟩ := Registry.has_iff.mp hhas
    obtain ⟨q, hq, k, hk, hmapping⟩ := h.exists_node hslot hm
    have hkid : k.shmemId = handle := by
      rw [← hhandle, ← hmapping]
      rfl
    have hlookup' := (h.handles _ q hq k hk).1
    rw [hkid, hlookup] at hlookup'
    rw [Option.some.inj hlookup']
    exact hq

end

end Memorymap.HeldBy

end AudioReach
