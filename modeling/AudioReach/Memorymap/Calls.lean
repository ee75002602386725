import AudioReach.Library.Assign
import AudioReach.Memorymap.Registry

/-!
# The calls of the memory map

What the calls change: a client is added to a free slot, a node is added to the list of a client,
or the reference count of a node changes.  Each keeps the memory map related to the registry.
Nothing is ever taken out of a hash table, so a call that frees a node or a client does not.
-/

namespace AudioReach

open Function (update update_of_ne update_self)
open Library List Option
open Memorymap (MapArgs MapEnv RegisterEnv mapRegions)

namespace Memorymap.HeldBy

variable {s : Memorymap} {a : Registry} {ptrs : ℕ → List Addr} {t handle : UInt32}
  {mappings : List Mapping}

lemma update_none_iff {i : ℕ} {m m' : List Mapping} (hi : a i = some m) (j : ℕ) :
    update a i (some m') j = none ↔ a j = none := by
  by_cases hj : j = i
  · subst hj
    simp [hi]
  · rw [update_of_ne hj]

lemma of_update {i : ℕ} {m m' k : List Mapping} (hi : a i = some m) {j : ℕ}
    (hj : update a i (some m') j = some k) : ∃ k', a j = some k' := by
  by_cases hji : j = i
  · exact ⟨m, hji ▸ hi⟩
  · rw [update_of_ne hji] at hj
    exact ⟨k, hj⟩

lemma leak (h : s.HeldBy a ptrs) {p : Addr} (hfresh : s.nodes p = none) (n : MemorymapNode) :
    { s.setNode p n with allocated := s.allocated + 1 }.HeldBy a ptrs := by
  have hout : ∀ i, ∀ q ∈ ptrs i, q ≠ p := by
    rintro i q hq rfl
    obtain ⟨m, hm⟩ := (h.chain i).live hq
    rw [hfresh] at hm
    contradiction
  have hsame : ∀ i, ∀ q ∈ ptrs i, (update s.nodes p (some n)) q = s.nodes q := fun i q hq =>
    update_of_ne (hout i q hq) _ _
  refine ⟨h.bound, h.free, h.client, h.tokens, ?_, ?_, h.unique, ?_, ?_, h.disjoint, h.number, ?_⟩
  · exact fun i => (h.chain i).congr fun q hq m hm => ⟨m, (hsame i q hq).trans hm, rfl⟩
  · intro i m hi
    rw [← h.mappings i m hi]
    exact map_congr_left fun q hq => congrArg _ (hsame i q hq)
  · intro i q hq m hm
    exact h.handles i q hq m ((hsame i q hq).symm.trans hm)
  · intro e he
    obtain ⟨i, hi, m, hm, hid⟩ := h.nodes e he
    exact ⟨i, hi, m, (hsame i e.2 hi).trans hm, hid⟩
  · exact fun i => Nat.le_succ_of_le (h.lengths i)

section

variable {p : Addr} {n : MemorymapNode} (h : s.HeldBy a ptrs) (ht : a.ofToken t = some mappings)
include h ht

/-- **Reference counts.** The count of the node of a handle changes. -/
lemma updateRefCount {n' : MemorymapNode} (hp : p ∈ ptrs (Registry.slotOf t))
    (hn : s.nodes p = some n) (hid : n.shmemId = handle) (count : Int16)
    (hnext : n'.pNext = n.pNext) (hsame : n'.shmemId = n.shmemId)
    (hcount : n'.refCount = n.refCount + count) :
    (s.setNode p n').HeldBy
      (update a (Registry.slotOf t) (some (Registry.count mappings handle count))) ptrs := by
  have hslot := (Registry.ofToken_eq_some ht).1
  generalize Registry.slotOf t = i at *
  have hother : ∀ q, q ≠ p → (s.setNode p n').nodes q = s.nodes q :=
    fun q hq => update_of_ne hq _ _
  have hthis : (s.setNode p n').nodes p
      = some n' := update_self _ _ _
  -- a node keeps its link and its id
  have hkept : ∀ q m, s.nodes q = some m → ∃ m', (s.setNode p n').nodes q = some m' ∧
        m'.pNext = m.pNext ∧ m'.shmemId = m.shmemId := by
    intro q m hm
    by_cases hq : q = p
    · subst hq
      rw [hn, Option.some.injEq] at hm
      subst hm
      exact ⟨n', hthis, hnext, hsame⟩
    · exact ⟨m, (hother q hq).trans hm, rfl, rfl⟩
  refine ⟨?_, ?_, ?_, ?_, ?_, ?_, ?_, ?_, ?_, h.disjoint, h.number, h.lengths⟩
  · exact fun j hj => (update_none_iff hslot j).mpr (h.bound j hj)
  · exact fun j hj => h.free j ((update_none_iff hslot j).mp hj)
  · exact forall_update_some h.client (h.client i mappings hslot)
  · intro e he
    obtain ⟨j, m, hj, hlist⟩ := h.tokens e he
    cases hj' : update a i (some (Registry.count mappings handle count)) j with
    | none =>
      rw [update_none_iff hslot, hj] at hj'
      contradiction
    | some m' => exact ⟨j, m', hj', hlist⟩
  · intro j
    refine (h.chain j).congr fun q _ m hm => ?_
    obtain ⟨m', hm', hnext, -⟩ := hkept q m hm
    exact ⟨m', hm', hnext⟩
  · intro j m hj
    by_cases hji : j = i
    · subst hji
      rw [update_self, Option.some.injEq] at hj
      rw [← hj, Registry.count, List.map_map]
      have hmaps := h.mappings j mappings hslot
      have hcounted : (ptrs j).map (fun q => ((s.setNode p n').nodes q).map MemorymapNode.mapping)
          = ((ptrs j).map fun q => (s.nodes q).map MemorymapNode.mapping).map
            (Option.map fun m => if m.handle = handle then
              { m with refCount := m.refCount + count } else m) := by
        rw [List.map_map]
        apply map_congr_left
        intro q hq
        obtain ⟨m, hm⟩ := (h.chain j).live hq
        by_cases hqp : q = p
        · subst hqp
          simp only [hthis, Function.comp_apply, hn, map_some, MemorymapNode.mapping, hsame,
            hid, hcount, if_true]
        · have hne : m.shmemId ≠ handle := by
            intro heq
            have hlookup := (h.handles j q hq m hm).1
            rw [heq, ← hid, (h.handles j p hp n hn).1] at hlookup
            exact hqp (Option.some.inj hlookup).symm
          simp only [hother q hqp, Function.comp_apply, hm, map_some,
            MemorymapNode.mapping, hne, if_false]
      rw [hcounted, hmaps, List.map_map]
      apply map_congr_left
      intro m' _
      rfl
    · rw [update_of_ne hji] at hj
      rw [← h.mappings j m hj]
      apply map_congr_left
      intro q hq
      have hqp : q ≠ p := by
        rintro rfl
        exact hji (h.disjoint j i q hq hp)
      rw [hother q hqp]
  · refine forall_update_some h.unique ?_
    rw [Registry.map_handle_count]
    exact h.unique i mappings hslot
  · intro j q hq m hm
    obtain ⟨m', hm'⟩ := (h.chain j).live hq
    obtain ⟨k, hk, -, hkid⟩ := hkept q m' hm'
    rw [hm, Option.some.injEq] at hk
    rw [hk, hkid]
    exact h.handles j q hq m' hm'
  · intro e he
    obtain ⟨j, hj, m, hm, hmid⟩ := h.nodes e he
    obtain ⟨m', hm', -, hmid'⟩ := hkept e.2 m hm
    exact ⟨j, hj, m', hm', hmid'.trans hmid⟩

/-- **A new mapping.** A node is added to the list of the client and to the hash table. -/
lemma addNode (hfresh : s.nodes p = none) (hunknown : a.known handle = false) (hne : handle ≠ 0)
    (hid : n.shmemId = handle) (hcount : n.refCount = 0) :
    ∃ s', { s with
        shmmapHt := (handle, p) :: s.shmmapHt
        allocated := s.allocated + 1 }.utilAddMemMapNodeToClient t p n = some s' ∧
      s'.HeldBy (update a (Registry.slotOf t) (some (⟨handle, 0⟩ :: mappings)))
        (update ptrs (Registry.slotOf t) (p :: ptrs (Registry.slotOf t))) := by
  obtain ⟨c, hlist, hfind, -⟩ := h.findClient ht
  obtain ⟨hslot, htoken⟩ := Registry.ofToken_eq_some ht
  have hfind' : { s with
      shmmapHt := (handle, p) :: s.shmmapHt
      allocated := s.allocated + 1 }.findClientPtr t
      = some (c, ⟨Registry.slotOf t, (ptrs (Registry.slotOf t)).head?⟩) := hfind
  rw [utilAddMemMapNodeToClient, hfind', map_some]
  refine ⟨_, rfl, ?_⟩
  generalize Registry.slotOf t = i at *
  have hout : ∀ j, ∀ q ∈ ptrs j, q ≠ p := by
    rintro j q hq rfl
    obtain ⟨m, hm⟩ := (h.chain j).live hq
    rw [hfresh] at hm
    contradiction
  have hold : ∀ j, ∀ q ∈ ptrs j,
      update s.nodes p (some { n with pNext := (ptrs i).head? }) q = s.nodes q := fun j q hq =>
    update_of_ne (hout j q hq) _ _
  have hptrs : ∀ j q, q ∈ update ptrs i (p :: ptrs i) j ↔ q ∈ ptrs j ∨ j = i ∧ q = p := by
    intro j q
    by_cases hji : j = i
    · subst hji
      rw [update_self, mem_cons]
      tauto
    · rw [update_of_ne hji]
      tauto
  have hchain : ∀ j, Chained (update s.nodes p (some { n with pNext := (ptrs i).head? }))
      (ptrs j) := fun j =>
    (h.chain j).congr fun q hq m hm => ⟨m, (hold j q hq).trans hm, rfl⟩
  refine ⟨?_, ?_, ?_, ?_, ?_, ?_, ?_, ?_, ?_, ?_, h.number, ?_⟩
  · exact fun j hj => (update_none_iff hslot j).mpr (h.bound j hj)
  · intro j hj
    have hj' := (update_none_iff hslot j).mp hj
    have hji : j ≠ i := ne_of_apply_eq hj' hslot nofun
    rw [update_of_ne hji]
    exact h.free j hj'
  · intro j m hj
    obtain ⟨m', hj'⟩ := of_update hslot hj
    obtain ⟨d, hd, hclient, hlookup⟩ := h.client j m' hj'
    refine ⟨d, hd, ?_, hlookup⟩
    by_cases hji : j = i
    · subst hji
      rw [hlist, Option.some.injEq] at hd
      subst hd
      simp [update_self]
    · have hdc : d ≠ c := by
        rintro rfl
        obtain ⟨d', hd', hclient', -⟩ := h.client i mappings hslot
        rw [hlist, Option.some.injEq] at hd'
        subst hd'
        rw [hclient, Option.some.injEq, MemorymapClient.mk.injEq] at hclient'
        exact hji hclient'.1
      rw [update_of_ne hji]
      exact (update_of_ne hdc _ _).trans hclient
  · intro e he
    obtain ⟨j, m, hj, hlist'⟩ := h.tokens e he
    cases hj' : update a i (some (⟨handle, 0⟩ :: mappings)) j with
    | none =>
      rw [update_none_iff hslot, hj] at hj'
      contradiction
    | some m' => exact ⟨j, m', hj', hlist'⟩
  · exact forall_update hchain ⟨⟨_, update_self _ _ _, rfl⟩, hchain i⟩
  · intro j m hj
    have hmaps : ∀ j m, a j = some m → (ptrs j).map (fun q =>
        (update s.nodes p (some { n with pNext := (ptrs i).head? }) q).map
          MemorymapNode.mapping) = m.map some := by
      intro j m hj
      rw [← h.mappings j m hj]
      exact map_congr_left fun q hq => congrArg _ (hold j q hq)
    by_cases hji : j = i
    · subst hji
      rw [update_self, Option.some.injEq] at hj
      have hnew : (update s.nodes p (some { n with pNext := (ptrs j).head? }) p).map
          MemorymapNode.mapping = some ⟨handle, 0⟩ := by
        rw [update_self, map_some, MemorymapNode.mapping, hid, hcount]
      rw [← hj, update_self, map_cons, map_cons]
      exact congrArg₂ List.cons hnew (hmaps j mappings hslot)
    · rw [update_of_ne hji] at hj ⊢
      exact hmaps j m hj
  · refine forall_update_some h.unique ?_
    rw [map_cons, nodup_cons]
    refine ⟨?_, h.unique i mappings hslot⟩
    intro hmem
    obtain ⟨m', hm', heq⟩ := List.mem_map.mp hmem
    have hknown := (Registry.known_iff h.bound).mpr
      ⟨i, mappings, hslot, Registry.has_iff.mpr ⟨m', hm', heq⟩⟩
    rw [hunknown] at hknown
    contradiction
  · intro j q hq m hm
    rcases (hptrs j q).mp hq with hq | ⟨-, rfl⟩
    · have hm' : s.nodes q = some m := (hold j q hq).symm.trans hm
      obtain ⟨hlookup, hne'⟩ := h.handles j q hq m hm'
      refine ⟨?_, hne'⟩
      have hother := h.ne_of_unknown hunknown hq hm'
      rw [lookup_cons, beq_false_of_ne hother]
      exact hlookup
    · have hm' : n.shmemId = m.shmemId := by
        have heq := (update_self q (some { n with pNext := (ptrs i).head? })
          s.nodes).symm.trans hm
        rw [← Option.some.inj heq]
      rw [← hm', hid, lookup_cons, beq_self_eq_true]
      exact ⟨rfl, hne⟩
  · intro e he
    rcases mem_cons.mp he with rfl | he
    · exact ⟨i, (hptrs i p).mpr (Or.inr ⟨rfl, rfl⟩), _, update_self _ _ _, hid⟩
    · obtain ⟨j, hj, m, hm, hmid⟩ := h.nodes e he
      exact ⟨j, (hptrs j e.2).mpr (Or.inl hj), m, (hold j e.2 hj).trans hm, hmid⟩
  · intro j k q hj hk
    rcases (hptrs j q).mp hj with hold' | ⟨hji, hqp⟩ <;>
      rcases (hptrs k q).mp hk with hold'' | ⟨hki, hqp'⟩
    · exact h.disjoint j k q hold' hold''
    · exact absurd hqp' (hout j q hold')
    · exact absurd hqp (hout k q hold'')
    · exact hji.trans hki.symm
  · exact forall_update (p := fun _ (l : List Addr) => l.length ≤ s.allocated + 1)
      (fun j => Nat.le_succ_of_le (h.lengths j)) (Nat.succ_le_succ (h.lengths i))

end

/-! ## Registration -/

lemma countP_isSome_update {f : ℕ → Option Addr} {l : List ℕ} (hnodup : l.Nodup) {i : ℕ}
    (hi : i ∈ l) (hnone : f i = none) (p : Addr) :
    l.countP (fun j => (update f i (some p) j).isSome) = l.countP (fun j => (f j).isSome) + 1 := by
  have hperm := perm_cons_erase hi
  have hrest : (l.erase i).countP (fun j => (update f i (some p) j).isSome)
      = (l.erase i).countP (fun j => (f j).isSome) := by
    apply countP_congr
    intro j hj
    have hji : j ≠ i := by
      rintro rfl
      exact hnodup.not_mem_erase hj
    rw [update_of_ne hji]
  rw [hperm.countP_eq, hperm.countP_eq (fun j => (f j).isSome), countP_cons, countP_cons, hrest]
  simp [hnone]

lemma slot_none_iff (h : s.HeldBy a ptrs) (i : ℕ) : s.memMapClientList i = none ↔ a i = none := by
  constructor
  · intro hlist
    cases hi : a i with
    | none => rfl
    | some m =>
      obtain ⟨p, hp, -⟩ := h.client i m hi
      rw [hlist] at hp
      contradiction
  · exact fun hi => (h.free i hi).1

lemma find_slot (h : s.HeldBy a ptrs) :
    ((range memoryMapMaxClients).find? fun i => s.memMapClientList i = none)
      = a.freeSlot := by
  congr 1
  funext i
  rw [Bool.eq_iff_iff, decide_eq_true_iff, h.slot_none_iff, isNone_iff_eq_none]

lemma tokenOf_ne {i j : ℕ} (hi : i < memoryMapMaxClients) (hj : j < memoryMapMaxClients)
    (hij : i ≠ j) : tokenOf i ≠ tokenOf j := by
  intro heq
  have hnat := congrArg UInt32.toNat heq
  rw [memoryMapMaxClients] at hi hj
  rw [tokenOf, tokenOf, UInt32.toNat_ofNat_of_lt' (by show i + 1 < 2 ^ 32; omega),
    UInt32.toNat_ofNat_of_lt' (by show j + 1 < 2 ^ 32; omega)] at hnat
  omega

/-- **A new client.** -/
lemma register (h : s.HeldBy a ptrs) {i : ℕ} (hslot : a.freeSlot = some i) {p : Addr}
    (hfresh : s.clients p = none) :
    ∃ s', s.register ⟨some p, true⟩ = (.eok, tokenOf i, s') ∧
      s'.HeldBy (update a i (some [])) ptrs := by
  have hi : i < memoryMapMaxClients := mem_range.mp (mem_of_find?_eq_some hslot)
  have hnone : a i = none := by
    simpa [isNone_iff_eq_none] using find?_some hslot
  have hlist := (h.free i hnone).1
  have hlt : ((range memoryMapMaxClients).countP fun j => (s.memMapClientList j).isSome)
      < memoryMapMaxClients := by
    refine lt_of_le_of_ne (le_trans countP_le_length (by simp)) fun heq => ?_
    have hall := countP_eq_length.mp (heq.trans (by simp)) i (mem_range.mpr hi)
    rw [hlist] at hall
    contradiction
  have hnumber := h.number
  rw [Memorymap.register, if_neg (by rw [hnumber]; exact Nat.not_le.mpr hlt), h.find_slot, hslot]
  refine ⟨_, rfl, ?_⟩
  have hold : ∀ j m, a j = some m → j ≠ i := by
    rintro j m hj rfl
    rw [hnone] at hj
    contradiction
  have hlt' : ∀ j m, a j = some m → j < memoryMapMaxClients := by
    intro j m hj
    by_contra hge
    rw [h.bound j (Nat.not_lt.mp hge)] at hj
    contradiction
  refine ⟨?_, ?_, ?_, ?_, h.chain, ?_, ?_, h.handles, h.nodes, h.disjoint, ?_, h.lengths⟩
  · intro j hj
    have hji : j ≠ i := by omega
    rw [update_of_ne hji]
    exact h.bound j hj
  · intro j hj
    have hji : j ≠ i := ne_of_update_eq hj nofun
    rw [update_of_ne hji] at hj
    obtain ⟨hfree, hptrs⟩ := h.free j hj
    exact ⟨(update_of_ne hji _ _).trans hfree, hptrs⟩
  · intro j m hj
    by_cases hji : j = i
    · subst hji
      refine ⟨p, update_self _ _ _, ?_, ?_⟩
      · rw [(h.free j hnone).2]
        exact update_self _ _ _
      · exact lookup_cons_self
    · rw [update_of_ne hji] at hj
      obtain ⟨q, hq, hclient, hlookup⟩ := h.client j m hj
      have hqp : q ≠ p := ne_of_apply_eq hclient hfresh nofun
      refine ⟨q, (update_of_ne hji _ _).trans hq, (update_of_ne hqp _ _).trans hclient, ?_⟩
      rw [lookup_cons, beq_false_of_ne (tokenOf_ne (hlt' j m hj) hi hji)]
      exact hlookup
  · intro e he
    rcases mem_cons.mp he with rfl | he
    · exact ⟨i, [], update_self _ _ _, update_self _ _ _⟩
    · obtain ⟨j, m, hj, hlist'⟩ := h.tokens e he
      have hji := hold j m hj
      exact ⟨j, m, (update_of_ne hji _ _).trans hj, (update_of_ne hji _ _).trans hlist'⟩
  · refine forall_update_some h.mappings ?_
    rw [(h.free i hnone).2]
    rfl
  · exact forall_update_some h.unique nodup_nil
  · rw [countP_isSome_update nodup_range (mem_range.mpr hi) hlist, UInt32.toNat_add, hnumber]
    apply Nat.mod_eq_of_lt
    rw [memoryMapMaxClients] at hlt ⊢
    show _ + 1 < 2 ^ 32
    omega

/-! ## Handles -/

section

variable (h : s.HeldBy a ptrs) (ht : a.ofToken t = some mappings) (hknown : a.known handle = true)
include h ht hknown

/-- `memorymap_util_cmd_handler` for a registered client and a known handle. -/
lemma utilCmdHandler_eq (cmd : MemorymapCmd) : (Registry.has mappings handle = false ∧
      s.utilCmdHandler t handle cmd = some (.ebadparam, s)) ∨
    ∃ p n client prev, p ∈ ptrs (Registry.slotOf t) ∧ s.nodes p = some n ∧ n.shmemId = handle ∧
      Registry.has mappings handle = true ∧
      s.utilCmdHandler t handle cmd = s.execCmd client prev p n cmd := by
  obtain ⟨c, -, hfind, hclient⟩ := h.findClient ht
  obtain ⟨p, n, found, hlookup, hn, hid, hne, hsearch, hfound, hhas⟩ := h.searchKnown ht hknown
  have hok : ¬ (ArResult.eok ≠ ArResult.eok ∨ handle = 0) := by simp [hne]
  cases found with
  | none =>
    left
    refine ⟨Bool.eq_false_iff.mpr fun htrue => ?_, ?_⟩
    · have := hfound.mpr (hhas.mpr htrue)
      contradiction
    · rw [utilCmdHandler, hclient, bind_some, if_neg hok, hfind, bind_some, hlookup,
        bind_some, hsearch, bind_some]
  | some prev =>
    right
    have hp := hfound.mp rfl
    refine ⟨p, n, (c, ⟨Registry.slotOf t, (ptrs (Registry.slotOf t)).head?⟩), prev, hp, hn, hid,
      hhas.mp hp, ?_⟩
    rw [utilCmdHandler, hclient, bind_some, if_neg hok, hfind, bind_some, hlookup,
      bind_some, hsearch, bind_some]
    simp only [hn, bind_some]

/-- `posal_memorymap_get_mem_map_handle` for a registered client and a known handle. -/
lemma getMemMapHandle_eq : s.getMemMapHandle t handle =
      some (if Registry.has mappings handle then (.eok, handle) else (.ebadparam, 0)) := by
  obtain ⟨c, -, hfind, hclient⟩ := h.findClient ht
  obtain ⟨p, n, found, hlookup, hn, hid, hne, hsearch, hfound, hhas⟩ := h.searchKnown ht hknown
  have hok : ¬ (ArResult.eok ≠ ArResult.eok ∨ handle = 0) := by simp [hne]
  rw [Memorymap.getMemMapHandle, hclient, bind_some, if_neg hok, hfind, bind_some,
    hlookup, bind_some, hsearch, bind_some]
  cases found with
  | none =>
    have hfalse : Registry.has mappings handle = false := Bool.eq_false_iff.mpr fun htrue => by
      have := hfound.mpr (hhas.mpr htrue)
      contradiction
    simp [hfalse]
  | some prev =>
    have htrue := hhas.mp (hfound.mp rfl)
    simp [htrue, hn, hid]

end

/-! ## Mapping -/

/-- The part of the mapping functions after the checks. -/
lemma mapNode (h : s.HeldBy a ptrs) {args : MapArgs} {env : MapEnv} {plan : MapPlan}
    {key : Addr → UInt32} {mmap : ℕ → ShmRegion → Option UInt64} (mode : MappingMode)
    (ht : a.ofToken args.clientToken = some mappings)
    (hfresh : ∀ p, env.node = some p → s.nodes p = none)
    (hsupplied : plan.supplied = true ↔ env.node.isSome ∧ env.hashNode ∧
      (mapRegions mmap 0 args.shmMemReg).isSome)
    (hkey : ∀ p, env.node = some p → key p = plan.key)
    (hid : plan.supplied = true → args.uniqueShmemId24bit = 0 ∧ plan.key ≠ 0 ∧
      a.known plan.key = false) :
    ∃ r v s', s.mapNode args env key mmap mode = some (r, v, s') ∧
      (r = .eok ↔ plan.supplied = true) ∧ (plan.supplied = true → v = plan.key) ∧
      ∃ ptrs', s'.HeldBy (if plan.supplied then
        update a (Registry.slotOf args.clientToken) (some (⟨plan.key, 0⟩ :: mappings)) else a)
          ptrs' := by
  obtain ⟨c, -, -, hclient⟩ := h.findClient ht
  rw [Memorymap.mapNode, hclient, bind_some, if_neg (by simp)]
  cases hnode : env.node with
  | none =>
    have hnot : plan.supplied = false := by
      rw [← Bool.not_eq_true, hsupplied, hnode]
      simp
    rw [hnot]
    exact ⟨_, _, _, rfl, by simp, by simp, ptrs, h⟩
  | some p =>
    cases hhash : env.hashNode with
    | false =>
      have hnot : plan.supplied = false := by
        rw [← Bool.not_eq_true, hsupplied, hhash]
        simp
      rw [hnot]
      exact ⟨_, _, _, rfl, by simp, by simp, ptrs, h.leak (hfresh p hnode) _⟩
    | true =>
      cases hregions : mapRegions mmap 0 args.shmMemReg with
      | none =>
        have hnot : plan.supplied = false := by
          rw [← Bool.not_eq_true, hsupplied, hregions]
          simp
        rw [hnot]
        exact ⟨_, _, _, rfl, by simp, by simp, ptrs, h⟩
      | some regions =>
        have hyes : plan.supplied = true := by
          rw [hsupplied, hnode, hhash, hregions]
          simp
        obtain ⟨hzero, hne, hunknown⟩ := hid hyes
        have hplace : (if args.uniqueShmemId24bit ≠ 0 then args.uniqueShmemId24bit else key p)
            = plan.key := by
          rw [if_neg (by simp [hzero]), hkey p hnode]
        obtain ⟨s', hadd, hheld⟩ := h.addNode ht (hfresh p hnode) hunknown hne
          (n := ⟨plan.key, args.poolId, regions, 0, mode, none⟩) rfl rfl
        refine ⟨.eok, plan.key, s', ?_, by simp [hyes], fun _ => rfl, _,
          by rw [if_pos hyes]; exact hheld⟩
        simp only [not_true_eq_false, if_false, hplace]
        rw [hadd, map_some]

end Memorymap.HeldBy

end AudioReach
