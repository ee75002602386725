import AudioReach.Memorymap.Calls

/-!
# Addresses in a mapping

A client that has a mapping asks for the virtual address of an offset, or of an address, and for
how much of the region is left from there on.  Both questions go through the handler of commands
as `CMD_GET_SHM_ATTRIB`, which only looks at the first region of the mapping.

For an offset the handler compares two pointers that were added up, and the size of what the
client wants is not part of the command.  For an address nothing is compared at all.
-/

namespace AudioReach

open Option

/-! ## What is asked and answered -/

/-- The question of a `mem_region_attrib_from_shmm_handle_struct_t`. -/
structure ShmQuery where
  shmAddrLsw : UInt32
  shmAddrMsw : UInt32
  isRefCounted : Bool

/-- `posal_memorymap_mem_region_attrib_t`. -/
structure MemRegionAttrib where
  basePhyAddrLsw : UInt32
  basePhyAddrMsw : UInt32
  memRegSize : UInt32
  baseVirtAddr : UInt32
  reqVirtAdrr : UInt32
  remRegSize : UInt32
  deriving DecidableEq

/-- `phy_addr_64bits`: an offset if the mapping is for offsets, an address otherwise. -/
def ShmQuery.phyAddr64bits (q : ShmQuery) : UInt64 :=
  (q.shmAddrMsw.toUInt64 <<< 32) ||| q.shmAddrLsw.toUInt64

/-- The mapping is for offsets. -/
def MappingMode.isOffset : MappingMode → Bool
  | .physicalOffset | .virtualOffset => true
  | .physicalAddr | .virtualAddr => false

namespace RegionRecord

/-- `virt_addr`: nothing is ever stored there, and the node was cleared. -/
def virtAddr (_ : RegionRecord) : UInt32 := 0

/-- The attributes that are filled in alike in all modes. -/
def attrib (r : RegionRecord) (phyAddr : UInt64) (remRegSize : UInt32) : MemRegionAttrib where
  basePhyAddrLsw := r.region.shmAddrLsw
  basePhyAddrMsw := r.region.shmAddrMsw
  memRegSize := r.region.memSize
  baseVirtAddr := r.virtAddr
  reqVirtAdrr := phyAddr.toUInt32
  remRegSize := remRegSize

end RegionRecord

/-- The two branches of `CMD_GET_SHM_ATTRIB` on the first region: the result, `req_virt_addr` and
the attributes, which were `attr` before. -/
def MappingMode.shmAttrib (mode : MappingMode) (r : RegionRecord) (phyAddr : UInt64)
    (attr : MemRegionAttrib) : ArResult × UInt64 × MemRegionAttrib :=
  if mode.isOffset then
    if r.virtAddrPtr + phyAddr > r.virtAddrPtr + r.region.memSize.toUInt64 then
      (.ebadparam, 0, attr)
    else
      (.eok, r.virtAddrPtr + phyAddr,
        r.attrib phyAddr (r.virtAddr + r.region.memSize - phyAddr.toUInt32))
  else
    (.eok, phyAddr, r.attrib phyAddr
        ((r.virtAddrPtr + r.region.memSize.toUInt64).toUInt32 - phyAddr.toUInt32))

namespace MappingMode

/-- The offset is out of bounds, as the code compares. -/
def OutOfBounds (mode : MappingMode) (first : RegionRecord) (phyAddr : UInt64) : Prop :=
  mode.isOffset = true ∧
    first.virtAddrPtr + phyAddr > first.virtAddrPtr + first.region.memSize.toUInt64

/-- The virtual address of the answer. -/
def address (mode : MappingMode) (first : RegionRecord) (phyAddr : UInt64) : UInt64 :=
  if mode.isOffset then first.virtAddrPtr + phyAddr else phyAddr

/-- `rem_reg_size` of the answer. -/
def remaining (mode : MappingMode) (first : RegionRecord) (phyAddr : UInt64) : UInt32 :=
  if mode.isOffset then first.virtAddr + first.region.memSize - phyAddr.toUInt32
  else (first.virtAddrPtr + first.region.memSize.toUInt64).toUInt32 - phyAddr.toUInt32

/-- The query is refused: the offset is out of bounds, or the address is null. -/
def Refuses (mode : MappingMode) (first : RegionRecord) (phyAddr : UInt64) : Prop :=
  mode.OutOfBounds first phyAddr ∨ mode.address first phyAddr = 0

lemma shmAttrib_cases (mode : MappingMode) (first : RegionRecord) (phyAddr : UInt64)
    (attr : MemRegionAttrib) :
    mode.OutOfBounds first phyAddr ∧ mode.shmAttrib first phyAddr attr = (.ebadparam, 0, attr) ∨
      ¬ mode.OutOfBounds first phyAddr ∧
        mode.shmAttrib first phyAddr attr = (.eok, mode.address first phyAddr,
          first.attrib phyAddr (mode.remaining first phyAddr)) := by
  cases hmode : mode.isOffset with
  | true =>
    simp only [OutOfBounds, address, remaining, shmAttrib, hmode, if_true, true_and]
    by_cases hout : first.virtAddrPtr + phyAddr
        > first.virtAddrPtr + first.region.memSize.toUInt64
    · exact Or.inl ⟨hout, if_pos hout⟩
    · exact Or.inr ⟨hout, if_neg hout⟩
  | false =>
    refine Or.inr ⟨fun hout => ?_, ?_⟩
    · rw [OutOfBounds, hmode] at hout
      exact Bool.false_ne_true hout.1
    · simp only [address, remaining, shmAttrib, hmode, Bool.false_eq_true, if_false]

end MappingMode

namespace Memorymap

/-- `CMD_GET_SHM_ATTRIB` on the node of a handle. -/
def execGetShmAttrib (s : Memorymap) (handleNode : Addr) (n : MemorymapNode) (q : ShmQuery)
    (attr : MemRegionAttrib) : Option (ArResult × UInt64 × MemRegionAttrib × Memorymap) :=
  n.regions.head?.map fun first =>
    let r := n.mappingMode.shmAttrib first q.phyAddr64bits attr
    if r.1 ≠ .eok then (r.1, r.2.1, r.2.2, s)
    else if r.2.1 = 0 then (.ebadparam, r.2.1, r.2.2, s)
    else
      (.eok, r.2.1, r.2.2,
        if q.isRefCounted then s.setNode handleNode { n with refCount := n.refCount + 1 } else s)

/-- `memorymap_util_cmd_handler` with `CMD_GET_SHM_ATTRIB`. -/
def utilGetShmAttrib (s : Memorymap) (clientToken shmMemMapHandle : UInt32) (q : ShmQuery)
    (attr : MemRegionAttrib) : Option (ArResult × UInt64 × MemRegionAttrib × Memorymap) :=
  (s.utilFindClient clientToken).bind fun result =>
    if result ≠ .eok ∨ shmMemMapHandle = 0 then some (result, 0, attr, s)
    else
      (s.findClientPtr clientToken).bind fun client =>
      (s.shmmapHt.lookup shmMemMapHandle).bind fun handleNode =>
      (s.searchNode handleNode s.allocated none client.2.pMemMapListNode).bind fun found =>
        match found with
        | none => some (.ebadparam, 0, attr, s)
        | some _ => (s.nodes handleNode).bind fun n => s.execGetShmAttrib handleNode n q attr

/-- `posal_memorymap_get_virtual_addr_from_shm_handle_v2`, with what it writes to `virt_addr`.
It never looks at `reg_size`. -/
def getVirtualAddrFromShmHandleV2 (s : Memorymap) (clientToken shmMemMapHandle : UInt32)
    (q : ShmQuery) (_regSize : UInt32) : Option (ArResult × Option UInt64 × Memorymap) :=
  (s.utilGetShmAttrib clientToken shmMemMapHandle q ⟨0, 0, 0, 0, 0, 0⟩).map fun r =>
    if r.1 ≠ .eok then (r.1, none, r.2.2.2) else (r.1, some r.2.1, r.2.2.2)

/-- `posal_memorymap_get_mem_region_attrib_from_shmm_handle`, with the attributes, which were
`attr` before. -/
def getMemRegionAttribFromShmmHandle (s : Memorymap) (clientToken shmMemMapHandle : UInt32)
    (q : ShmQuery) (attr : MemRegionAttrib) : Option (ArResult × MemRegionAttrib × Memorymap) :=
  (s.utilGetShmAttrib clientToken shmMemMapHandle q attr).map fun r => (r.1, r.2.2.1, r.2.2.2)

/-! ## A live mapping -/

/-- The client has a mapping under the handle: the handle leads to its node at `p`, which is in
the list of the client and has the region `first` before all others. -/
structure LiveMapping (s : Memorymap) (clientToken handle : UInt32) (p : Addr)
    (n : MemorymapNode) (first : RegionRecord) : Prop where
  client : s.utilFindClient clientToken = some .eok
  handle_ne : handle ≠ 0
  lookup : s.shmmapHt.lookup handle = some p
  node : s.nodes p = some n
  /-- The search in the list of the client meets the node. -/
  listed : ∃ c prev, s.findClientPtr clientToken = some c ∧
    s.searchNode p s.allocated none c.2.pMemMapListNode = some (some prev)
  head : n.regions.head? = some first

lemma HeldBy.liveMapping {s : Memorymap} {a : Registry} {ptrs : ℕ → List Addr}
    {t handle : UInt32} {mappings : List Mapping} (h : s.HeldBy a ptrs)
    (ht : a.ofToken t = some mappings) (hhas : Registry.has mappings handle = true) :
    ∃ p n, n.shmemId = handle ∧
      ∀ first, n.regions.head? = some first → s.LiveMapping t handle p n first := by
  obtain ⟨c, -, hfind, hclient⟩ := h.findClient ht
  have hknown : a.known handle = true :=
    (Registry.known_iff h.bound).mpr ⟨_, mappings, (Registry.ofToken_eq_some ht).1, hhas⟩
  obtain ⟨p, n, found, hlookup, hnode, hid, hne, hsearch, hfound, hmem⟩ :=
    h.searchKnown ht hknown
  obtain ⟨prev, rfl⟩ := isSome_iff_exists.mp (hfound.mpr (hmem.mpr hhas))
  exact ⟨p, n, hid, fun first hfirst =>
    ⟨hclient, hne, hlookup, hnode, ⟨_, prev, hfind, hsearch⟩, hfirst⟩⟩

namespace LiveMapping

variable {s : Memorymap} {t handle : UInt32} {p : Addr} {n : MemorymapNode}
  {first : RegionRecord}

section

variable (h : s.LiveMapping t handle p n first) (q : ShmQuery) (attr : MemRegionAttrib)
include h

lemma utilGetShmAttrib : s.utilGetShmAttrib t handle q attr = s.execGetShmAttrib p n q attr := by
  obtain ⟨c, prev, hfind, hsearch⟩ := h.listed
  have hgo : ¬ (ArResult.eok ≠ .eok ∨ handle = 0) := by
    rw [not_or, not_not]
    exact ⟨rfl, h.handle_ne⟩
  rw [Memorymap.utilGetShmAttrib, h.client, bind_some, if_neg hgo, hfind,
    bind_some, h.lookup, bind_some, hsearch, bind_some]
  simp only [h.node, bind_some]

/-- **A query on a live mapping.** It is refused and nothing changes, or it is answered. -/
lemma answered : n.mappingMode.Refuses first q.phyAddr64bits ∧ (∃ rc v attr', rc ≠ .eok ∧
          s.utilGetShmAttrib t handle q attr = some (rc, v, attr', s)) ∨
      ¬ n.mappingMode.Refuses first q.phyAddr64bits ∧
        ∃ s', s.utilGetShmAttrib t handle q attr = some (.eok,
          n.mappingMode.address first q.phyAddr64bits,
          first.attrib q.phyAddr64bits (n.mappingMode.remaining first q.phyAddr64bits), s') := by
  rw [h.utilGetShmAttrib, execGetShmAttrib, h.head, map_some]
  rcases n.mappingMode.shmAttrib_cases first q.phyAddr64bits attr with
    ⟨hout, heq⟩ | ⟨hout, heq⟩
  · rw [heq]
    exact Or.inl ⟨Or.inl hout, .ebadparam, 0, attr, by decide, rfl⟩
  · rw [heq, if_neg (not_not.mpr rfl)]
    by_cases hnull : n.mappingMode.address first q.phyAddr64bits = 0
    · rw [if_pos hnull]
      exact Or.inl ⟨Or.inr hnull, .ebadparam, _, _, by decide, rfl⟩
    · rw [if_neg hnull]
      exact Or.inr ⟨not_or.mpr ⟨hout, hnull⟩, _, rfl⟩

end

end LiveMapping

end Memorymap

/-! ## The sums of the code -/

namespace MappingMode

variable {mode : MappingMode} {first : RegionRecord} {phyAddr : UInt64}

section

variable (hmode : mode.isOffset = true)
include hmode

lemma address_toNat_of_offset : (mode.address first phyAddr).toNat
      = (first.virtAddrPtr.toNat + phyAddr.toNat) % 2 ^ 64 := by
  rw [address, if_pos hmode, UInt64.toNat_add]

lemma le_memSize_of_not_refuses (hgo : ¬ mode.Refuses first phyAddr)
    (hsum : first.virtAddrPtr.toNat + phyAddr.toNat < 2 ^ 64) :
    phyAddr.toNat ≤ first.region.memSize.toNat := by
  have hle : first.virtAddrPtr + phyAddr
      ≤ first.virtAddrPtr + first.region.memSize.toUInt64 :=
    UInt64.not_lt.mp fun hout => hgo (Or.inl ⟨hmode, hout⟩)
  rw [UInt64.le_iff_toNat_le, UInt64.toNat_add, UInt64.toNat_add, UInt32.toNat_toUInt64,
    Nat.mod_eq_of_lt hsum] at hle
  omega

lemma remaining_of_offset (hle : phyAddr.toNat ≤ first.region.memSize.toNat) :
    phyAddr.toNat + (mode.remaining first phyAddr).toNat = first.region.memSize.toNat := by
  have hlt := first.region.memSize.toNat_lt
  rw [remaining, if_pos hmode, RegionRecord.virtAddr, UInt32.zero_add,
    UInt32.toNat_sub_of_le, UInt64.toNat_toUInt32]
  · omega
  · rw [UInt32.le_iff_toNat_le, UInt64.toNat_toUInt32]
    omega

end

lemma remaining_of_addr (hmode : mode.isOffset = false) :
    (phyAddr.toNat + (mode.remaining first phyAddr).toNat) % 2 ^ 32
      = (first.virtAddrPtr.toNat + first.region.memSize.toNat) % 2 ^ 32 := by
  rw [remaining, hmode, if_neg Bool.false_ne_true, UInt32.toNat_sub, UInt64.toNat_toUInt32,
    UInt64.toNat_toUInt32, UInt64.toNat_add, UInt32.toNat_toUInt64]
  omega

end MappingMode

/-! ## Ranges in a region -/

namespace RegionRecord

/-- The address after the region, not cut to 64 bits. -/
def last (r : RegionRecord) : ℕ := r.virtAddrPtr.toNat + r.region.memSize.toNat

/-- The `size` bytes from `addr` on are in the region. -/
def Holds (r : RegionRecord) (addr size : ℕ) : Prop :=
  r.virtAddrPtr.toNat ≤ addr ∧ addr + size ≤ r.last

end RegionRecord

/-- The virtual address that is asked for, not cut to 64 bits. -/
def MemorymapNode.asked (n : MemorymapNode) (first : RegionRecord) (q : ShmQuery) : ℕ :=
  if n.mappingMode.isOffset then first.virtAddrPtr.toNat + q.phyAddr64bits.toNat
  else q.phyAddr64bits.toNat

/-- Both questions about an address are answered right, with `regSize` bytes wanted from there
on. -/
structure QueryRight (s : Memorymap) (t handle : UInt32) (n : MemorymapNode)
    (first : RegionRecord) (q : ShmQuery) (attr : MemRegionAttrib) (regSize : UInt32) : Prop where
  /-- The address that is given is the one asked for, and one region has the bytes. -/
  inside : ∀ v s', s.getVirtualAddrFromShmHandleV2 t handle q regSize = some (.eok, v, s') →
    ∃ va, v = some va ∧ va.toNat = n.asked first q ∧ ∃ r ∈ n.regions, r.Holds va.toNat regSize.toNat
  /-- The size that is given reaches from the address to the end of that region. -/
  remaining : ∀ m s', s.getMemRegionAttribFromShmmHandle t handle q attr = some (.eok, m, s') →
    ∃ r ∈ n.regions, r.Holds (n.asked first q) regSize.toNat ∧
      n.asked first q + m.remRegSize.toNat = r.last
  /-- A question about bytes that no region has fails, and nothing changes. -/
  refused : (∀ r ∈ n.regions, ¬ r.Holds (n.asked first q) regSize.toNat) →
    (∃ rc, rc ≠ .eok ∧ s.getVirtualAddrFromShmHandleV2 t handle q regSize = some (rc, none, s)) ∧
      ∃ rc m, rc ≠ .eok ∧ s.getMemRegionAttribFromShmmHandle t handle q attr = some (rc, m, s)

/-- What the code needs: for an offset that is not refused, the sum of the pointer and the offset
is an address, and the bytes are before the end of the first region; for an address, a region has
the bytes, and it ends where the first one ends, in the low 32 bits. -/
def QueryServed (n : MemorymapNode) (first : RegionRecord) (q : ShmQuery) (regSize : UInt32) :
    Prop :=
  n.mappingMode.Refuses first q.phyAddr64bits ∨
    if n.mappingMode.isOffset then
      first.virtAddrPtr.toNat + q.phyAddr64bits.toNat < 2 ^ 64 ∧
        q.phyAddr64bits.toNat + regSize.toNat ≤ first.region.memSize.toNat
    else
      ∃ r ∈ n.regions, r.Holds q.phyAddr64bits.toNat regSize.toNat ∧
        r.last % 2 ^ 32 = first.last % 2 ^ 32

namespace Memorymap.LiveMapping

variable {s : Memorymap} {t handle : UInt32} {p : Addr} {n : MemorymapNode}
  {first : RegionRecord}
variable {q : ShmQuery}

section

variable (h : s.LiveMapping t handle p n first)
include h

/-- A query that is refused is answered right. -/
lemma queryRight_of_refuses (hrefuses : n.mappingMode.Refuses first q.phyAddr64bits)
    (attr : MemRegionAttrib) (regSize : UInt32) : QueryRight s t handle n first q attr regSize := by
  have hfails : ∀ attr, ∃ rc v attr', rc ≠ .eok ∧
      s.utilGetShmAttrib t handle q attr = some (rc, v, attr', s) := fun attr => by
    rcases h.answered q attr with ⟨-, hfail⟩ | ⟨hgo, -⟩
    · exact hfail
    · exact absurd hrefuses hgo
  have hvirt : ∃ rc, rc ≠ .eok ∧
      s.getVirtualAddrFromShmHandleV2 t handle q regSize = some (rc, none, s) := by
    obtain ⟨rc, v, attr', hrc, heq⟩ := hfails ⟨0, 0, 0, 0, 0, 0⟩
    refine ⟨rc, hrc, ?_⟩
    rw [getVirtualAddrFromShmHandleV2, heq, map_some]
    exact congrArg some (if_pos hrc)
  have hattrib : ∃ rc m, rc ≠ .eok ∧
      s.getMemRegionAttribFromShmmHandle t handle q attr = some (rc, m, s) := by
    obtain ⟨rc, v, attr', hrc, heq⟩ := hfails attr
    exact ⟨rc, attr', hrc, by rw [getMemRegionAttribFromShmmHandle, heq, map_some]⟩
  refine ⟨?_, ?_, fun _ => ⟨hvirt, hattrib⟩⟩
  · intro v s' heok
    obtain ⟨rc, hrc, heq⟩ := hvirt
    rw [heq, Option.some.injEq, Prod.mk.injEq] at heok
    exact absurd heok.1 hrc
  · intro m s' heok
    obtain ⟨rc, m', hrc, heq⟩ := hattrib
    rw [heq, Option.some.injEq, Prod.mk.injEq] at heok
    exact absurd heok.1 hrc

/-- A query that is not refused is answered right if the address and the size that are given are
those of a region that has the bytes. -/
lemma queryRight_iff_of_not_refuses (hgo : ¬ n.mappingMode.Refuses first q.phyAddr64bits)
    (attr : MemRegionAttrib) (regSize : UInt32) :
    QueryRight s t handle n first q attr regSize ↔
      (n.mappingMode.address first q.phyAddr64bits).toNat = n.asked first q ∧
        ∃ r ∈ n.regions, r.Holds (n.asked first q) regSize.toNat ∧
          n.asked first q + (n.mappingMode.remaining first q.phyAddr64bits).toNat = r.last := by
  have hgoes : ∀ attr, ∃ s', s.utilGetShmAttrib t handle q attr = some (.eok,
      n.mappingMode.address first q.phyAddr64bits,
      first.attrib q.phyAddr64bits (n.mappingMode.remaining first q.phyAddr64bits), s') :=
    fun attr => by
    rcases h.answered q attr with ⟨hrefuses, -⟩ | ⟨-, hgoes⟩
    · exact absurd hrefuses hgo
    · exact hgoes
  have hvirt : ∃ s', s.getVirtualAddrFromShmHandleV2 t handle q regSize
      = some (.eok, some (n.mappingMode.address first q.phyAddr64bits), s') := by
    obtain ⟨s', heq⟩ := hgoes ⟨0, 0, 0, 0, 0, 0⟩
    refine ⟨s', ?_⟩
    rw [getVirtualAddrFromShmHandleV2, heq, map_some]
    exact congrArg some (if_neg (not_not.mpr rfl))
  have hattrib : ∃ s', s.getMemRegionAttribFromShmmHandle t handle q attr = some (.eok,
      first.attrib q.phyAddr64bits (n.mappingMode.remaining first q.phyAddr64bits), s') := by
    obtain ⟨s', heq⟩ := hgoes attr
    exact ⟨s', by rw [getMemRegionAttribFromShmmHandle, heq, map_some]⟩
  obtain ⟨s₁, hvirt⟩ := hvirt
  obtain ⟨s₂, hattrib⟩ := hattrib
  constructor
  · intro hright
    obtain ⟨va, hva, hasked, -⟩ := hright.inside _ _ hvirt
    rw [Option.some.injEq] at hva
    exact ⟨hva ▸ hasked, hright.remaining _ _ hattrib⟩
  · rintro ⟨hasked, r, hr, hholds, hrem⟩
    refine ⟨?_, ?_, fun hnone => absurd hholds (hnone r hr)⟩
    · intro v s' heok
      rw [hvirt, Option.some.injEq, Prod.mk.injEq, Prod.mk.injEq] at heok
      exact ⟨_, heok.2.1.symm, hasked, r, hr, hasked ▸ hholds⟩
    · intro m s' heok
      rw [hattrib, Option.some.injEq, Prod.mk.injEq, Prod.mk.injEq] at heok
      rw [← heok.2.1]
      exact ⟨r, hr, hholds, hrem⟩

/-- An offset is answered right if and only if its bytes are in the first region. -/
lemma queryRight_iff_of_offset (hmode : n.mappingMode.isOffset = true)
    (hgo : ¬ n.mappingMode.Refuses first q.phyAddr64bits) (attr : MemRegionAttrib)
    (regSize : UInt32) :
    QueryRight s t handle n first q attr regSize ↔
      first.virtAddrPtr.toNat + q.phyAddr64bits.toNat < 2 ^ 64 ∧
        q.phyAddr64bits.toNat + regSize.toNat ≤ first.region.memSize.toNat := by
  have hasked : n.asked first q = first.virtAddrPtr.toNat + q.phyAddr64bits.toNat := if_pos hmode
  rw [h.queryRight_iff_of_not_refuses hgo, MappingMode.address_toNat_of_offset hmode, hasked]
  constructor
  · rintro ⟨hcut, r, -, hholds, hrem⟩
    have hsum : first.virtAddrPtr.toNat + q.phyAddr64bits.toNat < 2 ^ 64 := by
      rw [← hcut]
      exact Nat.mod_lt _ (by decide)
    have hle := MappingMode.le_memSize_of_not_refuses hmode hgo hsum
    have hleft := MappingMode.remaining_of_offset hmode hle
    refine ⟨hsum, ?_⟩
    -- the region ends where the first one ends
    have hend := hholds.2
    omega
  · rintro ⟨hsum, hfits⟩
    have hle := MappingMode.le_memSize_of_not_refuses hmode hgo hsum
    have hleft := MappingMode.remaining_of_offset hmode hle
    refine ⟨Nat.mod_eq_of_lt hsum, first, List.mem_of_mem_head? h.head, ⟨?_, ?_⟩, ?_⟩
    · exact Nat.le_add_right _ _
    · rw [RegionRecord.last]
      omega
    · rw [RegionRecord.last, Nat.add_assoc, hleft]

/-- An address is answered right if and only if a region has its bytes and ends where the first
one ends, in the low 32 bits. -/
lemma queryRight_iff_of_addr (hmode : n.mappingMode.isOffset = false)
    (hgo : ¬ n.mappingMode.Refuses first q.phyAddr64bits) (attr : MemRegionAttrib)
    (regSize : UInt32) :
    QueryRight s t handle n first q attr regSize ↔
      ∃ r ∈ n.regions, r.Holds q.phyAddr64bits.toNat regSize.toNat ∧
        r.last % 2 ^ 32 = first.last % 2 ^ 32 := by
  have hoff : ¬ n.mappingMode.isOffset = true := by
    rw [hmode]
    exact Bool.false_ne_true
  have hasked : n.asked first q = q.phyAddr64bits.toNat := if_neg hoff
  have haddr : n.mappingMode.address first q.phyAddr64bits = q.phyAddr64bits := if_neg hoff
  have hleft := @MappingMode.remaining_of_addr n.mappingMode first q.phyAddr64bits hmode
  rw [h.queryRight_iff_of_not_refuses hgo, hasked, haddr, and_iff_right rfl]
  refine exists_congr fun r => and_congr_right fun _ => and_congr_right fun hholds => ?_
  have hlt := r.region.memSize.toNat_lt
  have hlt' := (n.mappingMode.remaining first q.phyAddr64bits).toNat_lt
  obtain ⟨hfrom, hto⟩ := hholds
  rw [RegionRecord.last] at hto ⊢
  rw [RegionRecord.last]
  omega

end

/-- A query on a live mapping is answered right exactly when the code can serve it. -/
lemma queryRight_iff (h : s.LiveMapping t handle p n first) (q : ShmQuery)
    (attr : MemRegionAttrib) (regSize : UInt32) :
    QueryRight s t handle n first q attr regSize ↔ QueryServed n first q regSize := by
  rw [QueryServed]
  by_cases hrefuses : n.mappingMode.Refuses first q.phyAddr64bits
  · exact iff_of_true (h.queryRight_of_refuses hrefuses attr regSize) (Or.inl hrefuses)
  · rw [or_iff_right hrefuses]
    cases hmode : n.mappingMode.isOffset with
    | true =>
      exact h.queryRight_iff_of_offset hmode hrefuses attr regSize
    | false =>
      exact h.queryRight_iff_of_addr hmode hrefuses attr regSize

/-- **Exactly which queries are right.** On a live mapping of any mode, both questions about an
address are answered right if and only if the query is one the code can serve. -/
theorem getShmAttrib_right_iff (h : s.LiveMapping t handle p n first) (q : ShmQuery)
    (attr : MemRegionAttrib) (regSize : UInt32) :
    QueryRight s t handle n first q attr regSize ↔ QueryServed n first q regSize :=
  h.queryRight_iff q attr regSize

/-- **Queries on what the registry lists.** As long as the registry describes the memory map, every
mapping that it lists for a client has a node, and the client's queries on it are answered right if
and only if the code can serve them. -/
theorem heldBy_queryRight_iff {a : Registry} {ptrs : ℕ → List Addr} {mappings : List Mapping}
    (h : s.HeldBy a ptrs) (ht : a.ofToken t = some mappings)
    (hhas : Registry.has mappings handle = true) :
    ∃ n, n.shmemId = handle ∧ ∀ first, n.regions.head? = some first →
      ∀ q attr regSize, QueryRight s t handle n first q attr regSize ↔
        QueryServed n first q regSize := by
  obtain ⟨p, n, hid, hlive⟩ := h.liveMapping ht hhas
  exact ⟨n, hid, fun first hfirst q attr regSize =>
    (hlive first hfirst).queryRight_iff q attr regSize⟩

/-! ## A mapping for offsets -/

/-- The record of one page. -/
def onePage : RegionRecord := ⟨⟨5, 0, 4096⟩, 0x10000⟩

/-- The node of one page that is mapped for offsets. -/
def onePageNode : MemorymapNode := ⟨5, 0, [onePage], 0, .physicalOffset, none⟩

/-- A client registers and maps one page for offsets. -/
def onePageMapped : Memorymap :=
  [MemorymapCall.register ⟨some 10, true⟩,
    .shmMemMap ⟨1, [onePage.region], true, 0, 0⟩ ⟨some 20, true, fun _ => some 0x10000⟩].foldl
    (fun s c => (s.call c).elim s fun r => r.2.2) Memorymap.init

lemma onePageMapped_live : onePageMapped.LiveMapping 1 5 20 onePageNode onePage where
  client := by decide
  handle_ne := by decide
  lookup := by decide
  node := by decide
  listed := ⟨(10, ⟨0, some 20⟩), none, by decide, by decide⟩
  head := rfl

/-- The last byte of the page. -/
theorem getShmAttrib_right_lastByte :
    QueryRight onePageMapped 1 5 onePageNode onePage ⟨4095, 0, true⟩ ⟨0, 0, 0, 0, 0, 0⟩ 1 ↔
      QueryServed onePageNode onePage ⟨4095, 0, true⟩ 1 :=
  getShmAttrib_right_iff onePageMapped_live _ _ _

/-- **The claim fails.** The offset after the last byte of the page is not refused. -/
theorem not_getShmAttrib_right :
    ¬ ∀ (s : Memorymap) (t handle : UInt32) (p : Addr) (n : MemorymapNode)
      (first : RegionRecord), s.LiveMapping t handle p n first →
      ∀ (q : ShmQuery) (attr : MemRegionAttrib) (regSize : UInt32), 1 ≤ regSize →
        QueryRight s t handle n first q attr regSize := by
  intro h
  have hright := h _ _ _ _ _ _ onePageMapped_live ⟨4096, 0, true⟩ ⟨0, 0, 0, 0, 0, 0⟩ 1 (by decide)
  obtain ⟨va, hva, -, r, hr, hholds⟩ := hright.inside (some 0x11000) _ rfl
  rw [Option.some.injEq] at hva
  obtain rfl := List.mem_singleton.mp hr
  have hend := hholds.2
  rw [← hva] at hend
  exact absurd hend (by decide)

end Memorymap.LiveMapping

end AudioReach
