import Mathlib.Data.List.GetD
import AudioReach.Gpr.Packet
import AudioReach.Library.Assign
import AudioReach.Library.Chains

/-!
# Packet accounting

`GprCtxt.Accounted` is what the packet pools are meant to keep: every packet that is out
is charged to exactly one pool, of the heap that was asked for; it has the memory its
header reports; the counter of a dynamic pool is the number of packets charged to it;
and the units of a static pool are its free ones and those that are out, each once.

Allocation and release choose the pool independently of each other, so the invariant is
kept only by the calls described by `AllocCond` and `FreeCond`: the 32-bit sum of header
and payload must not wrap around and must fit the 24 bits of the header field, at most
one dynamic pool may fit a request, and the pool that takes a dynamic packet back must be
the pool it was charged to.
-/

namespace AudioReach

open Function (update update_of_ne update_self)
open Library List

namespace GprCtxt

/-! ## What the accounts are about -/

/-- Does the pool exist? -/
def HasPool (ctx : GprCtxt) : GprPool → Prop
  | .static i => i < ctx.numStaticPacketPools
  | .dyn i => i < ctx.numDynPacketPools

/-- The heap of a pool. -/
def poolHeapIndex (ctx : GprCtxt) : GprPool → UInt32
  | .static i => (ctx.staticPoolArr i).heapIndex
  | .dyn i => (ctx.dynPoolArr i).heapIndex

/-- The packet size of a pool. -/
def poolBufSize (ctx : GprCtxt) : GprPool → UInt32
  | .static i => (ctx.staticPoolArr i).bufSize
  | .dyn i => (ctx.dynPoolArr i).bufSize

/-- The packet has at least `n` bytes of memory. -/
def Backs (ctx : GprCtxt) : GprPacket → ℕ → Prop
  | .unit i _, n => n ≤ (ctx.staticPoolArr i).unitBytes
  | .dyn a, n => ∃ d ∈ ctx.dynamicPacketList, d.address = a ∧ n ≤ d.bytes

/-- The pool is of the packet's kind: a unit is charged to the pool it lies in. -/
def KindOf : GprPacket → GprPool → Prop
  | .unit i _, pool => pool = .static i
  | .dyn _, pool => ∃ j, pool = .dyn j

/-- The unit of static pool `i` that a packet is, if any. -/
def unitOf (i : ℕ) : GprPacket → Option ℕ
  | .unit j u => if j = i then some u else none
  | .dyn _ => none

/-- The address of a dynamic packet. -/
def addressOf : GprPacket → Option ℕ
  | .unit _ _ => none
  | .dyn a => some a

/-- The units of a static pool that are out. -/
def liveUnits (ctx : GprCtxt) (i : ℕ) : List ℕ :=
  ctx.live.filterMap fun l => unitOf i l.packet

/-- The addresses of the dynamic packets that are out. -/
def liveAddresses (ctx : GprCtxt) : List ℕ :=
  ctx.live.filterMap fun l => addressOf l.packet

/-- The number of packets charged to a dynamic pool. -/
def chargedTo (ctx : GprCtxt) (i : ℕ) : ℕ :=
  (ctx.live.filter (fun l => GprPool.dyn i ∈ l.charged)).length

/-- What holds of a packet that is out. -/
structure PacketRight (ctx : GprCtxt) (l : GprLivePacket) : Prop where
  /-- It is charged to exactly one pool, of the requested heap. -/
  one_pool : ∃ pool, l.charged = [pool] ∧ ctx.HasPool pool ∧ KindOf l.packet pool ∧
    ctx.poolHeapIndex pool = l.heapIndex ∧ 24 + l.allocSize.toNat ≤ (ctx.poolBufSize pool).toNat
  memory : ctx.Backs l.packet (24 + l.allocSize.toNat)
  header : (gprPktGetPacketByteSize (ctx.header l.packet)).toNat = 24 + l.allocSize.toNat

/-- The accounts are right. -/
structure Accounted (ctx : GprCtxt) : Prop where
  packets : ∀ l ∈ ctx.live, ctx.PacketRight l
  distinct : (ctx.live.map GprLivePacket.packet).Nodup
  /-- A dynamic pool counts the packets charged to it. -/
  curr : ∀ i < ctx.numDynPacketPools, (ctx.dynPoolArr i).currNumPackets.toNat = ctx.chargedTo i
  limit : ∀ i < ctx.numDynPacketPools,
    (ctx.dynPoolArr i).currNumPackets.toNat ≤ (ctx.dynPoolArr i).maxNumPackets.toNat
  /-- The units of a static pool are its free ones and those that are out, each once. -/
  units : ∀ i < ctx.numStaticPacketPools, ((ctx.staticPoolArr i).freeQ ++ ctx.liveUnits i).Perm
      (range (ctx.staticPoolArr i).totalUnits)
  /-- The dynamic packets in use are those that are out. -/
  heap : (ctx.dynamicPacketList.map GprDynamicPacket.address).Perm ctx.liveAddresses
  fresh : ∀ d ∈ ctx.dynamicPacketList, d.address < ctx.nextAddress
  /-- A unit of a static pool holds a packet of the pool's size. -/
  room : ∀ i < ctx.numStaticPacketPools,
    (ctx.staticPoolArr i).bufSize.toNat ≤ (ctx.staticPoolArr i).unitBytes

/-! ## Conditions -/

/-- A static pool serves the request: the first one that fits has a free unit. -/
def StaticServes (ctx : GprCtxt) (packetSize heapIndex : UInt32) : Prop :=
  ∃ i < ctx.numStaticPacketPools,
    (range ctx.numStaticPacketPools).find? (ctx.staticFits packetSize heapIndex) = some i ∧
      (ctx.staticPoolArr i).freeQ ≠ []

instance (ctx : GprCtxt) (packetSize heapIndex : UInt32) :
    Decidable (ctx.StaticServes packetSize heapIndex) :=
  inferInstanceAs (Decidable (∃ i < ctx.numStaticPacketPools, _ ∧ _))

/-- Requests that keep the accounts right.  If the request is served at all, header and
payload together have at most 24 bits; and if no static pool serves it, no second dynamic
pool fits beside the first one, for which a packet is allocated. -/
def AllocCond (ctx : GprCtxt) (allocSize heapIndex : UInt32) (mallocs : ℕ → GprMallocOutcome) :
    Prop :=
  if ctx.StaticServes (gprPktHeaderByteSize + allocSize) heapIndex then
    24 + allocSize.toNat < 0x1000000
  else
    ∀ i < ctx.numDynPacketPools, (range ctx.numDynPacketPools).find?
        (ctx.dynFits (gprPktHeaderByteSize + allocSize) heapIndex) = some i →
      mallocs i = .ok →
      24 + allocSize.toNat < 0x1000000 ∧ ∀ j < ctx.numDynPacketPools,
        ctx.dynFits (gprPktHeaderByteSize + allocSize) heapIndex j = true → j = i

instance (ctx : GprCtxt) (allocSize heapIndex : UInt32) (mallocs : ℕ → GprMallocOutcome) :
    Decidable (ctx.AllocCond allocSize heapIndex mallocs) :=
  inferInstanceAs (Decidable (if ctx.StaticServes _ _ then _
    else ∀ i < ctx.numDynPacketPools, _ = some i → mallocs i = .ok → _ ∧
      ∀ j < ctx.numDynPacketPools, _ = true → j = i))

/-- The packet will be released by the pool charged for it: a dynamic packet goes to the
first dynamic pool that is large enough and has packets out. -/
def ReleasedByCharged (ctx : GprCtxt) (l : GprLivePacket) : Prop :=
  (addressOf l.packet).isSome → ∃ i < ctx.numDynPacketPools, l.charged = [.dyn i] ∧
    (range ctx.numDynPacketPools).find?
      (ctx.dynTakesBack (gprPktGetPacketByteSize (ctx.header l.packet))) = some i

/-- Releases that keep the accounts right: the packet is out, and it is released by the
pool charged for it. -/
def FreeCond (ctx : GprCtxt) (packet : GprPacket) : Prop :=
  ∃ l ∈ ctx.live, l.packet = packet ∧ ctx.ReleasedByCharged l

instance (ctx : GprCtxt) (packet : GprPacket) : Decidable (ctx.FreeCond packet) :=
  inferInstanceAs (Decidable (∃ l ∈ ctx.live, l.packet = packet ∧
    (_ → ∃ i < ctx.numDynPacketPools, l.charged = [.dyn i] ∧ _ = some i)))

/-- Calls of `__gpr_cmd_end_command` that keep the accounts right: the command packet is
out, and the allocation of the response and the releases that follow meet their
conditions, each in the state in which it is made. -/
def EndCond (ctx : GprCtxt) (packet : GprPacket) (opcode : UInt32)
    (mallocs : ℕ → GprMallocOutcome) (sendRc : ArResult) : Prop :=
  (∃ l ∈ ctx.live, l.packet = packet) ∧
  if needsResponse opcode then
    ctx.AllocCond 8 (ctx.responseHeapIndex packet) mallocs ∧
    match ctx.gprCmdAllocV2 8 (ctx.responseHeapIndex packet) mallocs with
    | (.eok, some response, ctx) =>
        if sendRc = .eok then ctx.FreeCond packet
        else ctx.FreeCond response ∧ (ctx.gprCmdFree response).2.FreeCond packet
    | (_, _, ctx) => ctx.FreeCond packet
  else ctx.FreeCond packet

instance (ctx : GprCtxt) (packet : GprPacket) (opcode : UInt32)
    (mallocs : ℕ → GprMallocOutcome) (sendRc : ArResult) :
    Decidable (ctx.EndCond packet opcode mallocs sendRc) := by
  unfold EndCond
  have : ∀ result : ArResult × Option GprPacket × GprCtxt, Decidable (match result with
      | (.eok, some response, ctx) =>
          if sendRc = .eok then ctx.FreeCond packet
          else ctx.FreeCond response ∧ (ctx.gprCmdFree response).2.FreeCond packet
      | (_, _, ctx) => ctx.FreeCond packet) := by
    intro result
    split <;> infer_instance
  infer_instance

/-- The calls that keep the accounts right. -/
def CallCond (ctx : GprCtxt) : GprPacketCall → Prop
  | .alloc allocSize heapIndex mallocs => ctx.AllocCond allocSize heapIndex mallocs
  | .free packet => ctx.FreeCond packet
  | .endCommand packet opcode mallocs sendRc => ctx.EndCond packet opcode mallocs sendRc

instance (ctx : GprCtxt) : ∀ call, Decidable (ctx.CallCond call)
  | .alloc allocSize heapIndex mallocs =>
      inferInstanceAs (Decidable (ctx.AllocCond allocSize heapIndex mallocs))
  | .free packet => inferInstanceAs (Decidable (ctx.FreeCond packet))
  | .endCommand packet opcode mallocs sendRc =>
      inferInstanceAs (Decidable (ctx.EndCond packet opcode mallocs sendRc))

/-- Only packets that are out are given back. -/
def OnLivePackets (ctx : GprCtxt) : GprPacketCall → Prop
  | .alloc _ _ _ => True
  | .free packet => ∃ l ∈ ctx.live, l.packet = packet
  | .endCommand packet _ _ _ => ∃ l ∈ ctx.live, l.packet = packet

/-- Every counter is zero and every free list is full. -/
def AllBack (ctx : GprCtxt) : Prop :=
  (∀ i < ctx.numDynPacketPools, (ctx.dynPoolArr i).currNumPackets = 0) ∧
  ∀ i < ctx.numStaticPacketPools,
    (ctx.staticPoolArr i).freeQ.Perm (range (ctx.staticPoolArr i).totalUnits)

/-- What a single call promises.  An allocation hands out exactly one packet that was not
out, or changes nothing; a release succeeds; ending a command gives its packet back
exactly once. -/
def CallRight (ctx : GprCtxt) : GprPacketCall → Prop
  | .alloc allocSize heapIndex mallocs =>
      ctx.gprCmdAllocV2 allocSize heapIndex mallocs = (.enoresource, none, ctx) ∨
      ∃ l ctx', ctx.gprCmdAllocV2 allocSize heapIndex mallocs = (.eok, some l.packet, ctx') ∧
        ctx'.live = ctx.live ++ [l] ∧ ∀ l' ∈ ctx.live, l'.packet ≠ l.packet
  | .free packet => (ctx.gprCmdFree packet).1 = .eok
  | .endCommand packet opcode mallocs sendRc =>
      (ctx.gprCmdEndCommand packet opcode mallocs sendRc).2.returned.count packet =
        ctx.returned.count packet + 1

end GprCtxt

/-! ## Header field -/

lemma gprPktGetPacketByteSize_header {size : UInt32} (h : size.toNat < 0x1000000) :
    gprPktGetPacketByteSize (gprPktHeader size) = size := by
  have hlow : gprSetBitmask 0x0000000F 0 0 ||| gprSetBitmask 0x000000F0 4 6 = 0x60 := by decide
  have hshift : (UInt32.toNat 8 % 32) = 8 := rfl
  have hfield : size.toNat <<< 8 % 2 ^ 32 = size.toNat <<< 8 := by
    apply Nat.mod_eq_of_lt
    omega
  have hmask : (UInt32.toNat 0xFFFFFF00) >>> 8 = 2 ^ 24 - 1 := by decide
  have hlow' : (UInt32.toNat 0x60) >>> 8 = 0 := by decide
  have hkeep : size.toNat &&& 2 ^ 24 - 1 = size.toNat := Nat.and_two_pow_sub_one_of_lt_two_pow h
  apply UInt32.toNat_inj.mp
  unfold gprPktGetPacketByteSize gprPktHeader
  rw [hlow]
  unfold gprGetBitmask gprSetBitmask
  simp only [UInt32.toNat_shiftRight, UInt32.toNat_and, UInt32.toNat_or, UInt32.toNat_shiftLeft,
    hshift, hfield]
  -- shift the masks along: the low byte drops out and the size field is the whole word
  rw [Nat.shiftRight_and_distrib, Nat.shiftRight_or_distrib, Nat.shiftRight_and_distrib, hmask,
    hlow', Nat.shiftLeft_shiftRight, Nat.zero_or, hkeep, hkeep]

lemma gprPacketSize_toNat {allocSize : UInt32} (h : 24 + allocSize.toNat < 0x1000000) :
    (gprPktHeaderByteSize + allocSize).toNat = 24 + allocSize.toNat := by
  unfold gprPktHeaderByteSize
  rw [UInt32.toNat_add]
  apply Nat.mod_eq_of_lt
  have hsmall : (24 : UInt32).toNat = 24 := rfl
  omega

/-! ## The dynamic loop -/

namespace GprCtxt

variable {ctx : GprCtxt} {packetSize heapIndex : UInt32} {mallocs : ℕ → GprMallocOutcome}
  {packet : Option GprPacket} {charged : List GprPool}

/-- The loop passes over pools that do not fit. -/
lemma allocDynamic_append {before : List ℕ}
    (h : ∀ i ∈ before, ctx.dynFits packetSize heapIndex i = false) (idxs : List ℕ) :
    allocDynamic packetSize heapIndex mallocs (before ++ idxs) (packet, charged, ctx) =
      allocDynamic packetSize heapIndex mallocs idxs (packet, charged, ctx) := by
  induction before with
  | nil => rfl
  | cons i before ih =>
    rw [cons_append, allocDynamic, h i mem_cons_self]
    exact ih fun j hj => h j (mem_cons_of_mem i hj)

lemma allocDynamic_of_forall_not_fits {idxs : List ℕ}
    (h : ∀ i ∈ idxs, ctx.dynFits packetSize heapIndex i = false) :
    allocDynamic packetSize heapIndex mallocs idxs (packet, charged, ctx) =
      (packet, charged, ctx) := by
  rw [← append_nil idxs, allocDynamic_append h]
  rfl

/-- The state after a heap packet was allocated and one dynamic pool charged for it. -/
def withDynamicPacket (ctx : GprCtxt) (i : ℕ) (size : UInt32) : GprCtxt :=
  (ctx.gprAllocateDynamicPacket none size .ok).2.setCurr i ((ctx.dynPoolArr i).currNumPackets + 1)

variable {i u : ℕ} {allocSize : UInt32} {l : GprLivePacket}

lemma dynFits_withDynamicPacket {j : ℕ} (hij : j ≠ i) (size : UInt32) :
    (ctx.withDynamicPacket i size).dynFits packetSize heapIndex j =
      ctx.dynFits packetSize heapIndex j := by
  unfold dynFits withDynamicPacket setCurr gprAllocateDynamicPacket
  simp [update_of_ne hij]

section

variable {n : ℕ} (hfirst : (range n).find? (ctx.dynFits packetSize heapIndex) = some i)
include hfirst

/-- The loop when its first fitting pool is the only one: one packet, one charge. -/
lemma allocDynamic_of_unique (hunique : ∀ j < n, ctx.dynFits packetSize heapIndex j = true → j = i)
    (hok : mallocs i = .ok) :
    allocDynamic packetSize heapIndex mallocs (range n) (none, [], ctx) =
      (some (.dyn ctx.nextAddress), [.dyn i], ctx.withDynamicPacket i packetSize) := by
  obtain ⟨hfits, before, after, hrange, hbefore⟩ := find?_eq_some_iff_append.mp hfirst
  have hafter : ∀ j ∈ after, j ≠ i ∧ ctx.dynFits packetSize heapIndex j = false := by
    intro j hj
    have hnodup : (before ++ i :: after).Nodup := hrange ▸ nodup_range
    have hne : j ≠ i := by
      intro hji
      have hcons := (nodup_cons.mp hnodup.of_append_right).1
      exact hcons (hji ▸ hj)
    have hlt : j < n := by
      have hmem : j ∈ range n := by
        rw [hrange]
        exact mem_append_right _ (mem_cons_of_mem i hj)
      exact mem_range.mp hmem
    refine ⟨hne, ?_⟩
    cases hj' : ctx.dynFits packetSize heapIndex j with
    | false => rfl
    | true => exact absurd (hunique j hlt hj') hne
  rw [hrange, allocDynamic_append (by simpa using hbefore), allocDynamic, hfits, hok]
  refine allocDynamic_of_forall_not_fits fun j hj => ?_
  exact (dynFits_withDynamicPacket (hafter j hj).1 packetSize).trans (hafter j hj).2

lemma allocDynamic_of_first_fails (hfail : mallocs i ≠ .ok) :
    allocDynamic packetSize heapIndex mallocs (range n) (none, [], ctx) = (none, [], ctx) := by
  obtain ⟨hfits, before, after, hrange, hbefore⟩ := find?_eq_some_iff_append.mp hfirst
  rw [hrange, allocDynamic_append (by simpa using hbefore), allocDynamic, hfits]
  cases hmalloc : mallocs i with
  | ok => exact absurd hmalloc hfail
  | nodeFails | packetFails => rfl

end

/-- What a request that meets its condition ends with: no packet and no change, a unit of a
static pool, or a heap packet charged to one dynamic pool. -/
lemma gprCmdAllocV2_cases (hcond : ctx.AllocCond allocSize heapIndex mallocs) :
    ctx.gprCmdAllocV2 allocSize heapIndex mallocs = (.enoresource, none, ctx) ∨
    (24 + allocSize.toNat < 0x1000000 ∧ ∃ packet charged ctx',
      ctx.gprCmdAllocV2 allocSize heapIndex mallocs = (.eok, some packet,
          { ctx' with
            header := update ctx'.header packet (gprPktHeader (gprPktHeaderByteSize + allocSize))
            live := ctx'.live ++ [⟨packet, charged, allocSize, heapIndex⟩] }) ∧
      ((∃ i u rest, i < ctx.numStaticPacketPools ∧
          ctx.staticFits (gprPktHeaderByteSize + allocSize) heapIndex i = true ∧
          (ctx.staticPoolArr i).freeQ = u :: rest ∧ packet = .unit i u ∧ charged = [.static i] ∧
          ctx' = ctx.setStatic i { ctx.staticPoolArr i with freeQ := rest }) ∨
        (∃ i, i < ctx.numDynPacketPools ∧
          ctx.dynFits (gprPktHeaderByteSize + allocSize) heapIndex i = true ∧
          packet = .dyn ctx.nextAddress ∧ charged = [.dyn i] ∧
          ctx' = ctx.withDynamicPacket i (gprPktHeaderByteSize + allocSize)))) := by
  unfold AllocCond at hcond
  set size := gprPktHeaderByteSize + allocSize with hsize
  by_cases hserves : ctx.StaticServes size heapIndex
  · right
    rw [if_pos hserves] at hcond
    refine ⟨hcond, ?_⟩
    obtain ⟨i, hlt, hfind, hfree⟩ := hserves
    obtain ⟨u, rest, hqueue⟩ := exists_cons_of_ne_nil hfree
    have halloc : ctx.allocStatic size heapIndex = (some (.unit i u), [.static i],
          ctx.setStatic i { ctx.staticPoolArr i with freeQ := rest }) := by
      unfold allocStatic
      rw [hfind]
      dsimp only
      unfold gprMemqAlloc
      rw [hqueue]
    refine ⟨_, _, _, ?_, Or.inl ⟨i, u, rest, hlt, find?_some hfind, hqueue, rfl, rfl, rfl⟩⟩
    unfold gprCmdAllocV2
    dsimp only
    rw [← hsize, halloc]
    rfl
  · rw [if_neg hserves] at hcond
    have halloc : (ctx.allocStatic size heapIndex).1 = none ∧
        (ctx.allocStatic size heapIndex).2.2 = ctx := by
      unfold allocStatic
      cases hfind : (range ctx.numStaticPacketPools).find? (ctx.staticFits size heapIndex) with
      | none => exact ⟨rfl, rfl⟩
      | some i =>
        have hempty : (ctx.staticPoolArr i).freeQ = [] := by
          by_contra hne
          have hlt := mem_range.mp (mem_of_find?_eq_some hfind)
          exact hserves ⟨i, hlt, hfind, hne⟩
        dsimp only
        unfold gprMemqAlloc
        rw [hempty]
        exact ⟨rfl, rfl⟩
    unfold gprCmdAllocV2
    dsimp only
    rw [← hsize, if_pos halloc.1, halloc.2]
    cases hfind : (range ctx.numDynPacketPools).find? (ctx.dynFits size heapIndex) with
    | none =>
      left
      rw [allocDynamic_of_forall_not_fits (by simpa using find?_eq_none.mp hfind)]
    | some i =>
      by_cases hok : mallocs i = .ok
      · right
        have hlt : i < ctx.numDynPacketPools := mem_range.mp (mem_of_find?_eq_some hfind)
        obtain ⟨hsmall, hunique⟩ := hcond i hlt hfind hok
        rw [allocDynamic_of_unique hfind hunique hok]
        exact ⟨hsmall, _, _, _, rfl, Or.inr ⟨i, hlt, find?_some hfind, rfl, rfl, rfl⟩⟩
      · left
        rw [allocDynamic_of_first_fails hfind hok]

/-! ## What is out -/

lemma mem_liveUnits : u ∈ ctx.liveUnits i ↔ ∃ l ∈ ctx.live, l.packet = .unit i u := by
  unfold liveUnits
  rw [mem_filterMap]
  refine exists_congr fun l => and_congr_right fun _ => ?_
  cases l.packet with
  | unit j v => simp [unitOf]
  | dyn a => simp [unitOf]

lemma mem_liveAddresses {a : ℕ} : a ∈ ctx.liveAddresses ↔ ∃ l ∈ ctx.live, l.packet = .dyn a := by
  unfold liveAddresses
  rw [mem_filterMap]
  refine exists_congr fun l => and_congr_right fun _ => ?_
  cases l.packet with
  | unit j v => simp [addressOf]
  | dyn b => simp [addressOf]

lemma nodup_liveAddresses (h : (ctx.live.map GprLivePacket.packet).Nodup) :
    ctx.liveAddresses.Nodup := by
  have hmap : ctx.liveAddresses = (ctx.live.map GprLivePacket.packet).filterMap addressOf := by
    rw [filterMap_map]
    rfl
  rw [hmap]
  refine h.filterMap ?_
  intro p q b hp hq
  cases p with
  | unit j v => simp [addressOf] at hp
  | dyn a =>
    cases q with
    | unit j v => simp [addressOf] at hq
    | dyn a' =>
      simp only [addressOf, Option.mem_some_iff] at hp hq
      rw [hp, hq]

/-- Two states with the same pools, but for free units and counters. -/
structure SameLayout (ctx ctx' : GprCtxt) : Prop where
  numStatic : ctx'.numStaticPacketPools = ctx.numStaticPacketPools
  numDyn : ctx'.numDynPacketPools = ctx.numDynPacketPools
  bufSize : ∀ pool, ctx'.poolBufSize pool = ctx.poolBufSize pool
  heapIndex : ∀ pool, ctx'.poolHeapIndex pool = ctx.poolHeapIndex pool
  unitBytes : ∀ i, (ctx'.staticPoolArr i).unitBytes = (ctx.staticPoolArr i).unitBytes
  totalUnits : ∀ i, (ctx'.staticPoolArr i).totalUnits = (ctx.staticPoolArr i).totalUnits
  maxNum : ∀ i, (ctx'.dynPoolArr i).maxNumPackets = (ctx.dynPoolArr i).maxNumPackets

/-- A packet stays right when the pools keep their layout, its header is not written and
its memory is not released. -/
lemma PacketRight.frame {ctx ctx' : GprCtxt} {l : GprLivePacket} (h : ctx.PacketRight l)
    (hlayout : SameLayout ctx ctx') (hheader : ctx'.header l.packet = ctx.header l.packet)
    (hlist : ∀ d ∈ ctx.dynamicPacketList, l.packet = .dyn d.address →
      d ∈ ctx'.dynamicPacketList) : ctx'.PacketRight l := by
  obtain ⟨pool, hcharged, hhas, hkind, hheap, hbuf⟩ := h.one_pool
  refine ⟨⟨pool, hcharged, ?_, hkind, ?_, ?_⟩, ?_, ?_⟩
  · cases pool with
    | static i => exact lt_of_lt_of_eq hhas hlayout.numStatic.symm
    | dyn i => exact lt_of_lt_of_eq hhas hlayout.numDyn.symm
  · rw [hlayout.heapIndex]
    exact hheap
  · rw [hlayout.bufSize]
    exact hbuf
  · have hmemory := h.memory
    cases hp : l.packet with
    | unit i u =>
      rw [hp] at hmemory
      exact le_of_le_of_eq hmemory (hlayout.unitBytes i).symm
    | dyn a =>
      rw [hp] at hmemory
      obtain ⟨d, hd, haddr, hbytes⟩ := hmemory
      exact ⟨d, hlist d hd (by rw [hp, haddr]), haddr, hbytes⟩
  · rw [hheader]
    exact h.header

lemma SameLayout.room {ctx ctx' : GprCtxt} (h : SameLayout ctx ctx')
    (hroom : ∀ i < ctx.numStaticPacketPools,
      (ctx.staticPoolArr i).bufSize.toNat ≤ (ctx.staticPoolArr i).unitBytes) :
    ∀ i < ctx'.numStaticPacketPools,
      (ctx'.staticPoolArr i).bufSize.toNat ≤ (ctx'.staticPoolArr i).unitBytes := by
  intro i hi
  have hbuf : (ctx'.staticPoolArr i).bufSize = (ctx.staticPoolArr i).bufSize :=
    h.bufSize (.static i)
  rw [h.unitBytes i, hbuf]
  exact hroom i (lt_of_lt_of_eq hi h.numStatic)

section

variable (ctx : GprCtxt)

lemma freeQ_setFreeQ (i j : ℕ) (queue : List ℕ) :
    ((ctx.setStatic i { ctx.staticPoolArr i with freeQ := queue }).staticPoolArr j).freeQ =
      if i = j then queue else (ctx.staticPoolArr j).freeQ := by
  by_cases hij : i = j
  · simp [setStatic, hij]
  · simp [setStatic, hij, update_of_ne (Ne.symm hij)]

lemma currNumPackets_setCurr (i j : ℕ) (curr : UInt32) :
    ((ctx.setCurr i curr).dynPoolArr j).currNumPackets =
      if i = j then curr else (ctx.dynPoolArr j).currNumPackets := by
  by_cases hij : i = j
  · simp [setCurr, hij]
  · simp [setCurr, hij, update_of_ne (Ne.symm hij)]

/-- Changing the free units of a pool keeps the layout. -/
lemma sameLayout_setFreeQ (i : ℕ) (queue : List ℕ) :
    SameLayout ctx (ctx.setStatic i { ctx.staticPoolArr i with freeQ := queue }) := by
  refine ⟨rfl, rfl, ?_, ?_, apply_update_eq GprStaticPool.unitBytes rfl,
    apply_update_eq GprStaticPool.totalUnits rfl, fun _ => rfl⟩
  · rintro (j | j)
    · exact apply_update_eq GprStaticPool.bufSize (by rfl) j
    · rfl
  · rintro (j | j)
    · exact apply_update_eq GprStaticPool.heapIndex (by rfl) j
    · rfl

/-- Changing the counter of a pool keeps the layout. -/
lemma sameLayout_setCurr (i : ℕ) (curr : UInt32) : SameLayout ctx (ctx.setCurr i curr) := by
  refine ⟨rfl, rfl, ?_, ?_, fun _ => rfl, fun _ => rfl,
    apply_update_eq GprDynPool.maxNumPackets rfl⟩
  · rintro (j | j)
    · rfl
    · exact apply_update_eq GprDynPool.bufSize (by rfl) j
  · rintro (j | j)
    · rfl
    · exact apply_update_eq GprDynPool.heapIndex (by rfl) j

end

/-! ## Allocation keeps the accounts right -/

/-- The state in which a packet was handed out: its header is written and it is out. -/
def handOut (ctx : GprCtxt) (l : GprLivePacket) : GprCtxt :=
  { ctx with
    header := update ctx.header l.packet (gprPktHeader (gprPktHeaderByteSize + l.allocSize))
    live := ctx.live ++ [l] }

lemma sameLayout_handOut (ctx : GprCtxt) (l : GprLivePacket) : SameLayout ctx (ctx.handOut l) :=
  ⟨rfl, rfl, fun pool => by cases pool <;> rfl, fun pool => by cases pool <;> rfl, fun _ => rfl,
    fun _ => rfl, fun _ => rfl⟩

lemma SameLayout.trans {ctx₁ ctx₂ ctx₃ : GprCtxt} (h : SameLayout ctx₁ ctx₂)
    (h' : SameLayout ctx₂ ctx₃) : SameLayout ctx₁ ctx₃ :=
  ⟨h'.numStatic.trans h.numStatic, h'.numDyn.trans h.numDyn,
    fun pool => (h'.bufSize pool).trans (h.bufSize pool),
    fun pool => (h'.heapIndex pool).trans (h.heapIndex pool),
    fun i => (h'.unitBytes i).trans (h.unitBytes i),
    fun i => (h'.totalUnits i).trans (h.totalUnits i), fun i => (h'.maxNum i).trans (h.maxNum i)⟩

lemma header_handOut (hsmall : 24 + l.allocSize.toNat < 0x1000000) :
    (gprPktGetPacketByteSize ((ctx.handOut l).header l.packet)).toNat = 24 + l.allocSize.toNat := by
  have hsize := gprPacketSize_toNat hsmall
  have hheader : (ctx.handOut l).header l.packet =
      gprPktHeader (gprPktHeaderByteSize + l.allocSize) := update_self _ _ _
  rw [hheader, gprPktGetPacketByteSize_header (by omega), hsize]

lemma PacketRight.handOut_of_ne {l' : GprLivePacket} (h : ctx.PacketRight l')
    (hne : l'.packet ≠ l.packet) : (ctx.handOut l).PacketRight l' :=
  h.frame (sameLayout_handOut ctx l) (update_of_ne hne _ _) fun _ hd _ => hd

lemma nodup_handOut (hdistinct : (ctx.live.map GprLivePacket.packet).Nodup)
    (hnew : ∀ l' ∈ ctx.live, l'.packet ≠ l.packet) :
    ((ctx.handOut l).live.map GprLivePacket.packet).Nodup := by
  have hmap : (ctx.handOut l).live.map GprLivePacket.packet =
      ctx.live.map GprLivePacket.packet ++ [l.packet] := map_append
  rw [hmap, nodup_append]
  refine ⟨hdistinct, nodup_singleton _, ?_⟩
  intro p hp q hq
  obtain ⟨l', hl', rfl⟩ := mem_map.mp hp
  rw [mem_singleton.mp hq]
  exact hnew l' hl'

section

variable (h : ctx.Accounted)
include h

lemma Accounted.not_live_of_free (hi : i < ctx.numStaticPacketPools)
    (hu : u ∈ (ctx.staticPoolArr i).freeQ) : ∀ l ∈ ctx.live, l.packet ≠ .unit i u := by
  intro l hl hp
  have hnodup := (h.units i hi).nodup_iff.mpr nodup_range
  exact disjoint_of_nodup_append hnodup hu (mem_liveUnits.mpr ⟨l, hl, hp⟩)

lemma Accounted.not_live_nextAddress : ∀ l ∈ ctx.live, l.packet ≠ .dyn ctx.nextAddress := by
  intro l hl hp
  have hmem : ctx.nextAddress ∈ ctx.liveAddresses := mem_liveAddresses.mpr ⟨l, hl, hp⟩
  obtain ⟨d, hd, haddr⟩ := mem_map.mp (h.heap.mem_iff.mpr hmem)
  have hlt := h.fresh d hd
  omega

/-- Handing out a free unit of a static pool. -/
lemma Accounted.handOut_unit {rest : List ℕ} (hi : i < ctx.numStaticPacketPools)
    (hqueue : (ctx.staticPoolArr i).freeQ = u :: rest) (hsmall : 24 + allocSize.toNat < 0x1000000)
    (hfits : ctx.staticFits (gprPktHeaderByteSize + allocSize) heapIndex i = true) :
    ((ctx.setStatic i { ctx.staticPoolArr i with freeQ := rest }).handOut
      ⟨.unit i u, [.static i], allocSize, heapIndex⟩).Accounted := by
  set l : GprLivePacket := ⟨.unit i u, [.static i], allocSize, heapIndex⟩ with hl
  set ctx' := ctx.setStatic i { ctx.staticPoolArr i with freeQ := rest } with hctx'
  have hlayout : SameLayout ctx ctx' := sameLayout_setFreeQ ctx i rest
  have hnew : ∀ l' ∈ ctx.live, l'.packet ≠ l.packet :=
    h.not_live_of_free hi (by rw [hqueue]; exact mem_cons_self)
  unfold staticFits at hfits
  rw [Bool.and_eq_true, decide_eq_true_eq, UInt32.le_iff_toNat_le, gprPacketSize_toNat hsmall,
    beq_iff_eq] at hfits
  have hlayout' := hlayout.trans (sameLayout_handOut ctx' l)
  refine ⟨?_, ?_, ?_, ?_, ?_, ?_, h.fresh, ?_⟩
  · intro l' hl'
    rcases mem_append.mp hl' with hold | hlast
    · have hright : ctx'.PacketRight l' := (h.packets l' hold).frame hlayout rfl fun _ hd _ => hd
      exact hright.handOut_of_ne (hnew l' hold)
    · obtain rfl := mem_singleton.mp hlast
      refine ⟨⟨.static i, rfl, hi, rfl, ?_, ?_⟩, ?_, header_handOut hsmall⟩
      · rw [hlayout'.heapIndex]
        exact hfits.2.symm
      · rw [hlayout'.bufSize]
        exact hfits.1
      · change 24 + allocSize.toNat ≤ (ctx'.staticPoolArr i).unitBytes
        rw [hlayout.unitBytes]
        exact hfits.1.trans (h.room i hi)
  · exact nodup_handOut h.distinct hnew
  · intro j hj
    have hcount : (ctx'.handOut l).chargedTo j = ctx.chargedTo j := by
      unfold chargedTo handOut
      simp [hl, hctx', setStatic]
    rw [hcount]
    exact h.curr j hj
  · intro j hj
    exact h.limit j hj
  · intro j hj
    have hunits : (ctx'.handOut l).liveUnits j = ctx.liveUnits j ++ (if i = j then [u] else []) := by
      unfold liveUnits handOut
      by_cases hij : i = j <;> simp [hl, hctx', setStatic, unitOf, hij]
    have hold := h.units j hj
    have hfree : ((ctx'.handOut l).staticPoolArr j).freeQ =
        if i = j then rest else (ctx.staticPoolArr j).freeQ := freeQ_setFreeQ ctx i j rest
    rw [hunits, hfree, hlayout'.totalUnits j]
    by_cases hij : i = j
    · subst hij
      rw [hqueue] at hold
      rw [if_pos rfl, if_pos rfl, ← append_assoc]
      exact (perm_append_singleton u _).trans hold
    · rw [if_neg hij, if_neg hij, append_nil]
      exact hold
  · have haddrs : (ctx'.handOut l).liveAddresses = ctx.liveAddresses := by
      unfold liveAddresses handOut
      simp [hl, hctx', setStatic, addressOf]
    rw [haddrs]
    exact h.heap
  · exact hlayout'.room h.room

/-- Handing out a heap packet charged to one dynamic pool. -/
lemma Accounted.handOut_dyn (hi : i < ctx.numDynPacketPools)
    (hsmall : 24 + allocSize.toNat < 0x1000000)
    (hfits : ctx.dynFits (gprPktHeaderByteSize + allocSize) heapIndex i = true) :
    ((ctx.withDynamicPacket i (gprPktHeaderByteSize + allocSize)).handOut
      ⟨.dyn ctx.nextAddress, [.dyn i], allocSize, heapIndex⟩).Accounted := by
  set l : GprLivePacket := ⟨.dyn ctx.nextAddress, [.dyn i], allocSize, heapIndex⟩ with hl
  set size := gprPktHeaderByteSize + allocSize with hsize
  set ctx' := ctx.withDynamicPacket i size with hctx'
  have hlayout : SameLayout ctx ctx' := by
    have hset := sameLayout_setCurr (ctx.gprAllocateDynamicPacket none size .ok).2 i
      ((ctx.dynPoolArr i).currNumPackets + 1)
    exact { hset with }
  have hlayout' := hlayout.trans (sameLayout_handOut ctx' l)
  have hnew : ∀ l' ∈ ctx.live, l'.packet ≠ l.packet := h.not_live_nextAddress
  unfold dynFits at hfits
  rw [Bool.and_eq_true, Bool.and_eq_true, decide_eq_true_eq, decide_eq_true_eq,
    UInt32.le_iff_toNat_le, UInt32.lt_iff_toNat_lt, hsize, gprPacketSize_toNat hsmall,
    beq_iff_eq] at hfits
  obtain ⟨⟨hbuf, hquota⟩, hheap⟩ := hfits
  have hlt := (ctx.dynPoolArr i).maxNumPackets.toNat_lt
  have hcurr : ∀ j, ((ctx'.handOut l).dynPoolArr j).currNumPackets.toNat =
      (ctx.dynPoolArr j).currNumPackets.toNat + (if i = j then 1 else 0) := by
    intro j
    have hset : ((ctx'.handOut l).dynPoolArr j).currNumPackets =
        if i = j then (ctx.dynPoolArr i).currNumPackets + 1
          else (ctx.dynPoolArr j).currNumPackets := currNumPackets_setCurr _ i j _
    rw [hset]
    by_cases hij : i = j
    · subst hij
      rw [if_pos rfl, if_pos rfl, UInt32.toNat_add]
      apply Nat.mod_eq_of_lt
      have hone : (1 : UInt32).toNat = 1 := rfl
      omega
    · rw [if_neg hij, if_neg hij, Nat.add_zero]
  have hlist : (ctx'.handOut l).dynamicPacketList =
      ctx.dynamicPacketList ++ [⟨ctx.nextAddress, size.toNat⟩] := rfl
  refine ⟨?_, nodup_handOut h.distinct hnew, ?_, ?_, ?_, ?_, ?_, ?_⟩
  · intro l' hl'
    rcases mem_append.mp hl' with hold | hlast
    · have hright : ctx'.PacketRight l' :=
        (h.packets l' hold).frame hlayout rfl fun d hd _ => mem_append_left _ hd
      exact hright.handOut_of_ne (hnew l' hold)
    · obtain rfl := mem_singleton.mp hlast
      refine ⟨⟨.dyn i, rfl, hi, ⟨i, rfl⟩, ?_, ?_⟩, ?_, header_handOut hsmall⟩
      · rw [hlayout'.heapIndex]
        exact hheap.symm
      · rw [hlayout'.bufSize]
        exact hbuf
      · refine ⟨⟨ctx.nextAddress, size.toNat⟩, mem_append_right _ mem_cons_self, rfl, ?_⟩
        rw [hsize, gprPacketSize_toNat hsmall]
  · intro j hj
    have hcount : (ctx'.handOut l).chargedTo j = ctx.chargedTo j + (if i = j then 1 else 0) := by
      unfold chargedTo handOut
      by_cases hij : i = j
      · simp [hl, hctx', withDynamicPacket, setCurr, gprAllocateDynamicPacket, hij]
      · simp [hl, hctx', withDynamicPacket, setCurr, gprAllocateDynamicPacket, hij, Ne.symm hij]
    rw [hcurr, hcount, h.curr j hj]
  · intro j hj
    rw [hcurr, hlayout'.maxNum]
    by_cases hij : i = j
    · subst hij
      rw [if_pos rfl]
      omega
    · rw [if_neg hij]
      exact h.limit j hj
  · intro j hj
    have hunits : (ctx'.handOut l).liveUnits j = ctx.liveUnits j := by
      unfold liveUnits handOut
      simp [hl, hctx', withDynamicPacket, setCurr, gprAllocateDynamicPacket, unitOf]
    rw [hunits]
    exact h.units j hj
  · have haddrs : (ctx'.handOut l).liveAddresses = ctx.liveAddresses ++ [ctx.nextAddress] := by
      unfold liveAddresses handOut
      simp [hl, hctx', withDynamicPacket, setCurr, gprAllocateDynamicPacket, addressOf]
    rw [haddrs, hlist, map_append]
    exact h.heap.append_right _
  · intro d hd
    change d.address < ctx.nextAddress + 1
    rcases mem_append.mp hd with hold | hlast
    · have := h.fresh d hold
      omega
    · rw [mem_singleton.mp hlast]
      exact Nat.lt_succ_self _
  · intro j hj
    exact h.room j hj

/-- **Allocation.** A request that meets its condition keeps the accounts right; if it
fails, nothing changes, and if it succeeds, the returned packet is the one packet more. -/
lemma Accounted.alloc (hcond : ctx.AllocCond allocSize heapIndex mallocs) :
    (ctx.gprCmdAllocV2 allocSize heapIndex mallocs = (.enoresource, none, ctx)) ∨
    ∃ l ctx', ctx.gprCmdAllocV2 allocSize heapIndex mallocs = (.eok, some l.packet, ctx') ∧
      ctx'.Accounted ∧ ctx'.live = ctx.live ++ [l] ∧ ctx'.returned = ctx.returned ∧
      ∀ l' ∈ ctx.live, l'.packet ≠ l.packet := by
  rcases gprCmdAllocV2_cases hcond with hfail |
    ⟨hsmall, packet, charged, ctx', hcall, ⟨i, u, rest, hi, hfits, hqueue, rfl, rfl, rfl⟩ |
      ⟨i, hi, hfits, rfl, rfl, rfl⟩⟩
  · exact Or.inl hfail
  · have hacc := h.handOut_unit hi hqueue hsmall hfits
    refine Or.inr ⟨⟨.unit i u, [.static i], allocSize, heapIndex⟩, _, hcall, hacc, rfl, rfl, ?_⟩
    exact h.not_live_of_free hi (by rw [hqueue]; exact mem_cons_self)
  · have hacc := h.handOut_dyn hi hsmall hfits
    exact Or.inr ⟨⟨.dyn ctx.nextAddress, [.dyn i], allocSize, heapIndex⟩, _, hcall, hacc, rfl, rfl,
      h.not_live_nextAddress⟩

end

/-! ## Release keeps the accounts right -/

/-- The state in which a packet is no longer out. -/
def takeBack (ctx : GprCtxt) (packet : GprPacket) : GprCtxt :=
  { ctx with
    live := ctx.live.filter (fun l => l.packet ≠ packet)
    returned := ctx.returned ++ [packet] }

lemma sameLayout_takeBack (ctx : GprCtxt) (packet : GprPacket) :
    SameLayout ctx (ctx.takeBack packet) :=
  ⟨rfl, rfl, fun pool => by cases pool <;> rfl, fun pool => by cases pool <;> rfl, fun _ => rfl,
    fun _ => rfl, fun _ => rfl⟩

lemma PacketRight.takeBack (h : ctx.PacketRight l) (packet : GprPacket) :
    (ctx.takeBack packet).PacketRight l :=
  h.frame (sameLayout_takeBack ctx packet) rfl fun _ hd _ => hd

section

variable (h : ctx.Accounted) (hl : l ∈ ctx.live)
include h hl

lemma Accounted.live_perm : ctx.live.Perm (l :: (ctx.takeBack l.packet).live) :=
  perm_cons_filter_ne hl h.distinct

/-- Taking a unit back. -/
lemma Accounted.free_unit (hp : l.packet = .unit i u) :
    (ctx.gprCmdFree (.unit i u)).1 = .eok ∧ (ctx.gprCmdFree (.unit i u)).2.Accounted ∧
      (ctx.gprCmdFree (.unit i u)).2.live = (ctx.takeBack (.unit i u)).live ∧
      (ctx.gprCmdFree (.unit i u)).2.returned = (ctx.takeBack (.unit i u)).returned := by
  obtain ⟨pool, hcharged, hhas, hkind, -, hbuf⟩ := (h.packets l hl).one_pool
  have hheader := (h.packets l hl).header
  rw [hp] at hkind hheader
  obtain rfl : pool = .static i := hkind
  have hsize : gprPktGetPacketByteSize (ctx.header (.unit i u)) ≤ (ctx.staticPoolArr i).bufSize := by
    rw [UInt32.le_iff_toNat_le, hheader]
    exact hbuf
  have hlive := h.live_perm hl
  rw [hp] at hlive
  set ctx' := ctx.takeBack (.unit i u) with hctx'
  have hlayout : SameLayout ctx ctx' := sameLayout_takeBack ctx _
  -- the unit is out, so it is not free
  have hnotfree : u ∉ (ctx.staticPoolArr i).freeQ := by
    intro hu
    exact h.not_live_of_free hhas hu l hl hp
  have hcall : ctx.gprCmdFree (.unit i u) =
      (.eok, ctx'.setStatic i { ctx'.staticPoolArr i with
        freeQ := (ctx'.staticPoolArr i).freeQ ++ [u] }) := by
    unfold gprCmdFree
    dsimp only
    rw [if_pos hsize]
    unfold gprMemqFree
    rw [if_neg hnotfree]
    rfl
  have hlayout' := hlayout.trans (sameLayout_setFreeQ ctx' i ((ctx'.staticPoolArr i).freeQ ++ [u]))
  rw [hcall]
  refine ⟨rfl, ⟨?_, ?_, ?_, ?_, ?_, ?_, h.fresh, ?_⟩, rfl, rfl⟩
  · intro l' hl'
    have hright := (h.packets l' (mem_filter.mp hl').1).takeBack (.unit i u)
    exact hright.frame (sameLayout_setFreeQ _ _ _) rfl fun _ hd _ => hd
  · exact h.distinct.sublist (filter_sublist.map _)
  · intro j hj
    have hcount : ctx.chargedTo j = ctx'.chargedTo j := by
      have hperm := (hlive.filter (fun l => decide (GprPool.dyn j ∈ l.charged))).length_eq
      rw [filter_cons_of_neg (by simp [hcharged])] at hperm
      exact hperm
    exact (h.curr j hj).trans hcount
  · intro j hj
    exact h.limit j hj
  · intro j hj
    have hunits : (ctx.liveUnits j).Perm ((if i = j then [u] else []) ++ ctx'.liveUnits j) := by
      have hperm := hlive.filterMap fun l => unitOf j l.packet
      rw [filterMap_cons, hp] at hperm
      by_cases hij : i = j
      · simp only [unitOf, if_pos hij] at hperm
        rw [if_pos hij]
        exact hperm
      · simp only [unitOf, if_neg hij] at hperm
        rw [if_neg hij]
        exact hperm
    have hold := (hunits.append_left (ctx.staticPoolArr j).freeQ).symm.trans (h.units j hj)
    have hfree := freeQ_setFreeQ ctx' i j ((ctx'.staticPoolArr i).freeQ ++ [u])
    rw [hfree, hlayout'.totalUnits j]
    by_cases hij : i = j
    · subst hij
      rw [if_pos rfl] at hold ⊢
      rw [append_assoc]
      exact hold
    · rw [if_neg hij] at hold ⊢
      exact hold
  · have haddrs : ctx.liveAddresses.Perm ctx'.liveAddresses := by
      have hperm := hlive.filterMap fun l => addressOf l.packet
      rw [filterMap_cons, hp] at hperm
      exact hperm
    exact h.heap.trans haddrs
  · exact hlayout'.room h.room

/-- Taking a heap packet back, by the pool it was charged to. -/
lemma Accounted.free_dyn {a : ℕ} (hp : l.packet = .dyn a) (hcharged : l.charged = [.dyn i])
    (htakes : (range ctx.numDynPacketPools).find?
      (ctx.dynTakesBack (gprPktGetPacketByteSize (ctx.header (.dyn a)))) = some i)
    :
    (ctx.gprCmdFree (.dyn a)).1 = .eok ∧ (ctx.gprCmdFree (.dyn a)).2.Accounted ∧
      (ctx.gprCmdFree (.dyn a)).2.live = (ctx.takeBack (.dyn a)).live ∧
      (ctx.gprCmdFree (.dyn a)).2.returned = (ctx.takeBack (.dyn a)).returned := by
  have hlive := h.live_perm hl
  rw [hp] at hlive
  set ctx' := ctx.takeBack (.dyn a) with hctx'
  have hcurr : 0 < (ctx.dynPoolArr i).currNumPackets.toNat := by
    have hfound := find?_some htakes
    unfold dynTakesBack at hfound
    rw [Bool.and_eq_true, decide_eq_true_eq, decide_eq_true_eq] at hfound
    exact UInt32.lt_iff_toNat_lt.mp hfound.2
  -- the packet is on the list of dynamic packets
  have hany : (ctx.dynamicPacketList.any fun d => d.address == a) = true := by
    have hmem : a ∈ ctx.liveAddresses := mem_liveAddresses.mpr ⟨l, hl, hp⟩
    obtain ⟨d, hd, haddr⟩ := mem_map.mp (h.heap.mem_iff.mpr hmem)
    exact any_eq_true.mpr ⟨d, hd, by simp [haddr]⟩
  set next := { ctx' with
    dynamicPacketList := ctx.dynamicPacketList.filter (fun d => d.address ≠ a) }.setCurr i
      ((ctx.dynPoolArr i).currNumPackets - 1) with hnext
  have hcall : ctx.gprCmdFree (.dyn a) = (.eok, next) := by
    have hsame : (fun idx => ctx'.dynTakesBack (gprPktGetPacketByteSize (ctx.header (.dyn a))) idx &&
        ctx'.dynamicPacketList.any (·.address == a)) =
        ctx.dynTakesBack (gprPktGetPacketByteSize (ctx.header (.dyn a))) := by
      funext idx
      have hlist : (ctx'.dynamicPacketList.any fun d => d.address == a) = true := hany
      rw [hlist, Bool.and_true]
      rfl
    unfold gprCmdFree
    dsimp only
    have hfind : (range ctx.numDynPacketPools).find?
        (fun idx => ctx'.dynTakesBack (gprPktGetPacketByteSize (ctx.header (.dyn a))) idx &&
          ctx'.dynamicPacketList.any (·.address == a)) = some i := by
      rw [hsame, htakes]
    erw [hfind]
    rfl
  have hlayout : SameLayout ctx next := by
    have hset := sameLayout_setCurr { ctx' with
      dynamicPacketList := ctx.dynamicPacketList.filter (fun d => d.address ≠ a) } i
      ((ctx.dynPoolArr i).currNumPackets - 1)
    exact { hset with }
  have hcounts : ∀ j, (next.dynPoolArr j).currNumPackets.toNat + (if i = j then 1 else 0) =
      (ctx.dynPoolArr j).currNumPackets.toNat := by
    intro j
    rw [hnext, currNumPackets_setCurr]
    by_cases hij : i = j
    · subst hij
      have hpred : ((ctx.dynPoolArr i).currNumPackets - 1).toNat =
          (ctx.dynPoolArr i).currNumPackets.toNat - 1 := by
        rw [UInt32.toNat_sub_of_le]
        · rfl
        · exact UInt32.le_iff_toNat_le.mpr hcurr
      rw [if_pos rfl, if_pos rfl, hpred]
      omega
    · rw [if_neg hij, if_neg hij]
      rfl
  have hacc : next.Accounted := by
    refine ⟨?_, ?_, ?_, ?_, ?_, ?_, ?_, hlayout.room h.room⟩
    · intro l' hl'
      obtain ⟨hl', hne⟩ := mem_filter.mp hl'
      refine (h.packets l' hl').frame hlayout rfl ?_
      intro d hd hd'
      refine mem_filter.mpr ⟨hd, decide_eq_true ?_⟩
      intro haddr
      rw [hd', haddr] at hne
      simp at hne
    · exact h.distinct.sublist (filter_sublist.map _)
    · intro j hj
      have hcount : ctx.chargedTo j = next.chargedTo j + (if i = j then 1 else 0) := by
        have hperm := (hlive.filter (fun l => decide (GprPool.dyn j ∈ l.charged))).length_eq
        rw [filter_cons] at hperm
        by_cases hij : i = j
        · simp only [hcharged, hij, mem_singleton, decide_true, if_true, length_cons] at hperm
          rw [if_pos hij]
          exact hperm
        · have hnot : ¬ GprPool.dyn j ∈ [GprPool.dyn i] := by
            simpa using Ne.symm hij
          simp only [hcharged, hnot, decide_false, Bool.false_eq_true, if_false] at hperm
          rw [if_neg hij]
          exact hperm
      have hold := h.curr j hj
      have hnew := hcounts j
      omega
    · intro j hj
      have hold := h.limit j hj
      have hnew := hcounts j
      rw [hlayout.maxNum j]
      omega
    · intro j hj
      have hunits : (ctx.liveUnits j).Perm (next.liveUnits j) := by
        have hperm := hlive.filterMap fun l => unitOf j l.packet
        rw [filterMap_cons, hp] at hperm
        exact hperm
      exact (hunits.append_left _).symm.trans (h.units j hj)
    · have haddrs : ctx.liveAddresses.Perm (a :: next.liveAddresses) := by
        have hperm := hlive.filterMap fun l => addressOf l.packet
        rw [filterMap_cons, hp] at hperm
        exact hperm
      have hperm := @perm_filter_ne _ _ _ id _ _ _ _ haddrs h.heap.symm
        (by rw [map_id]; exact nodup_liveAddresses h.distinct)
      have hmap : next.dynamicPacketList.map GprDynamicPacket.address =
          (ctx.dynamicPacketList.map GprDynamicPacket.address).filter (fun b => id b ≠ id a) := by
        rw [filter_map]
        rfl
      rw [hmap]
      exact hperm.symm
    · intro d hd
      exact h.fresh d (mem_filter.mp hd).1
  rw [hcall]
  exact ⟨rfl, hacc, rfl, rfl⟩

end

/-- **Release.** Taking back a packet that meets its condition succeeds, keeps the accounts
right and leaves all other packets out. -/
lemma Accounted.free (h : ctx.Accounted) {packet : GprPacket} (hcond : ctx.FreeCond packet) :
    (ctx.gprCmdFree packet).1 = .eok ∧ (ctx.gprCmdFree packet).2.Accounted ∧
      (ctx.gprCmdFree packet).2.live = (ctx.takeBack packet).live ∧
      (ctx.gprCmdFree packet).2.returned = (ctx.takeBack packet).returned := by
  obtain ⟨l, hl, hp, hreleased⟩ := hcond
  cases packet with
  | unit i u => exact h.free_unit hl hp
  | dyn a =>
    obtain ⟨i, -, hcharged, htakes⟩ := hreleased (by rw [hp]; rfl)
    rw [hp] at htakes
    exact h.free_dyn hl hp hcharged htakes

/-! ## Ending a command -/

/-- **Ending a command.** On each of its paths the command packet is given back once and
the accounts stay right. -/
lemma Accounted.endCommand (h : ctx.Accounted) {packet : GprPacket} {opcode : UInt32}
    {sendRc : ArResult} (hcond : ctx.EndCond packet opcode mallocs sendRc) :
    (ctx.gprCmdEndCommand packet opcode mallocs sendRc).2.Accounted ∧
      (ctx.gprCmdEndCommand packet opcode mallocs sendRc).2.returned.count packet =
        ctx.returned.count packet + 1 := by
  obtain ⟨⟨l, hl, hp⟩, hcond⟩ := hcond
  unfold gprCmdEndCommand
  split at hcond
  · next hneeds =>
    rw [if_pos hneeds]
    obtain ⟨halloc, hcond⟩ := hcond
    rcases h.alloc halloc with hfail | ⟨response, ctx', hcall, hacc, -, hreturned, hnew⟩
    · -- no response: the command packet goes back
      rw [hfail] at hcond ⊢
      obtain ⟨-, hfree, -, hback⟩ := h.free hcond
      refine ⟨hfree, ?_⟩
      rw [hback]
      simp [takeBack]
    · rw [hcall] at hcond ⊢
      dsimp only at hcond ⊢
      split at hcond
      · next hsent =>
        rw [if_pos hsent]
        obtain ⟨-, hfree, -, hback⟩ := hacc.free hcond
        refine ⟨hfree, ?_⟩
        rw [hback]
        simp [takeBack, hreturned]
      · next hsent =>
        -- the response goes back first; it is another packet than the command
        rw [if_neg hsent]
        obtain ⟨-, hfree₁, -, hback₁⟩ := hacc.free hcond.1
        obtain ⟨-, hfree₂, -, hback₂⟩ := hfree₁.free hcond.2
        have hother : packet ≠ response.packet := hp ▸ hnew l hl
        refine ⟨hfree₂, ?_⟩
        rw [hback₂]
        simp [takeBack, hback₁, hreturned, count_append, Ne.symm hother]
  · next hneeds =>
    rw [if_neg hneeds]
    obtain ⟨-, hfree, -, hback⟩ := h.free hcond
    refine ⟨hfree, ?_⟩
    rw [hback]
    simp [takeBack]

/-! ## Runs -/

section

variable {call : GprPacketCall} (h : ctx.Accounted) (hcond : ctx.CallCond call)
include h hcond

lemma Accounted.step : (ctx.step call).Accounted := by
  cases call with
  | alloc allocSize heapIndex mallocs =>
    change (ctx.gprCmdAllocV2 allocSize heapIndex mallocs).2.2.Accounted
    rcases h.alloc hcond with hfail | ⟨l, ctx', hcall, hacc, -⟩
    · rw [hfail]
      exact h
    · rw [hcall]
      exact hacc
  | free packet => exact (h.free hcond).2.1
  | endCommand packet opcode mallocs sendRc => exact (h.endCommand hcond).1

lemma Accounted.callRight : ctx.CallRight call := by
  cases call with
  | alloc allocSize heapIndex mallocs =>
    rcases h.alloc hcond with hfail | ⟨l, ctx', hcall, -, hlive, -, hnew⟩
    · exact Or.inl hfail
    · exact Or.inr ⟨l, ctx', hcall, hlive, hnew⟩
  | free packet => exact (h.free hcond).1
  | endCommand packet opcode mallocs sendRc => exact (h.endCommand hcond).2

end

lemma Accounted.allBack (h : ctx.Accounted) (hlive : ctx.live = []) : ctx.AllBack := by
  constructor
  · intro i hi
    have hcurr := h.curr i hi
    unfold chargedTo at hcurr
    rw [hlive] at hcurr
    exact UInt32.toNat_inj.mp hcurr
  · intro i hi
    have hunits := h.units i hi
    unfold liveUnits at hunits
    rw [hlive, filterMap_nil, append_nil] at hunits
    exact hunits

end GprCtxt

/-- The pools start with right accounts if the unit sizes do not wrap around. -/
lemma accounted_of_init {entrySize : ℕ} {mallocOk : Bool} {receiveDone : ArResult}
    {pools : List GprPacketPoolInfo} {ctx : GprCtxt}
    (hinit : gprDrvInternalInitV2 entrySize mallocOk receiveDone pools = .ok ctx)
    (hunits : ∀ p ∈ pools, p.isDynamic = false →
      entrySize + p.packetSize.toNat + 4 < UInt32.size) : ctx.Accounted := by
  unfold gprDrvInternalInitV2 at hinit
  dsimp only at hinit
  split at hinit
  · cases hinit
  split at hinit
  · cases hinit
  split at hinit
  · cases hinit
  split at hinit
  · cases hinit
  injection hinit with hinit
  subst hinit
  have hdyn : ∀ i < (pools.filter (fun p => p.isDynamic)).length,
      (((pools.filter (fun p => p.isDynamic)).map GprPacketPoolInfo.dynPool).getD i
        default).currNumPackets = 0 := by
    intro i hi
    rw [getD_eq_getElem _ _ (by simpa using hi), getElem_map]
    rfl
  refine ⟨?_, nodup_nil, ?_, ?_, ?_, List.Perm.refl _, ?_, ?_⟩
  · intro l hl
    exact absurd hl not_mem_nil
  · intro i hi
    rw [hdyn i hi]
    rfl
  · intro i hi
    rw [hdyn i hi]
    exact Nat.zero_le _
  · intro i hi
    dsimp only
    rw [getD_eq_getElem _ _ (by simpa using hi), getElem_map]
    unfold GprCtxt.liveUnits
    rw [filterMap_nil, append_nil]
    exact List.Perm.refl _
  · intro d hd
    exact absurd hd not_mem_nil
  · intro i hi
    dsimp only
    rw [getD_eq_getElem _ _ (by simpa using hi), getElem_map]
    obtain ⟨hmem, hstatic⟩ := mem_filter.mp (getElem_mem hi)
    have hsize := hunits _ hmem (by simpa using hstatic)
    unfold GprPacketPoolInfo.staticPool
    dsimp only
    rw [UInt32.toNat_ofNat_of_lt' hsize]
    omega

/-- **Packet accounting.** For every configuration accepted by `gpr_drv_internal_init_v2`
whose static units do not wrap around, along every run of allocations, releases and ended
commands that meet their conditions: the accounts are right in every state, all pools are
as they were whenever all packets are back, and every call does what it promises. -/
theorem gpr_packets_accounted_along (entrySize : ℕ) (mallocOk : Bool) (receiveDone : ArResult)
    (pools : List GprPacketPoolInfo) (ctx : GprCtxt)
    (hinit : gprDrvInternalInitV2 entrySize mallocOk receiveDone pools = .ok ctx)
    (hunits : ∀ p ∈ pools, p.isDynamic = false → entrySize + p.packetSize.toNat + 4 < UInt32.size)
    (calls : List GprPacketCall) (hcalls : Meets GprCtxt.step GprCtxt.CallCond ctx calls) :
    Along GprCtxt.step (fun c => c.Accounted ∧ (c.live = [] → c.AllBack)) ctx calls ∧
      Meets GprCtxt.step GprCtxt.CallRight ctx calls := by
  have halong : Along GprCtxt.step GprCtxt.Accounted ctx calls := by
    apply along_of_meets _ (accounted_of_init hinit hunits) hcalls
    intro c call hacc hcond
    exact hacc.step hcond
  refine ⟨halong.mono fun c hacc => ⟨hacc, hacc.allBack⟩, ?_⟩
  apply meets_of_along _ halong hcalls
  intro c call hacc hcond
  exact hacc.callRight hcond

/-- A static pool with one packet of 32 bytes and a dynamic pool with packets of 64 bytes: the
unit is handed out, a heap packet after it, the heap packet ends a command whose response
cannot be sent, and the unit goes back. -/
theorem gpr_packets_accounted_along_response :
    ∃ ctx, gprDrvInternalInitV2 24 true .efailed [⟨false, 0, 1, 32⟩, ⟨true, 0, 4, 64⟩] = .ok ctx ∧
      Meets GprCtxt.step GprCtxt.CallRight ctx
        [.alloc 8 0 (fun _ => .ok), .alloc 8 0 (fun _ => .ok),
          .endCommand (.dyn 0) 0x01000000 (fun _ => .ok) .efailed, .free (.unit 0 0)] := by
  refine ⟨_, rfl, ?_⟩
  have h := gpr_packets_accounted_along 24 true .efailed [⟨false, 0, 1, 32⟩, ⟨true, 0, 4, 64⟩] _ rfl
    (by decide)
    [.alloc 8 0 (fun _ => .ok), .alloc 8 0 (fun _ => .ok),
      .endCommand (.dyn 0) 0x01000000 (fun _ => .ok) .efailed, .free (.unit 0 0)]
    (by decide +kernel)
  exact h.2

/-- The packet size wraps around: a request for `2 ^ 32 - 1` bytes is answered with a packet
of 23 bytes. -/
theorem gpr_packet_size_wraps : ¬ ∀ (entrySize : ℕ) (mallocOk : Bool) (receiveDone : ArResult)
        (pools : List GprPacketPoolInfo) (ctx : GprCtxt) (calls : List GprPacketCall),
      gprDrvInternalInitV2 entrySize mallocOk receiveDone pools = .ok ctx →
      Meets GprCtxt.step GprCtxt.OnLivePackets ctx calls →
      Along GprCtxt.step GprCtxt.Accounted ctx calls := by
  intro h
  have halong := h 24 true .efailed [⟨true, 0, 4, 64⟩] _ [.alloc 0xFFFFFFFF 0 (fun _ => .ok)] rfl
    ⟨trivial, trivial⟩
  have hpacket := halong.last.packets ⟨.dyn 0, [.dyn 0], 0xFFFFFFFF, 0⟩ (by decide +kernel)
  have hheader := hpacket.header
  revert hheader
  decide +kernel

end AudioReach
