import Mathlib.Algebra.Order.BigOperators.Group.List
import Mathlib.Algebra.Order.Ring.Nat
import AudioReach.Library.Runs
import AudioReach.TopoBuf.Calls

/-!
# Runs of the buffer manager

A run is any sequence of requests, returns and sweeps.  Next to the manager the run records
which buffers are out and what size each was asked for.

The size of a block is computed in 32 bits, and so is the count of the bytes that are
allocated.  A request whose size leaves no room for the element in front of the buffer gets a
block that is too small.  A run without such a request, in which all buffers together stay
below `2 ^ 32` bytes, keeps everything the manager promises.
-/

namespace AudioReach

open Library List

/-- The manager of a topology and the buffers that are out, with the sizes they were asked
for. -/
structure TopoBufRun where
  mgr : TopoBufMgr
  held : List (Addr × UInt32)

/-- A call of the manager. -/
inductive TopoBufCall
  /-- `topo_buf_manager_get_buf`, with the block the heap would give, the time and the vote. -/
  | getBuf (bufSize : UInt32) (malloc : Option Addr) (curTs : UInt64) (islandEntry : Bool)
  /-- `topo_buf_manager_return_buf`. -/
  | returnBuf (bufPtr : Addr)
  /-- `topo_buf_manager_destroy_all_unused_buffers`. -/
  | destroyAllUnusedBuffers (forceFree : Bool)

namespace TopoBufRun

/-- A manager that is just initialised, before any request. -/
def init (elems : Addr → TopoBufElement) (ts : UInt64) : TopoBufRun :=
  ⟨TopoBufMgr.init elems ts, []⟩

/-- The buffer that a request has returned is out. -/
def hand (s : TopoBufRun) (bufSize : UInt32) (out : ArResult × Option Addr × TopoBufMgr) :
    TopoBufRun where
  mgr := out.2.2
  held := s.held ++ out.2.1.toList.map fun buf => (buf, bufSize)

/-- A call; a loop that does not end leaves everything as it was. -/
def step (s : TopoBufRun) : TopoBufCall → TopoBufRun
  | .getBuf bufSize malloc curTs islandEntry =>
      ((s.mgr.getBuf bufSize malloc curTs islandEntry).map (s.hand bufSize)).getD s
  | .returnBuf bufPtr =>
      ((s.mgr.returnBuf bufPtr).map fun m =>
        ⟨m, s.held.eraseP fun buf => buf.1 = bufPtr⟩).getD s
  | .destroyAllUnusedBuffers forceFree =>
      ((s.mgr.destroyAllUnusedBuffers forceFree).map fun m => ⟨m, s.held⟩).getD s

/-- The elements of the buffers that are out. -/
def heldElems (s : TopoBufRun) : List Addr :=
  s.held.map fun buf => buf.1 - tbfBufPtrOffset

/-- The elements of the blocks that are not out. -/
def freeElems (s : TopoBufRun) : List Addr :=
  (s.mgr.heap.map Prod.fst).filter fun a => a ∉ s.heldElems

/-- No free buffer is large enough. -/
def NoneFits (s : TopoBufRun) (bufSize : UInt32) : Prop :=
  ∀ a ∈ s.freeElems, (s.mgr.elems a).size < bufSize

/-- The calls of a client: a request is for at least one byte, and the heap gives a new block
and fewer than 65536 of them; only a buffer that is out is returned. -/
def Admitted (s : TopoBufRun) : TopoBufCall → Prop
  | .getBuf bufSize none _ _ => 0 < bufSize
  | .getBuf bufSize (some ptr) _ _ =>
      0 < bufSize ∧ (s.NoneFits bufSize →
        ptr ∉ s.mgr.heap.map Prod.fst ∧ s.mgr.heap.length + 1 < 65536)
  | .returnBuf bufPtr => bufPtr ∈ s.held.map Prod.fst
  | .destroyAllUnusedBuffers _ => True

/-- The condition: when a block is allocated, the sum of the sizes of element and buffer fits
32 bits, and so does the sum of the sizes of all buffers. -/
def SizesFit (s : TopoBufRun) : TopoBufCall → Prop
  | .getBuf bufSize (some _) _ _ =>
      s.NoneFits bufSize → tbfBufPtrOffset + bufSize.toNat < 2 ^ 32 ∧
        (s.mgr.heap.map fun block => s.mgr.bufSize block.1).sum + bufSize.toNat < 2 ^ 32
  | _ => True

/-- What the manager promises in every state. -/
structure Kept (s : TopoBufRun) (free : List Addr) : Prop where
  /-- The free buffers form a doubly linked list between the two end pointers. -/
  list : IsLinkedList s.mgr.next s.mgr.prev s.mgr.headNodePtr s.mgr.lastNodePtr free
  sorted : free.Pairwise fun a b => s.mgr.bufSize a ≤ s.mgr.bufSize b
  disjoint : (s.heldElems ++ free).Nodup
  blocks : (s.mgr.heap.map Prod.fst).Perm (s.heldElems ++ free)
  /-- `total_num_bufs_allocated`. -/
  total : s.mgr.totalNumBufsAllocated.toNat = s.held.length + free.length
  /-- `num_used_buffers`. -/
  used : s.mgr.numUsedBuffers.toNat = s.held.length
  /-- `current_memory_allocated`. -/
  memory : s.mgr.currentMemoryAllocated.toNat = ((s.heldElems ++ free).map s.mgr.bufSize).sum
  /-- A buffer that is out has the bytes that were asked for, behind its element. -/
  usable : ∀ buf ∈ s.held, ∃ bytes, (buf.1 - tbfBufPtrOffset, bytes) ∈ s.mgr.heap ∧
    tbfBufPtrOffset + buf.2.toNat ≤ bytes

/-- What the manager promises of a call.  It returns.  A request takes the smallest free buffer
that is large enough, and allocates only if there is none. -/
def Served (s : TopoBufRun) : TopoBufCall → Prop
  | .getBuf bufSize malloc curTs islandEntry =>
      ∃ out, s.mgr.getBuf bufSize malloc curTs islandEntry = some out ∧
        (¬ s.NoneFits bufSize → out.1 = .eok ∧ out.2.2.heap ⊆ s.mgr.heap ∧
          ∃ a ∈ s.freeElems, out.2.1 = some (a + tbfBufPtrOffset) ∧ bufSize ≤ (s.mgr.elems a).size ∧
            ∀ b ∈ s.freeElems, bufSize ≤ (s.mgr.elems b).size →
              (s.mgr.elems a).size ≤ (s.mgr.elems b).size) ∧
        (s.NoneFits bufSize → (malloc = none → out = (.enomemory, none, s.mgr)) ∧
          ∀ ptr, malloc = some ptr → out.1 = .eok ∧ out.2.1 = some (ptr + tbfBufPtrOffset))
  | .returnBuf bufPtr => (s.mgr.returnBuf bufPtr).isSome
  | .destroyAllUnusedBuffers forceFree => (s.mgr.destroyAllUnusedBuffers forceFree).isSome

instance (s : TopoBufRun) (bufSize : UInt32) : Decidable (s.NoneFits bufSize) :=
  inferInstanceAs (Decidable (∀ a ∈ s.freeElems, (s.mgr.elems a).size < bufSize))

instance (s : TopoBufRun) : ∀ c, Decidable (s.Admitted c)
  | .getBuf bufSize none _ _ => inferInstanceAs (Decidable (0 < bufSize))
  | .getBuf bufSize (some ptr) _ _ =>
      inferInstanceAs (Decidable (0 < bufSize ∧ (s.NoneFits bufSize →
        ptr ∉ s.mgr.heap.map Prod.fst ∧ s.mgr.heap.length + 1 < 65536)))
  | .returnBuf bufPtr => inferInstanceAs (Decidable (bufPtr ∈ s.held.map Prod.fst))
  | .destroyAllUnusedBuffers _ => inferInstanceAs (Decidable True)

instance (s : TopoBufRun) : ∀ c, Decidable (s.SizesFit c)
  | .getBuf bufSize (some _) _ _ =>
      inferInstanceAs (Decidable (s.NoneFits bufSize → tbfBufPtrOffset + bufSize.toNat < 2 ^ 32 ∧
        (s.mgr.heap.map fun block => s.mgr.bufSize block.1).sum + bufSize.toNat < 2 ^ 32))
  | .getBuf _ none _ _ => inferInstanceAs (Decidable True)
  | .returnBuf _ => inferInstanceAs (Decidable True)
  | .destroyAllUnusedBuffers _ => inferInstanceAs (Decidable True)

/-! ## The invariant -/

/-- The invariant: the manager is tidy, all sizes fit 32 bits, and each buffer that is out is as
large as it was asked for. -/
structure Steady (s : TopoBufRun) (free : List Addr) : Prop where
  tidy : s.mgr.Tidy s.heldElems free
  offset : ∀ buf ∈ s.held, tbfBufPtrOffset ≤ buf.1
  room : s.heldElems.length + free.length < 2 ^ 16
  below : ((s.heldElems ++ free).map s.mgr.bufSize).sum < 2 ^ 32
  fits : ∀ a ∈ s.heldElems ++ free, tbfBufPtrOffset + s.mgr.bufSize a < 2 ^ 32
  asked : ∀ buf ∈ s.held, buf.2.toNat ≤ s.mgr.bufSize (buf.1 - tbfBufPtrOffset)

variable {s s' : TopoBufRun} {free free' : List Addr}

lemma mem_freeElems (h : s.mgr.Tidy s.heldElems free) {a : Addr} : a ∈ s.freeElems ↔ a ∈ free := by
  unfold freeElems
  rw [mem_filter, h.accounts.blocks.mem_iff, mem_append, decide_eq_true_eq]
  constructor
  · rintro ⟨hheld | hfree, hnot⟩
    · exact absurd hheld hnot
    · exact hfree
  · intro hfree
    refine ⟨Or.inr hfree, fun hheld => ?_⟩
    exact h.accounts.not_free hheld hfree

lemma noneFits_iff (h : s.mgr.Tidy s.heldElems free) (bufSize : UInt32) :
    s.NoneFits bufSize ↔ ∀ a ∈ free, (s.mgr.elems a).size < bufSize :=
  forall_congr' fun _ => imp_congr_left (mem_freeElems h)

section

variable {m : TopoBufMgr} {held : List Addr} (h : m.Accounted held free)
include h

lemma mem_heap_iff {a : Addr} {bytes : ℕ} : (a, bytes) ∈ m.heap ↔
      a ∈ held ++ free ∧ bytes = (tbfBufPtrOffset + m.bufSize a) % 2 ^ 32 := by
  constructor
  · intro hmem
    exact ⟨h.blocks.mem_iff.mp (mem_map_of_mem hmem), h.bytes _ hmem⟩
  · rintro ⟨hmem, rfl⟩
    obtain ⟨⟨b, bytes⟩, hblock, rfl⟩ := mem_map.mp (h.blocks.mem_iff.mpr hmem)
    have hbytes := h.bytes _ hblock
    rw [← hbytes]
    exact hblock

lemma sum_heap :
    (m.heap.map fun block => m.bufSize block.1).sum = ((held ++ free).map m.bufSize).sum := by
  rw [← (h.blocks.map m.bufSize).sum_eq, map_map]
  rfl

end

/-- The invariant gives what is promised. -/
lemma Steady.kept (h : s.Steady free) : s.Kept free where
  list := h.tidy.list
  sorted := h.tidy.accounts.sorted
  disjoint := h.tidy.accounts.nodup
  blocks := h.tidy.accounts.blocks
  total := by
    rw [h.tidy.accounts.total, Nat.mod_eq_of_lt h.room]
    unfold heldElems
    rw [length_map]
  used := by
    have hlt : s.heldElems.length < 2 ^ 16 := Nat.lt_of_le_of_lt (Nat.le_add_right _ _) h.room
    rw [h.tidy.accounts.used, Nat.mod_eq_of_lt hlt]
    unfold heldElems
    rw [length_map]
  memory := by
    rw [h.tidy.accounts.memory]
    exact Nat.mod_eq_of_lt h.below
  usable := by
    intro buf hbuf
    have hmem : buf.1 - tbfBufPtrOffset ∈ s.heldElems ++ free :=
      mem_append_left free (mem_map_of_mem hbuf)
    refine ⟨_, (mem_heap_iff h.tidy.accounts).mpr ⟨hmem, rfl⟩, ?_⟩
    rw [Nat.mod_eq_of_lt (h.fits _ hmem)]
    exact Nat.add_le_add_left (h.asked buf hbuf) _

lemma Steady.of_subperm (htidy : s.mgr.Tidy s.heldElems free) {all : List Addr}
    (hsub : (s.heldElems ++ free).Subperm all) (hroom : all.length < 65536)
    (hbelow : (all.map s.mgr.bufSize).sum < 2 ^ 32)
    (hfits : ∀ a ∈ all, tbfBufPtrOffset + s.mgr.bufSize a < 2 ^ 32)
    (hoffset : ∀ buf ∈ s.held, tbfBufPtrOffset ≤ buf.1)
    (hasked : ∀ buf ∈ s.held, buf.2.toNat ≤ s.mgr.bufSize (buf.1 - tbfBufPtrOffset)) :
    s.Steady free := by
  have hlength := hsub.length_le
  rw [length_append] at hlength
  refine ⟨htidy, hoffset, Nat.lt_of_le_of_lt hlength hroom, ?_,
    fun a ha => hfits a (hsub.subset ha), hasked⟩
  obtain ⟨l, hperm, hsublist⟩ := hsub
  have hle : (l.map s.mgr.bufSize).sum ≤ (all.map s.mgr.bufSize).sum :=
    (hsublist.map s.mgr.bufSize).sum_le_sum fun _ _ => Nat.zero_le _
  rw [(hperm.map s.mgr.bufSize).sum_eq] at hle
  exact Nat.lt_of_le_of_lt hle hbelow

/-! ## Requests -/

lemma heldElems_hand (s : TopoBufRun) (bufSize : UInt32) (result : ArResult) (a : Addr)
    (m : TopoBufMgr) : (s.hand bufSize (result, some (a + tbfBufPtrOffset), m)).heldElems =
      s.heldElems ++ [a] := by
  unfold heldElems hand
  simp

/-- A buffer that is handed out keeps the invariant if it is large enough and the sizes fit. -/
lemma Steady.hand (h : s.Steady free) {bufSize : UInt32} {a : Addr} {m : TopoBufMgr}
    {free' all : List Addr} (htidy : m.Tidy (s.heldElems ++ [a]) free')
    (hsub : (s.heldElems ++ [a] ++ free').Subperm all) (hroom : all.length < 65536)
    (hsize : ∀ b ∈ s.heldElems, m.bufSize b = s.mgr.bufSize b) (hlarge : bufSize.toNat ≤ m.bufSize a)
    (hbelow : (all.map m.bufSize).sum < 2 ^ 32)
    (hfits : ∀ b ∈ all, tbfBufPtrOffset + m.bufSize b < 2 ^ 32) :
    (s.hand bufSize (.eok, some (a + tbfBufPtrOffset), m)).Steady free' := by
  have helems := heldElems_hand s bufSize .eok a m
  refine Steady.of_subperm ?_ ?_ hroom hbelow hfits ?_ ?_
  · rw [helems]
    exact htidy
  · rw [helems]
    exact hsub
  · intro buf hbuf
    rcases mem_append.mp hbuf with hold | hnew
    · exact h.offset buf hold
    · rw [mem_singleton.mp hnew]
      exact Nat.le_add_left _ _
  · intro buf hbuf
    change buf.2.toNat ≤ m.bufSize _
    rcases mem_append.mp hbuf with hold | hnew
    · rw [hsize _ (mem_map_of_mem hold)]
      exact h.asked buf hold
    · rw [mem_singleton.mp hnew]
      exact hlarge

/-- **A request** keeps the invariant and is served. -/
lemma Steady.getBuf (h : s.Steady free) {bufSize : UInt32} {malloc : Option Addr}
    {curTs : UInt64} {islandEntry : Bool}
    (hadm : s.Admitted (.getBuf bufSize malloc curTs islandEntry))
    (hcond : s.SizesFit (.getBuf bufSize malloc curTs islandEntry)) :
    (∃ free', (s.step (.getBuf bufSize malloc curTs islandEntry)).Steady free') ∧
      s.Served (.getBuf bufSize malloc curTs islandEntry) := by
  have hnone := noneFits_iff h.tidy bufSize
  have hheap : s.mgr.heap.length = s.heldElems.length + free.length := by
    have hlen := h.tidy.accounts.blocks.length_eq
    rwa [length_map, length_append] at hlen
  have hmalloc : ∀ ptr, malloc = some ptr → (∀ a ∈ free, (s.mgr.elems a).size < bufSize) →
      ptr ∉ s.heldElems ++ free := by
    rintro ptr rfl hsmall hmem
    exact (hadm.2 (hnone.mpr hsmall)).1 (h.tidy.accounts.blocks.mem_iff.mpr hmem)
  obtain ⟨out, hcall, hgot⟩ := h.tidy.getBuf bufSize curTs islandEntry hmalloc
  have hstep : s.step (.getBuf bufSize malloc curTs islandEntry) = s.hand bufSize out := by
    unfold step
    dsimp only
    rw [hcall]
    rfl
  rw [hstep]
  cases hgot with
  | reused u t x m' free' hsplit hsmall hfit hswept htidy hsame =>
    subst hsplit
    have hsizes : m'.bufSize = s.mgr.bufSize := by
      rw [hsame.bufSize, TopoBufMgr.Accounted.bufSize_markUsed]
    have hsub : (s.heldElems ++ [x] ++ free').Subperm (s.heldElems ++ (u ++ x :: t)) := by
      have hperm : (s.heldElems ++ [x] ++ (u ++ t)).Perm (s.heldElems ++ (u ++ x :: t)) := by
        rw [append_assoc, singleton_append]
        exact perm_middle.symm.append_left _
      exact (hswept.sublist.append_left _).subperm.trans hperm.subperm
    have hx : x ∈ s.freeElems := (mem_freeElems h.tidy).mpr (by simp)
    constructor
    · refine ⟨free', h.hand htidy hsub ?_ (fun b _ => congrFun hsizes b) ?_ ?_ ?_⟩
      · rw [length_append]
        exact h.room
      · rw [hsizes]
        exact UInt32.le_iff_toNat_le.mp hfit
      · rw [hsizes]
        exact h.below
      · rw [hsizes]
        exact h.fits
    · refine ⟨_, hcall, fun _ => ⟨rfl, ?_, x, hx, rfl, hfit, ?_⟩, fun hno => ?_⟩
      · -- nothing is allocated
        rintro ⟨a, bytes⟩ hmem
        obtain ⟨ha, hbytes⟩ := (mem_heap_iff htidy.accounts).mp hmem
        rw [hsizes] at hbytes
        exact (mem_heap_iff h.tidy.accounts).mpr ⟨hsub.subset ha, hbytes⟩
      · intro b hb hfitb
        have hb' := (mem_freeElems h.tidy).mp hb
        rcases mem_append.mp hb' with hb' | hb'
        · exact absurd hfitb (UInt32.not_le.mpr (hsmall b hb'))
        · rcases mem_cons.mp hb' with rfl | hb'
          · exact UInt32.le_refl _
          · have hsorted := (pairwise_append.mp h.tidy.accounts.sorted).2.1
            exact UInt32.le_iff_toNat_le.mpr ((pairwise_cons.mp hsorted).1 b hb')
      · exact absurd (hno x hx) (UInt32.not_lt.mpr hfit)
  | allocated ptr m' free' hblock hsmall hswept htidy hsame =>
    subst hblock
    have hno := hnone.mpr hsmall
    obtain ⟨hroom, hsum⟩ := hcond hno
    have hnew := hmalloc ptr rfl hsmall
    have hsizes : m'.bufSize = Function.update s.mgr.bufSize ptr bufSize.toNat := by
      rw [hsame.bufSize, TopoBufMgr.Accounted.bufSize_allocateBuf]
    have hold : ∀ a ∈ s.heldElems ++ free, m'.bufSize a = s.mgr.bufSize a := by
      intro a ha
      rw [hsizes]
      exact Function.update_of_ne (ne_of_mem_of_not_mem ha hnew) _ _
    have hself : m'.bufSize ptr = bufSize.toNat := by
      rw [hsizes, Function.update_self]
    have hsub : (s.heldElems ++ [ptr] ++ free').Subperm (ptr :: (s.heldElems ++ free)) := by
      have hperm : (s.heldElems ++ [ptr] ++ free).Perm (ptr :: (s.heldElems ++ free)) := by
        rw [append_assoc]
        exact perm_middle
      exact (hswept.sublist.append_left _).subperm.trans hperm.subperm
    constructor
    · refine ⟨free', h.hand htidy hsub ?_ (fun b hb => hold b (mem_append_left _ hb)) hself.ge
        ?_ ?_⟩
      · have hlt := (hadm.2 hno).2
        rw [hheap] at hlt
        rw [length_cons, length_append]
        exact hlt
      · rw [sum_heap h.tidy.accounts] at hsum
        rw [map_cons, sum_cons, hself, map_congr_left hold]
        omega
      · intro b hb
        rcases mem_cons.mp hb with rfl | hb
        · rw [hself]
          exact hroom
        · rw [hold b hb]
          exact h.fits b hb
    · refine ⟨_, hcall, fun hfits => absurd hno hfits, fun _ => ⟨nofun, ?_⟩⟩
      rintro _ ⟨⟩
      exact ⟨rfl, rfl⟩
  | refused hblock hsmall =>
    subst hblock
    constructor
    · refine ⟨free, ?_⟩
      unfold TopoBufRun.hand
      simpa using h
    · refine ⟨_, hcall, fun hfits => absurd (hnone.mpr hsmall) hfits, fun _ => ⟨fun _ => rfl, ?_⟩⟩
      rintro _ ⟨⟩

/-! ## Returns and sweeps -/

/-- **A return** keeps the invariant and ends. -/
lemma Steady.returnBuf (h : s.Steady free) {bufPtr : Addr} (hadm : s.Admitted (.returnBuf bufPtr)) :
    (∃ free', (s.step (.returnBuf bufPtr)).Steady free') ∧ s.Served (.returnBuf bufPtr) := by
  obtain ⟨buf, hbuf, hptr⟩ := mem_map.mp hadm
  obtain ⟨c, before, behind, -, hcptr, hsplit, herase⟩ :=
    exists_of_eraseP (p := fun buf => decide (buf.1 = bufPtr)) hbuf (decide_eq_true hptr)
  have hc : c.1 = bufPtr := of_decide_eq_true hcptr
  have helems : s.heldElems = before.map (fun buf => buf.1 - tbfBufPtrOffset) ++
      (bufPtr - tbfBufPtrOffset) :: behind.map fun buf => buf.1 - tbfBufPtrOffset := by
    unfold heldElems
    rw [hsplit, map_append, map_cons, hc]
  have hoffset : tbfBufPtrOffset ≤ bufPtr := by
    rw [← hc]
    exact h.offset c (by rw [hsplit]; simp)
  have htidy := h.tidy
  rw [helems] at htidy
  obtain ⟨m', u, t, hcall, rfl, htidy', hsame⟩ := htidy.returnBuf
  rw [Nat.sub_add_cancel hoffset] at hcall
  constructor
  · have hstep : s.step (.returnBuf bufPtr) = ⟨m', before ++ behind⟩ := by
      unfold step
      dsimp only
      rw [hcall, Option.map_some, Option.getD_some, herase]
    rw [hstep]
    have hkept : ∀ buf ∈ before ++ behind, buf ∈ s.held := by
      intro buf hmem
      rw [hsplit]
      rcases mem_append.mp hmem with hmem | hmem
      · exact mem_append_left _ hmem
      · exact mem_append_right _ (mem_cons_of_mem _ hmem)
    have helems' : heldElems ⟨m', before ++ behind⟩ = before.map (fun buf => buf.1 - tbfBufPtrOffset) ++
        behind.map fun buf => buf.1 - tbfBufPtrOffset := by
      unfold heldElems
      rw [map_append]
    have hsub : (heldElems ⟨m', before ++ behind⟩ ++ (u ++ (bufPtr - tbfBufPtrOffset) :: t)).Subperm
        (s.heldElems ++ (u ++ t)) := by
      rw [helems', helems]
      exact (TopoBufMgr.Accounted.perm_putBack _ _ u t _).subperm
    refine ⟨_, Steady.of_subperm (by rw [helems']; exact htidy') hsub
      (by rw [length_append]; exact h.room) ?_ ?_ (fun buf hmem => h.offset buf (hkept buf hmem)) ?_⟩
    · rw [hsame.bufSize]
      exact h.below
    · rw [hsame.bufSize]
      exact h.fits
    · intro buf hmem
      rw [hsame.bufSize]
      exact h.asked buf (hkept buf hmem)
  · change (s.mgr.returnBuf bufPtr).isSome
    rw [hcall]
    rfl

/-- **A sweep** keeps the invariant and ends. -/
lemma Steady.destroyAllUnusedBuffers (h : s.Steady free) (forceFree : Bool) :
    (∃ free', (s.step (.destroyAllUnusedBuffers forceFree)).Steady free') ∧
      s.Served (.destroyAllUnusedBuffers forceFree) := by
  obtain ⟨m', free', hcall, hpre, htidy, hsame⟩ :=
    h.tidy.destroyLoop forceFree h.tidy.accounts.length_lt_listRounds
  have hcall' : s.mgr.destroyAllUnusedBuffers forceFree = some m' := hcall
  constructor
  · have hstep : s.step (.destroyAllUnusedBuffers forceFree) = ⟨m', s.held⟩ := by
      unfold step
      dsimp only
      rw [hcall']
      rfl
    rw [hstep]
    refine ⟨free', Steady.of_subperm htidy (List.Sublist.append_left hpre.sublist _).subperm
      (by rw [length_append]; exact h.room) ?_ ?_ h.offset ?_⟩
    · rw [hsame.bufSize]
      exact h.below
    · rw [hsame.bufSize]
      exact h.fits
    · intro buf hmem
      rw [hsame.bufSize]
      exact h.asked buf hmem
  · change (s.mgr.destroyAllUnusedBuffers forceFree).isSome
    rw [hcall']
    rfl

lemma Steady.step (h : s.Steady free) {call : TopoBufCall} (hadm : s.Admitted call)
    (hcond : s.SizesFit call) : (∃ free', (s.step call).Steady free') ∧ s.Served call := by
  cases call with
  | getBuf bufSize malloc curTs islandEntry => exact h.getBuf hadm hcond
  | returnBuf bufPtr => exact h.returnBuf hadm
  | destroyAllUnusedBuffers forceFree => exact h.destroyAllUnusedBuffers forceFree

lemma steady_init (elems : Addr → TopoBufElement) (ts : UInt64) : (init elems ts).Steady [] := by
  refine ⟨⟨IsLinkedList.nil, ?_⟩, ?_, Nat.two_pow_pos 16, Nat.two_pow_pos 32, ?_, ?_⟩
  · exact ⟨List.Pairwise.nil, List.Perm.refl _, nodup_nil, fun _ h => absurd h not_mem_nil,
      fun _ h => absurd h not_mem_nil, rfl, rfl, rfl, rfl⟩
  · exact fun _ h => absurd h not_mem_nil
  · exact fun _ h => absurd h not_mem_nil
  · exact fun _ h => absurd h not_mem_nil

/-! ## Whole runs -/

/-- **Every run.** As long as no sum of sizes leaves 32 bits, every state of a run keeps what
the manager promises, and every call is served. -/
theorem topoBuf_kept {elems : Addr → TopoBufElement} {ts : UInt64} {calls : List TopoBufCall}
    (hadm : Meets step Admitted (init elems ts) calls)
    (hcond : Meets step SizesFit (init elems ts) calls) :
    Along step (fun s => ∃ free, s.Kept free) (init elems ts) calls ∧
      Meets step Served (init elems ts) calls := by
  have hmeets : Meets step (fun s call => s.Admitted call ∧ s.SizesFit call) (init elems ts)
      calls := hadm.and hcond
  have halong : Along step (fun s => ∃ free, s.Steady free) (init elems ts) calls := by
    refine along_of_meets ?_ ⟨[], steady_init elems ts⟩ hmeets
    rintro s call ⟨free, h⟩ ⟨hadm, hcond⟩
    exact (h.step hadm hcond).1
  constructor
  · exact halong.mono fun s ⟨free, h⟩ => ⟨free, h.kept⟩
  · refine meets_of_along ?_ halong hmeets
    rintro s call ⟨free, h⟩ ⟨hadm, hcond⟩
    exact (h.step hadm hcond).2

/-- The memory of the elements before any of them is written. -/
def blankElems : Addr → TopoBufElement := fun a => ⟨a, none, none, 0, 0, 0⟩

/-- Two buffers come back, the larger one first.  A request for 25 bytes gets the one of 30, a
request for 40 bytes finds no memory, and a sweep frees the buffer of 20. -/
def twoBuffers : List TopoBufCall :=
  [.getBuf 20 (some 4096) 0 false, .getBuf 30 (some 8192) 0 false, .returnBuf 8224,
    .returnBuf 4128, .getBuf 25 (some 12288) 100000 false, .getBuf 40 none 200000 true,
    .destroyAllUnusedBuffers true]

theorem topoBuf_kept_twoBuffers : (Meets step Admitted (init blankElems 0) twoBuffers ∧
      Meets step SizesFit (init blankElems 0) twoBuffers) ∧
      Along step (fun s => ∃ free, s.Kept free) (init blankElems 0) twoBuffers ∧
        Meets step Served (init blankElems 0) twoBuffers :=
  ⟨by decide +kernel, topoBuf_kept (by decide +kernel) (by decide +kernel)⟩

/-- **The block is too small.** A request for `2 ^ 32 - 1` bytes gets a block of 31 bytes, which
does not even hold the element. -/
theorem not_topoBuf_kept :
    ¬ ∀ (elems : Addr → TopoBufElement) (ts : UInt64) (calls : List TopoBufCall),
      Meets step Admitted (init elems ts) calls →
        Along step (fun s => ∃ free, s.Kept free) (init elems ts) calls ∧
          Meets step Served (init elems ts) calls := by
  intro h
  obtain ⟨halong, -⟩ := h blankElems 0 [.getBuf 0xFFFFFFFF (some 4096) 0 false]
    ⟨by decide +kernel, trivial⟩
  obtain ⟨free, hkept⟩ := halong.last
  have hheld : (run step (init blankElems 0) [.getBuf 0xFFFFFFFF (some 4096) 0 false]).held =
      [(4128, 0xFFFFFFFF)] := by decide +kernel
  have hheap : (run step (init blankElems 0) [.getBuf 0xFFFFFFFF (some 4096) 0 false]).mgr.heap =
      [(4096, 31)] := by decide +kernel
  obtain ⟨bytes, hmem, hle⟩ := hkept.usable (4128, 0xFFFFFFFF) (by rw [hheld]; simp)
  rw [hheap, mem_singleton] at hmem
  have hbytes : bytes = 31 := congrArg Prod.snd hmem
  rw [hbytes] at hle
  exact absurd hle (by decide)

end TopoBufRun

end AudioReach
