import Mathlib.Algebra.BigOperators.Group.List.Basic
import AudioReach.TopoBuf.FreeList

/-!
# The accounts of the buffer manager

A buffer is either out or free.  `Accounted` says what the manager knows about the two kinds:
its counters, each modulo its width, the sizes and the blocks of the heap, and that the free
buffers are sorted.  It does not read the links.  `Tidy` adds the list of
the free buffers.

Each function of the manager is then described by what it does to the buffers that are out and
to those that are free.
-/

namespace AudioReach

open Function (update update_of_ne update_self)
open Library List

namespace TopoBufMgr

variable {m m' : TopoBufMgr} {held free s t : List Addr} {x : Addr}

lemma elems_modifyElem {β : Type*} (part : TopoBufElement → β) (m : TopoBufMgr) (node : Addr)
    {f : TopoBufElement → TopoBufElement} (h : ∀ e, part (f e) = part e) (a : Addr) :
    part ((m.modifyElem node f).elems a) = part (m.elems a) := by
  unfold modifyElem
  dsimp only
  by_cases ha : a = node
  · subst ha
    rw [update_self, h]
  · rw [update_of_ne ha]

/-- What the manager knows about the buffers that are out and those that are free. -/
structure Accounted (m : TopoBufMgr) (held free : List Addr) : Prop where
  sorted : free.Pairwise fun a b => m.bufSize a ≤ m.bufSize b
  blocks : (m.heap.map Prod.fst).Perm (held ++ free)
  nodup : (held ++ free).Nodup
  /-- Each list node is for the element it stands in. -/
  obj : ∀ a ∈ held ++ free, (m.elems a).objPtr = a
  /-- A block has room for the element and the buffer, if the 32-bit sum does not wrap. -/
  bytes : ∀ block ∈ m.heap, block.2 = (tbfBufPtrOffset + m.bufSize block.1) % 2 ^ 32
  total : m.totalNumBufsAllocated.toNat = (held.length + free.length) % 2 ^ 16
  /-- The number of buffers that are out, in 16 bits. -/
  used : m.numUsedBuffers.toNat = held.length % 2 ^ 16
  memory : m.currentMemoryAllocated.toNat = ((held ++ free).map m.bufSize).sum % 2 ^ 32
  static : m.optStaticBufAssignTempList = []

/-- The free buffers are linked and the accounts are right. -/
structure Tidy (m : TopoBufMgr) (held free : List Addr) : Prop where
  list : m.FreeList free
  accounts : m.Accounted held free

/-- What no function changes in an element that it does not create. -/
structure SameShape (m m' : TopoBufMgr) : Prop where
  objPtr : ∀ a, (m'.elems a).objPtr = (m.elems a).objPtr
  size : ∀ a, (m'.elems a).size = (m.elems a).size

/-- What a sweep of the unused buffers leaves alone. -/
structure SameBufs (m m' : TopoBufMgr) : Prop extends SameShape m m' where
  refCount : ∀ a, (m'.elems a).refCount = (m.elems a).refCount

lemma SameBufs.refl (m : TopoBufMgr) : SameBufs m m :=
  ⟨⟨fun _ => rfl, fun _ => rfl⟩, fun _ => rfl⟩

lemma SameBufs.trans {m'' : TopoBufMgr} (h : SameBufs m m') (h' : SameBufs m' m'') :
    SameBufs m m'' :=
  ⟨⟨fun a => (h'.objPtr a).trans (h.objPtr a), fun a => (h'.size a).trans (h.size a)⟩,
    fun a => (h'.refCount a).trans (h.refCount a)⟩

lemma SameBufs.of_unlinked (h : m'.unlinked = m.unlinked) : SameBufs m m' :=
  ⟨⟨fun a => congrArg (fun m => (m.elems a).objPtr) h,
    fun a => congrArg (fun m => (m.elems a).size) h⟩,
    fun a => congrArg (fun m => (m.elems a).refCount) h⟩

lemma SameShape.bufSize (h : SameShape m m') : m'.bufSize = m.bufSize :=
  funext fun a => congrArg UInt32.toNat (h.size a)

namespace Accounted

lemma not_held (h : m.Accounted held (s ++ x :: t)) : x ∉ held := by
  intro hx
  exact (nodup_append.mp h.nodup).2.2 x hx x (by simp) rfl

section

variable (h : m.Accounted held free)
include h

/-- The accounts read the objects and the sizes of the buffers, and the counters. -/
lemma congr (hsame : SameShape m m') (hheap : m'.heap = m.heap)
    (htotal : m'.totalNumBufsAllocated = m.totalNumBufsAllocated)
    (hused : m'.numUsedBuffers = m.numUsedBuffers)
    (hmemory : m'.currentMemoryAllocated = m.currentMemoryAllocated)
    (hstatic : m'.optStaticBufAssignTempList = m.optStaticBufAssignTempList) :
    m'.Accounted held free where
  sorted := by
    rw [hsame.bufSize]
    exact h.sorted
  blocks := by
    rw [hheap]
    exact h.blocks
  nodup := h.nodup
  obj := fun a ha => (hsame.objPtr a).trans (h.obj a ha)
  bytes := by
    rw [hheap, hsame.bufSize]
    exact h.bytes
  total := by
    rw [htotal]
    exact h.total
  used := by
    rw [hused]
    exact h.used
  memory := by
    rw [hmemory, hsame.bufSize]
    exact h.memory
  static := hstatic.trans h.static

lemma of_unlinked (hun : m'.unlinked = m.unlinked) : m'.Accounted held free :=
  h.congr (SameBufs.of_unlinked hun).toSameShape (congrArg TopoBufMgr.heap hun :)
    (congrArg TopoBufMgr.totalNumBufsAllocated hun :) (congrArg TopoBufMgr.numUsedBuffers hun :)
    (congrArg TopoBufMgr.currentMemoryAllocated hun :)
    (congrArg TopoBufMgr.optStaticBufAssignTempList hun :)

lemma length_lt_listRounds : free.length < m.listRounds := by
  have hlength := h.blocks.length_eq
  rw [length_map, length_append] at hlength
  unfold listRounds
  omega

lemma not_free (hx : x ∈ held) : x ∉ free := by
  intro hfree
  exact (nodup_append.mp h.nodup).2.2 x hx x hfree rfl

end

lemma bufSize_markUsed (m : TopoBufMgr) (node : Addr) : (m.markUsed node).bufSize = m.bufSize := by
  funext a
  refine congrArg UInt32.toNat ?_
  unfold markUsed
  dsimp only
  exact elems_modifyElem TopoBufElement.size m node (by intro _; rfl) a

lemma objPtr_markUsed (m : TopoBufMgr) (node a : Addr) :
    ((m.markUsed node).elems a).objPtr = (m.elems a).objPtr := by
  unfold markUsed
  dsimp only
  exact elems_modifyElem TopoBufElement.objPtr m node (by intro _; rfl) a

/-- A free buffer goes out. -/
lemma markUsed (h : m.Accounted held (s ++ x :: t)) :
    (m.markUsed x).Accounted (held ++ [x]) (s ++ t) := by
  have hperm : (held ++ [x] ++ (s ++ t)).Perm (held ++ (s ++ x :: t)) := by
    rw [append_assoc, singleton_append]
    exact perm_middle.symm.append_left held
  refine ⟨?_, ?_, ?_, ?_, ?_, ?_, ?_, ?_, h.static⟩
  · rw [bufSize_markUsed]
    exact h.sorted.sublist (by simp)
  · exact h.blocks.trans hperm.symm
  · exact hperm.nodup_iff.mpr h.nodup
  · intro a ha
    rw [objPtr_markUsed]
    exact h.obj a (hperm.mem_iff.mp ha)
  · rw [bufSize_markUsed]
    exact h.bytes
  · change m.totalNumBufsAllocated.toNat = _
    rw [h.total, ← length_append, ← length_append, hperm.length_eq]
  · change (m.numUsedBuffers + 1).toNat = _
    rw [UInt16.toNat_add, h.used, length_append]
    exact Nat.mod_add_mod _ _ _
  · rw [bufSize_markUsed, (hperm.map m.bufSize).sum_eq]
    exact h.memory

/-- The last free buffer goes. -/
lemma freed (h : m.Accounted held (s ++ [x])) : (m.freed x).Accounted held s := by
  have hsub : (held ++ s).Sublist (held ++ (s ++ [x])) := by simp
  have hperm : (held ++ (s ++ [x])).Perm (x :: (held ++ s)) := by
    rw [← append_assoc]
    exact perm_append_singleton x (held ++ s)
  have hmem : x ∈ m.heap.map Prod.fst := h.blocks.mem_iff.mpr (by simp)
  refine ⟨?_, ?_, ?_, ?_, ?_, ?_, h.used, ?_, h.static⟩
  · exact (pairwise_append.mp h.sorted).1
  · change ((m.heap.eraseP fun block => block.1 = x).map Prod.fst).Perm (held ++ s)
    have herase : (m.heap.eraseP fun block => block.1 = x).map Prod.fst =
        (m.heap.map Prod.fst).erase x := by
      rw [erase_eq_eraseP', eraseP_map]
      congr 2
    rw [herase]
    have hcons := (perm_cons_erase hmem).symm.trans (h.blocks.trans hperm)
    exact (perm_cons x).mp hcons
  · exact h.nodup.sublist hsub
  · exact fun a ha => h.obj a (hsub.subset ha)
  · exact fun block hblock => h.bytes block (eraseP_sublist.subset hblock)
  · have htotal := h.total
    simp only [length_append, length_cons, length_nil] at htotal
    change (m.totalNumBufsAllocated - 1).toNat = _
    rw [UInt16.toNat_sub, htotal]
    change (65536 - 1 + (held.length + (s.length + (0 + 1))) % 65536) % 65536 =
      (held.length + s.length) % 65536
    omega
  · have hmemory := h.memory
    rw [(hperm.map m.bufSize).sum_eq, map_cons, sum_cons] at hmemory
    have hlt : m.bufSize x < 2 ^ 32 := (m.elems x).size.toNat_lt
    change (m.currentMemoryAllocated - (m.elems x).size).toNat = _
    rw [UInt32.toNat_sub, hmemory]
    change (2 ^ 32 - m.bufSize x + (m.bufSize x + _) % 2 ^ 32) % 2 ^ 32 = _
    rw [Nat.add_mod_mod, ← Nat.add_assoc, Nat.sub_add_cancel (Nat.le_of_lt hlt), Nat.add_mod_left]
    rfl

lemma perm_putBack (before behind s t : List Addr) (x : Addr) :
    (before ++ behind ++ (s ++ x :: t)).Perm (before ++ x :: behind ++ (s ++ t)) := by
  have hout : (before ++ behind ++ (s ++ x :: t)).Perm (x :: (before ++ behind ++ (s ++ t))) :=
    (perm_middle.append_left _).trans perm_middle
  have hin : (x :: (before ++ behind)).Perm (before ++ x :: behind) := perm_middle.symm
  exact hout.trans (hin.append_right (s ++ t))

/-- A buffer comes back to its place in the order. -/
lemma putBack {before behind : List Addr} (h : m.Accounted (before ++ x :: behind) (s ++ t))
    (hs : ∀ a ∈ s, m.bufSize a ≤ m.bufSize x) (ht : ∀ a ∈ t, m.bufSize x ≤ m.bufSize a) :
    { m with numUsedBuffers := m.numUsedBuffers - 1 }.Accounted (before ++ behind)
      (s ++ x :: t) := by
  have hperm := perm_putBack before behind s t x
  obtain ⟨hss, hst, hcross⟩ := pairwise_append.mp h.sorted
  refine ⟨?_, h.blocks.trans hperm.symm, hperm.nodup_iff.mpr h.nodup, ?_, h.bytes, ?_, ?_, ?_,
    h.static⟩
  · refine pairwise_append.mpr ⟨hss, pairwise_cons.mpr ⟨ht, hst⟩, ?_⟩
    intro a ha b hb
    rcases mem_cons.mp hb with rfl | hb
    · exact hs a ha
    · exact hcross a ha b hb
  · exact fun a ha => h.obj a (hperm.mem_iff.mp ha)
  · rw [h.total, ← length_append, ← length_append, hperm.length_eq]
  · have hused := h.used
    simp only [length_append, length_cons] at hused ⊢
    rw [UInt16.toNat_sub, hused]
    change (65536 - 1 + (before.length + (behind.length + 1)) % 65536) % 65536 =
      (before.length + behind.length) % 65536
    omega
  · change m.currentMemoryAllocated.toNat = ((before ++ behind ++ (s ++ x :: t)).map m.bufSize).sum % _
    rw [(hperm.map m.bufSize).sum_eq]
    exact h.memory

lemma bufSize_allocateBuf (m : TopoBufMgr) (size : UInt32) (ptr : Addr) :
    (m.allocateBuf size (some ptr)).2.bufSize = update m.bufSize ptr size.toNat := by
  funext a
  unfold TopoBufMgr.bufSize allocateBuf
  by_cases ha : a = ptr
  · subst ha
    simp
  · simp [ha]

/-- A buffer is allocated and goes out. -/
lemma allocateBuf (h : m.Accounted held free) {size : UInt32} {ptr : Addr}
    (hnew : ptr ∉ held ++ free) :
    { (m.allocateBuf size (some ptr)).2 with
      numUsedBuffers := (m.allocateBuf size (some ptr)).2.numUsedBuffers + 1 }.Accounted
        (held ++ [ptr]) free := by
  have hsame : ∀ a ∈ held ++ free, update m.bufSize ptr size.toNat a = m.bufSize a :=
    fun a ha => update_of_ne (ne_of_mem_of_not_mem ha hnew) _ _
  have hperm : (held ++ [ptr] ++ free).Perm (ptr :: (held ++ free)) := by
    rw [append_assoc]
    exact perm_middle
  have hsizes : { (m.allocateBuf size (some ptr)).2 with
      numUsedBuffers := (m.allocateBuf size (some ptr)).2.numUsedBuffers + 1 }.bufSize =
        update m.bufSize ptr size.toNat := bufSize_allocateBuf m size ptr
  have hblock : ptr ∉ m.heap.map Prod.fst := fun hmem => hnew (h.blocks.mem_iff.mp hmem)
  refine ⟨?_, ?_, ?_, ?_, ?_, ?_, ?_, ?_, h.static⟩
  · rw [hsizes]
    refine h.sorted.imp_of_mem fun {a b} ha hb hle => ?_
    rw [hsame a (mem_append_right _ ha), hsame b (mem_append_right _ hb)]
    exact hle
  · change ((m.heap ++ [(ptr, _)]).map Prod.fst).Perm _
    rw [map_append]
    refine List.Perm.trans ?_ hperm.symm
    exact (perm_append_singleton ptr _).trans (h.blocks.cons ptr)
  · exact hperm.nodup_iff.mpr (nodup_cons.mpr ⟨hnew, h.nodup⟩)
  · intro a ha
    change (update m.elems ptr _ a).objPtr = a
    by_cases hp : a = ptr
    · subst hp
      rw [update_self]
    · rw [update_of_ne hp]
      exact h.obj a ((mem_cons.mp (hperm.mem_iff.mp ha)).resolve_left hp)
  · rw [hsizes]
    intro block hmem
    rcases mem_append.mp hmem with hold | hlast
    · have hne : block.1 ≠ ptr := fun heq => hblock (heq ▸ mem_map_of_mem hold)
      rw [update_of_ne hne]
      exact h.bytes block hold
    · rw [mem_singleton.mp hlast, update_self]
      rfl
  · change (m.totalNumBufsAllocated + 1).toNat = _
    have hlength : (held ++ [ptr]).length + free.length = held.length + free.length + 1 := by
      rw [length_append, length_singleton, Nat.add_right_comm]
    rw [UInt16.toNat_add, h.total, hlength]
    exact Nat.mod_add_mod _ _ _
  · change (m.numUsedBuffers + 1).toNat = _
    rw [UInt16.toNat_add, h.used, length_append]
    exact Nat.mod_add_mod _ _ _
  · change (m.currentMemoryAllocated + size).toNat = _
    rw [hsizes, (hperm.map _).sum_eq, map_cons, sum_cons, update_self,
      map_congr_left hsame, UInt32.toNat_add, h.memory, Nat.add_comm, Nat.add_mod_mod]

end Accounted

end TopoBufMgr

end AudioReach
