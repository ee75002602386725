import AudioReach.TopoBuf.Accounts

/-!
# The functions of the buffer manager

Every loop over the list of free buffers ends, and each function does to the buffers what it
is for: `topo_buf_manager_get_buf` takes the first free buffer that is large enough, or
allocates one, `topo_buf_manager_return_buf` puts a buffer back in its place, and the sweeps
free buffers from the end of the list.
-/

namespace AudioReach

open Function (update)
open Library List

namespace TopoBufMgr

variable {m m' : TopoBufMgr} {held free s t : List Addr} {x : Addr}

namespace Tidy

/-! ## Sweeps -/

lemma destroyLast (h : m.Tidy held (s ++ [x])) : (m.destroyLast x).Tidy held s := by
  obtain ⟨hlist, hun⟩ := h.list.destroyLast
  exact ⟨hlist, h.accounts.freed.of_unlinked hun⟩

lemma sameBufs_destroyLast (h : m.Tidy held (s ++ [x])) : SameBufs m (m.destroyLast x) := by
  obtain ⟨-, hun⟩ := h.list.destroyLast
  have hfreed : SameBufs m (m.freed x) := ⟨⟨fun _ => rfl, fun _ => rfl⟩, fun _ => rfl⟩
  exact hfreed.trans (SameBufs.of_unlinked hun)

/-- The loop that frees buffers from the end of the list. -/
lemma destroyLoop (h : m.Tidy held free) (forceFree : Bool) {rounds : ℕ}
    (hrounds : free.length < rounds) :
    ∃ m' free', TopoBufMgr.destroyLoop forceFree rounds m = some m' ∧ free' <+: free ∧
      m'.Tidy held free' ∧ SameBufs m m' := by
  induction rounds generalizing m free with
  | zero => omega
  | succ rounds ih =>
    have hlast : m.lastNodePtr = free.getLast? := h.list.last_eq
    rcases free.eq_nil_or_concat with rfl | ⟨s, x, rfl⟩
    · refine ⟨m, [], ?_, prefix_refl _, h, SameBufs.refl m⟩
      unfold TopoBufMgr.destroyLoop
      rw [hlast]
      rfl
    · rw [concat_eq_append] at *
      rw [getLast?_concat] at hlast
      unfold TopoBufMgr.destroyLoop
      rw [hlast]
      dsimp only
      split_ifs with hdestroy
      · rw [length_append, length_singleton] at hrounds
        obtain ⟨m', free', hloop, hpre, htidy, hsame⟩ := ih h.destroyLast (by omega)
        exact ⟨m', free', hloop, hpre.trans (prefix_append s [x]), htidy,
          h.sameBufs_destroyLast.trans hsame⟩
      · exact ⟨m, s ++ [x], rfl, prefix_refl _, h, SameBufs.refl m⟩

lemma modifyElem (h : m.Tidy held free) (node : Addr) {f : TopoBufElement → TopoBufElement}
    (hlinks : ∀ e, (f e).nextPtr = e.nextPtr ∧ (f e).prevPtr = e.prevPtr)
    (hshape : ∀ e, (f e).objPtr = e.objPtr ∧ (f e).size = e.size) :
    (m.modifyElem node f).Tidy held free := by
  refine ⟨h.list.congr (fun a _ => ?_) (fun a _ => ?_),
    h.accounts.congr ⟨fun a => ?_, fun a => ?_⟩ rfl rfl rfl rfl rfl⟩
  · exact elems_modifyElem TopoBufElement.nextPtr m node (fun e => (hlinks e).1) a
  · exact elems_modifyElem TopoBufElement.prevPtr m node (fun e => (hlinks e).2) a
  · exact elems_modifyElem TopoBufElement.objPtr m node (fun e => (hshape e).1) a
  · exact elems_modifyElem TopoBufElement.size m node (fun e => (hshape e).2) a

/-- The loop that walks back through the list and ages one buffer. -/
lemma ageLoop (h : m.Tidy held (s ++ t)) {rounds : ℕ} (hrounds : s.length < rounds) :
    ∃ m', TopoBufMgr.ageLoop rounds m s.getLast? = some m' ∧ m'.Tidy held (s ++ t) ∧
      SameBufs m m' := by
  induction rounds generalizing s t with
  | zero => omega
  | succ rounds ih =>
    rcases s.eq_nil_or_concat with rfl | ⟨s, x, rfl⟩
    · exact ⟨m, rfl, h, SameBufs.refl m⟩
    · rw [concat_eq_append] at *
      rw [getLast?_concat]
      unfold TopoBufMgr.ageLoop
      split_ifs with hyoung
      · refine ⟨_, rfl, h.modifyElem x (by intro _; exact ⟨rfl, rfl⟩) (by intro _; exact ⟨rfl, rfl⟩),
          ⟨fun a => ?_, fun a => ?_⟩, fun a => ?_⟩
        · exact elems_modifyElem TopoBufElement.objPtr m x (by intro _; rfl) a
        · exact elems_modifyElem TopoBufElement.size m x (by intro _; rfl) a
        · exact elems_modifyElem TopoBufElement.refCount m x (by intro _; rfl) a
      · rw [append_assoc] at h ⊢
        have hprev : (m.elems x).prevPtr = s.getLast? := h.list.links.1
        rw [length_append, length_singleton] at hrounds
        rw [hprev]
        exact ih h (by omega)

/-- **A sweep.** It frees free buffers from the end of the list. -/
theorem checkDestroyUnusedBuf (h : m.Tidy held free) (curTs : UInt64) (islandEntry : Bool) :
    ∃ m' free', m.checkDestroyUnusedBuf curTs islandEntry = some m' ∧ free' <+: free ∧
      m'.Tidy held free' ∧ SameBufs m m' := by
  unfold TopoBufMgr.checkDestroyUnusedBuf
  by_cases hnone : m.lastNodePtr = none
  · rw [if_pos hnone]
    exact ⟨m, free, rfl, prefix_refl _, h, SameBufs.refl m⟩
  by_cases hearly : curTs - m.prevDestroyUnusedCallTsUs < tbfUnusedBufferCallIntervalUs
  · rw [if_neg hnone, if_pos hearly]
    exact ⟨m, free, rfl, prefix_refl _, h, SameBufs.refl m⟩
  rw [if_neg hnone, if_neg hearly]
  dsimp only
  set m₁ : TopoBufMgr := { m with prevDestroyUnusedCallTsUs := curTs } with hm₁
  have hsame₁ : SameBufs m m₁ := ⟨⟨fun _ => rfl, fun _ => rfl⟩, fun _ => rfl⟩
  have h₁ : m₁.Tidy held free := ⟨h.list, h.accounts.congr hsame₁.toSameShape rfl rfl rfl rfl rfl⟩
  have hswept : ∃ m₂ free', (if islandEntry = true then some m₁ else
      m₁.destroyAllUnusedBuffers false) = some m₂ ∧ free' <+: free ∧ m₂.Tidy held free' ∧
        SameBufs m₁ m₂ := by
    split_ifs
    · exact ⟨m₁, free, rfl, prefix_refl _, h₁, SameBufs.refl m₁⟩
    · exact h₁.destroyLoop false h₁.accounts.length_lt_listRounds
  obtain ⟨m₂, free', hsweep, hpre, h₂, hsame₂⟩ := hswept
  rw [hsweep]
  dsimp only
  have h₂' : m₂.Tidy held (free' ++ []) := by
    rw [append_nil]
    exact h₂
  obtain ⟨m₃, hage, h₃, hsame₃⟩ := h₂'.ageLoop h₂.accounts.length_lt_listRounds
  rw [append_nil] at h₃
  rw [h₂.list.last_eq]
  exact ⟨m₃, free', hage, hpre, h₃, (hsame₁.trans hsame₂).trans hsame₃⟩

/-! ## Handing out -/

/-- The search finds the first buffer that is large enough. -/
lemma searchLoop (h : m.Tidy held (s ++ t)) (size : UInt32) {rounds : ℕ}
    (hrounds : t.length < rounds) :
    m.searchLoop size rounds t.head? = some (t.find? fun a => size ≤ (m.elems a).size) := by
  induction rounds generalizing s t with
  | zero => omega
  | succ rounds ih =>
    cases t with
    | nil => rfl
    | cons x t =>
      have hobj : (m.elems x).objPtr = x := h.accounts.obj x (by simp)
      have hnext : (m.elems x).nextPtr = t.head? := h.list.links.2
      rw [head?_cons]
      unfold TopoBufMgr.searchLoop
      rw [hobj, find?_cons, hnext]
      by_cases hfits : size ≤ (m.elems x).size
      · rw [if_pos hfits, decide_eq_true hfits]
      · rw [if_neg hfits, decide_eq_false hfits]
        have h' : m.Tidy held (s ++ [x] ++ t) := by
          rw [append_assoc]
          exact h
        exact ih h' (by rw [length_cons] at hrounds; omega)

lemma takeNode (h : m.Tidy held (s ++ x :: t)) : (m.takeNode x).Tidy (held ++ [x]) (s ++ t) := by
  obtain ⟨hlist, hun⟩ := h.list.takeNode
  exact ⟨hlist, h.accounts.markUsed.of_unlinked hun⟩

lemma allocateBuf (h : m.Tidy held free) (size : UInt32) {ptr : Addr} (hnew : ptr ∉ held ++ free) :
    { (m.allocateBuf size (some ptr)).2 with
      numUsedBuffers := (m.allocateBuf size (some ptr)).2.numUsedBuffers + 1 }.Tidy
        (held ++ [ptr]) free := by
  refine ⟨h.list.congr (fun a ha => ?_) (fun a ha => ?_), h.accounts.allocateBuf hnew⟩
  · have hne : a ≠ ptr := ne_of_mem_of_not_mem (mem_append_right held ha) hnew
    exact congrArg TopoBufElement.nextPtr (Function.update_of_ne hne _ _)
  · have hne : a ≠ ptr := ne_of_mem_of_not_mem (mem_append_right held ha) hnew
    exact congrArg TopoBufElement.prevPtr (Function.update_of_ne hne _ _)

end Tidy

/-- What a request for a buffer of `size` bytes ends with. -/
inductive Got (m : TopoBufMgr) (held free : List Addr) (size : UInt32) (malloc : Option Addr) :
    ArResult × Option Addr × TopoBufMgr → Prop
  /-- The smallest free buffer that is large enough. -/
  | reused (s t : List Addr) (x : Addr) (m' : TopoBufMgr) (free' : List Addr)
      (split : free = s ++ x :: t) (small : ∀ a ∈ s, (m.elems a).size < size)
      (fits : size ≤ (m.elems x).size) (swept : free' <+: s ++ t)
      (tidy : m'.Tidy (held ++ [x]) free') (same : SameBufs (m.markUsed x) m') :
      Got m held free size malloc (.eok, some (x + tbfBufPtrOffset), m')
  /-- A new buffer. -/
  | allocated (ptr : Addr) (m' : TopoBufMgr) (free' : List Addr) (block : malloc = some ptr)
      (small : ∀ a ∈ free, (m.elems a).size < size) (swept : free' <+: free)
      (tidy : m'.Tidy (held ++ [ptr]) free')
      (same : SameBufs (m.allocateBuf size (some ptr)).2 m') :
      Got m held free size malloc (.eok, some (ptr + tbfBufPtrOffset), m')
  /-- No buffer is large enough and the heap has no block. -/
  | refused (block : malloc = none) (small : ∀ a ∈ free, (m.elems a).size < size) :
      Got m held free size malloc (.enomemory, none, m)

namespace Tidy

/-- **A request.** -/
theorem getBuf (h : m.Tidy held free) (size : UInt32) {malloc : Option Addr} (curTs : UInt64)
    (islandEntry : Bool)
    (hmalloc : ∀ ptr, malloc = some ptr → (∀ a ∈ free, (m.elems a).size < size) →
      ptr ∉ held ++ free) :
    ∃ out, m.getBuf size malloc curTs islandEntry = some out ∧ Got m held free size malloc out := by
  have hstatic : m.checkStaticBufAssignTempList size = none := by
    unfold checkStaticBufAssignTempList
    rw [h.accounts.static]
    rfl
  have hsearch : m.searchLoop size m.listRounds m.headNodePtr =
      some (free.find? fun a => size ≤ (m.elems a).size) := by
    rw [h.list.head_eq]
    exact searchLoop (s := []) h size h.accounts.length_lt_listRounds
  unfold TopoBufMgr.getBuf
  rw [hstatic]
  rw [hsearch]
  cases hfind : free.find? fun a => size ≤ (m.elems a).size with
  | some x =>
    obtain ⟨hfits, s, t, hsplit, hsmall⟩ := find?_eq_some_iff_append.mp hfind
    dsimp only
    have h' : m.Tidy held (s ++ x :: t) := hsplit ▸ h
    obtain ⟨m', free', hsweep, hpre, htidy, hsame⟩ :=
      h'.takeNode.checkDestroyUnusedBuf curTs islandEntry
    rw [hsweep]
    have hmarked := SameBufs.of_unlinked h'.list.takeNode.2
    refine ⟨_, rfl, .reused s t x m' free' hsplit (fun a ha => ?_) (of_decide_eq_true hfits) hpre
      htidy (hmarked.trans hsame)⟩
    have hnot := hsmall a ha
    simpa using hnot
  | none =>
    have hsmall : ∀ a ∈ free, (m.elems a).size < size := by
      intro a ha
      have hnot := find?_eq_none.mp hfind a ha
      simpa using hnot
    cases malloc with
    | none => exact ⟨_, rfl, .refused rfl hsmall⟩
    | some ptr =>
      have hnew := hmalloc ptr rfl hsmall
      obtain ⟨m', free', hsweep, hpre, htidy, hsame⟩ :=
        (h.allocateBuf size hnew).checkDestroyUnusedBuf curTs islandEntry
      refine ⟨(.eok, some (ptr + tbfBufPtrOffset), m'), ?_,
        .allocated ptr m' free' rfl hsmall hpre htidy ?_⟩
      · change (({ (m.allocateBuf size (some ptr)).2 with
          numUsedBuffers := (m.allocateBuf size (some ptr)).2.numUsedBuffers + 1
          }).checkDestroyUnusedBuf curTs islandEntry).map _ = _
        rw [hsweep]
        rfl
      · exact ⟨⟨hsame.objPtr, hsame.size⟩, hsame.refCount⟩

/-! ## Taking back -/

/-- The loop that looks for the place of a buffer. -/
lemma insertLoop (h : m.Tidy held (s ++ t)) (hx : x ∉ s ++ t) (size : UInt32)
    (hs : ∀ a ∈ s, (m.elems a).size < size) {rounds : ℕ} (hrounds : t.length < rounds)
    (ht : t = [] → s = []) :
    (∃ u y v, t = u ++ y :: v ∧ (∀ a ∈ s ++ u, (m.elems a).size < size) ∧ size ≤ (m.elems y).size ∧
      TopoBufMgr.insertLoop x size rounds m t.head? =
        some (true, { m.insertBeforeNode x y with
          numUsedBuffers := (m.insertBeforeNode x y).numUsedBuffers - 1 })) ∨
    (∃ u y, t = u ++ [y] ∧ (∀ a ∈ s ++ t, (m.elems a).size < size) ∧
      TopoBufMgr.insertLoop x size rounds m t.head? =
        some (false, ((m.setNext y (some x)).setNext x none).setPrev x (some y))) ∨
    (s ++ t = [] ∧ TopoBufMgr.insertLoop x size rounds m t.head? = some (false, m)) := by
  induction rounds generalizing s t with
  | zero => omega
  | succ rounds ih =>
    cases t with
    | nil =>
      refine Or.inr (Or.inr ⟨?_, rfl⟩)
      rw [ht rfl]
      rfl
    | cons y t =>
      have hobj : (m.elems y).objPtr = y := h.accounts.obj y (by simp)
      have hnext : (m.elems y).nextPtr = t.head? := h.list.links.2
      rw [head?_cons]
      unfold TopoBufMgr.insertLoop
      rw [hobj, hnext]
      by_cases hle : size ≤ (m.elems y).size
      · rw [if_pos hle]
        refine Or.inl ⟨[], y, t, rfl, ?_, hle, rfl⟩
        rw [append_nil]
        exact hs
      · rw [if_neg hle]
        have hs' : ∀ a ∈ s ++ [y], (m.elems a).size < size := by
          intro a ha
          rcases mem_append.mp ha with ha | ha
          · exact hs a ha
          · rw [mem_singleton.mp ha]
            exact UInt32.not_le.mp hle
        cases t with
        | nil => exact Or.inr (Or.inl ⟨[], y, rfl, hs', rfl⟩)
        | cons z t =>
          have h' : m.Tidy held (s ++ [y] ++ z :: t) := by
            rw [append_assoc]
            exact h
          have hx' : x ∉ s ++ [y] ++ z :: t := by
            rw [append_assoc]
            exact hx
          have hshort : (z :: t).length < rounds := by
            rw [length_cons] at hrounds
            omega
          rcases ih h' hx' hs' hshort nofun with
            ⟨u, w, v, hsplit, hsmall, hfit, hloop⟩ | ⟨u, w, hsplit, hsmall, hloop⟩ | ⟨hnil, -⟩
          · refine Or.inl ⟨y :: u, w, v, by rw [hsplit]; rfl, ?_, hfit, hloop⟩
            rw [← append_cons] at hsmall
            exact hsmall
          · refine Or.inr (Or.inl ⟨y :: u, w, by rw [hsplit]; rfl, ?_, hloop⟩)
            rw [← append_cons] at hsmall
            exact hsmall
          · simp at hnil

/-- **A return.** The buffer is free, in its place. -/
theorem returnBuf {before behind : List Addr} (h : m.Tidy (before ++ x :: behind) free) :
    ∃ m' s t, m.returnBuf (x + tbfBufPtrOffset) = some m' ∧ free = s ++ t ∧
      m'.Tidy (before ++ behind) (s ++ x :: t) ∧ SameBufs m m' := by
  have hx : x ∉ free := h.accounts.not_free (by simp)
  have hobj : (m.elems x).objPtr = x := h.accounts.obj x (by simp)
  set size := (m.elems x).size with hsize
  have hle : ∀ {a : Addr}, (m.elems a).size < size → m.bufSize a ≤ m.bufSize x := fun hlt =>
    Nat.le_of_lt (UInt32.lt_iff_toNat_lt.mp hlt)
  unfold TopoBufMgr.returnBuf
  dsimp only
  rw [Nat.add_sub_cancel, hobj, h.list.head_eq, ← hsize]
  rcases insertLoop h hx size (fun a ha => absurd ha not_mem_nil) h.accounts.length_lt_listRounds
    (fun _ => rfl) with ⟨s, y, t, rfl, hsmall, hfit, hloop⟩ | ⟨s, y, rfl, hsmall, hloop⟩ |
      ⟨hnil, hloop⟩
  · -- before the first buffer that is not smaller
    rw [hloop]
    obtain ⟨hlist, hun⟩ := h.list.insertBeforeNode hx
    have hsorted := (pairwise_append.mp h.accounts.sorted).2.1
    have hlarge : ∀ a ∈ y :: t, m.bufSize x ≤ m.bufSize a := by
      intro a ha
      have hy : m.bufSize x ≤ m.bufSize y := UInt32.le_iff_toNat_le.mp hfit
      rcases mem_cons.mp ha with rfl | ha
      · exact hy
      · exact hy.trans ((pairwise_cons.mp hsorted).1 a ha)
    have haccounts := h.accounts.putBack (fun a ha => hle (hsmall a ha)) hlarge
    have hdone := congrArg (fun m => { m with numUsedBuffers := m.numUsedBuffers - 1 }) hun
    have hsame := SameBufs.of_unlinked hun
    exact ⟨_, s, y :: t, rfl, rfl, ⟨hlist, haccounts.of_unlinked hdone⟩,
      ⟨hsame.objPtr, hsame.size⟩, hsame.refCount⟩
  · -- behind the last buffer
    rw [hloop]
    obtain ⟨hlist, hun⟩ := h.list.insertBehind hx
    have hhead : (((m.setNext y (some x)).setNext x none).setPrev x (some y)).headNodePtr ≠
        none := by
      change m.headNodePtr ≠ none
      rw [h.list.head_eq]
      cases s <;> simp
    have hlast : ((((m.setNext y (some x)).setNext x none).setPrev x (some y)).elems x).nextPtr =
        none := by
      change (((m.setNext y (some x)).setNext x none).setPrev x (some y)).next x = none
      rw [next_setPrev, next_setNext, Function.update_self]
    dsimp only
    rw [if_neg hhead, if_pos hlast]
    have h' : m.Accounted (before ++ x :: behind) (s ++ [y] ++ []) := by
      rw [append_nil]
      exact h.accounts
    have haccounts := h'.putBack (fun a ha => hle (hsmall a ha)) (by simp)
    have hdone := congrArg (fun m => { m with numUsedBuffers := m.numUsedBuffers - 1 }) hun
    have hsame := SameBufs.of_unlinked hun
    refine ⟨_, s ++ [y], [], rfl, (append_nil _).symm, ⟨?_, haccounts.of_unlinked hdone⟩,
      ⟨hsame.objPtr, hsame.size⟩, hsame.refCount⟩
    rw [append_assoc]
    exact hlist
  · -- into an empty list
    subst hnil
    rw [hloop]
    obtain ⟨hlist, hun, hnext⟩ := h.list.pushNode x
    have hhead : m.headNodePtr = none := h.list.head_eq
    dsimp only
    rw [if_pos hhead, if_pos (by exact hnext)]
    have haccounts := Accounted.putBack (s := []) h.accounts (by simp) (by simp)
    have hdone := congrArg (fun m => { m with numUsedBuffers := m.numUsedBuffers - 1 }) hun
    have hsame := SameBufs.of_unlinked hun
    exact ⟨_, [], [], rfl, rfl, ⟨hlist, haccounts.of_unlinked hdone⟩,
      ⟨hsame.objPtr, hsame.size⟩, hsame.refCount⟩

end Tidy

end TopoBufMgr

end AudioReach
