import AudioReach.Library.Assign
import AudioReach.Library.Owners
import AudioReach.TopoBuf.Calls
import AudioReach.TopoPorts.Model

/-!
# Reference counts of the buffers

A port counts as a user of a buffer when its buffer has the origin
`GEN_TOPO_BUF_ORIGIN_BUF_MGR`.  `Counted` relates the manager to the users: the count in each
element is the number of users, the free buffers have none, and the buffers that are out have
some.  Three things happen to it: a port joins the users of a buffer, a port gets a buffer of
its own, and a port leaves, in which case the buffer goes back after its last user.
-/

namespace AudioReach

open Function (update update_of_ne update_self)
open Library List

/-- The buffer of the manager that a port uses. -/
def PortBuf.managed (buf : PortBuf) : Option Addr :=
  if buf.bufOrigin = .bufMgr then buf.dataPtr else none

/-- The buffers in the manager `m` and their users. -/
structure Counted (ports : List Addr) (m : TopoBufMgr) (uses : Addr → Option Addr)
    (held free : List Addr) : Prop where
  tidy : m.Tidy held free
  count : ∀ a ∈ held ++ free, (m.elems a).refCount.toNat = owners ports uses (a + tbfBufPtrOffset)
  used : ∀ a ∈ held, owners ports uses (a + tbfBufPtrOffset) ≠ 0
  idle : ∀ a ∈ free, owners ports uses (a + tbfBufPtrOffset) = 0
  /-- Only buffers that are out are used, and only by the ports. -/
  known : ∀ p buf, uses p = some buf → p ∈ ports ∧ ∃ a ∈ held, buf = a + tbfBufPtrOffset

namespace Counted

variable {ports : List Addr} {m : TopoBufMgr} {uses uses' : Addr → Option Addr}
variable {held free : List Addr} {p : Addr}

lemma ne_offset {a b : Addr} (h : a ≠ b) : a + tbfBufPtrOffset ≠ b + tbfBufPtrOffset :=
  fun heq => h (Nat.add_right_cancel heq)

lemma unknown (h : Counted ports m uses held free) {a : Addr} (ha : a ∉ held) :
    owners ports uses (a + tbfBufPtrOffset) = 0 := by
  rw [owners_eq_zero_iff]
  intro p _ hp
  obtain ⟨-, b, hb, heq⟩ := h.known p _ hp
  rw [Nat.add_right_cancel heq] at ha
  exact ha hb

section

variable {a : Addr} (h : Counted ports m uses held free) (hports : ports.Nodup)
include h hports

/-- **A port joins** the users of a buffer. -/
theorem share (hlength : ports.length < 65536) (hp : p ∈ ports) (hnone : uses p = none)
    (ha : a ∈ held) : Counted ports (m.modifyElem a fun e => { e with refCount := e.refCount + 1 })
      (update uses p (some (a + tbfBufPtrOffset))) held free := by
  have hself := owners_gain_self hports hp hnone (a + tbfBufPtrOffset)
  have hother : ∀ b, b ≠ a → owners ports (update uses p (some (a + tbfBufPtrOffset)))
      (b + tbfBufPtrOffset) = owners ports uses (b + tbfBufPtrOffset) :=
    fun b hb => owners_gain_of_ne hports hp hnone (ne_offset hb)
  refine ⟨h.tidy.modifyElem a (by intro _; exact ⟨rfl, rfl⟩) (by intro _; exact ⟨rfl, rfl⟩),
    ?_, ?_, ?_, ?_⟩
  · intro b hb
    unfold TopoBufMgr.modifyElem
    dsimp only
    by_cases hba : b = a
    · subst hba
      have hle := owners_le_length ports (update uses p (some (b + tbfBufPtrOffset)))
        (b + tbfBufPtrOffset)
      rw [hself] at hle ⊢
      rw [update_self]
      rw [UInt16.toNat_add, h.count b hb]
      refine Nat.mod_eq_of_lt ?_
      change _ + 1 < 65536
      omega
    · rw [update_of_ne hba, hother b hba]
      exact h.count b hb
  · intro b hb
    by_cases hba : b = a
    · subst hba
      rw [hself]
      exact Nat.succ_ne_zero _
    · rw [hother b hba]
      exact h.used b hb
  · intro b hb
    have hba : b ≠ a := by
      rintro rfl
      exact h.tidy.accounts.not_free ha hb
    rw [hother b hba]
    exact h.idle b hb
  · exact forall_update_some h.known ⟨hp, a, ha, rfl⟩

/-- A port that used nothing is the only user of a buffer that is handed out. -/
lemma handOut (hp : p ∈ ports) (hnone : uses p = none) (ha : a ∉ held) {m' : TopoBufMgr}
    {free' : List Addr} (htidy : m'.Tidy (held ++ [a]) free') (hsub : ∀ b ∈ free', b ∈ free)
    (hone : (m'.elems a).refCount = 1)
    (hsame : ∀ b ∈ held ++ free', (m'.elems b).refCount = (m.elems b).refCount) :
    Counted ports m' (update uses p (some (a + tbfBufPtrOffset))) (held ++ [a]) free' := by
  have hself := owners_gain_self hports hp hnone (a + tbfBufPtrOffset)
  rw [h.unknown ha] at hself
  have hother : ∀ b, b ≠ a → owners ports (update uses p (some (a + tbfBufPtrOffset)))
      (b + tbfBufPtrOffset) = owners ports uses (b + tbfBufPtrOffset) :=
    fun b hb => owners_gain_of_ne hports hp hnone (ne_offset hb)
  have hfree : a ∉ free' := fun hmem => htidy.accounts.not_free (by simp) hmem
  refine ⟨htidy, ?_, ?_, ?_, ?_⟩
  · intro b hb
    by_cases hba : b = a
    · subst hba
      rw [hself, hone]
      rfl
    · have hb' : b ∈ held ++ free' := by
        rcases mem_append.mp hb with hb | hb
        · rcases mem_append.mp hb with hb | hb
          · exact mem_append_left _ hb
          · exact absurd (mem_singleton.mp hb) hba
        · exact mem_append_right _ hb
      have hold : b ∈ held ++ free := by
        rcases mem_append.mp hb' with hb' | hb'
        · exact mem_append_left _ hb'
        · exact mem_append_right _ (hsub b hb')
      rw [hsame b hb', hother b hba]
      exact h.count b hold
  · intro b hb
    by_cases hba : b = a
    · subst hba
      rw [hself]
      exact Nat.one_ne_zero
    · rw [hother b hba]
      rcases mem_append.mp hb with hb | hb
      · exact h.used b hb
      · exact absurd (mem_singleton.mp hb) hba
  · intro b hb
    have hba : b ≠ a := by
      rintro rfl
      exact hfree hb
    rw [hother b hba]
    exact h.idle b (hsub b hb)
  · refine forall_update_some (fun q buf hq => ?_) ⟨hp, a, by simp, rfl⟩
    obtain ⟨hmem, b, hb, heq⟩ := h.known q buf hq
    exact ⟨hmem, b, mem_append_left _ hb, heq⟩

/-- **A port gets a buffer** of its own, or none if there is no memory. -/
theorem getBuf (hp : p ∈ ports) (hnone : uses p = none) (size : UInt32) {malloc : Option Addr}
    (hmalloc : ∀ ptr, malloc = some ptr → ptr ∉ m.heap.map Prod.fst) (curTs : UInt64)
    (islandEntry : Bool) :
    (∃ result m', m.getBuf size malloc curTs islandEntry = some (result, none, m') ∧
      ∃ held' free', Counted ports m' uses held' free') ∨
    ∃ result buf m', m.getBuf size malloc curTs islandEntry = some (result, some buf, m') ∧
      ∃ held' free', Counted ports m' (update uses p (some buf)) held' free' := by
  have hnew : ∀ ptr, malloc = some ptr → ptr ∉ held ++ free := fun ptr hptr hmem =>
    hmalloc ptr hptr (h.tidy.accounts.blocks.mem_iff.mpr hmem)
  obtain ⟨out, hcall, hgot⟩ :=
    h.tidy.getBuf size curTs islandEntry fun ptr hptr _ => hnew ptr hptr
  cases hgot with
  | reused s t x m' free' hsplit hsmall hfits hswept htidy hsame =>
    subst hsplit
    have hx : x ∉ held := h.tidy.accounts.not_held
    refine Or.inr ⟨_, _, m', hcall, held ++ [x], free', ?_⟩
    refine h.handOut hports hp hnone hx htidy ?_ ?_ ?_
    · intro b hb
      have hmem := hswept.subset hb
      simp only [mem_append, mem_cons] at hmem ⊢
      exact hmem.imp_right Or.inr
    · rw [hsame.refCount]
      unfold TopoBufMgr.markUsed TopoBufMgr.modifyElem
      dsimp only
      rw [update_self]
    · intro b hb
      have hne : b ≠ x := by
        rintro rfl
        rcases mem_append.mp hb with hb | hb
        · exact hx hb
        · exact htidy.accounts.not_free (by simp) hb
      rw [hsame.refCount]
      unfold TopoBufMgr.markUsed TopoBufMgr.modifyElem
      dsimp only
      rw [update_of_ne hne]
  | allocated ptr m' free' hblock hsmall hswept htidy hsame =>
    have hptr := hnew ptr hblock
    refine Or.inr ⟨_, _, m', hcall, held ++ [ptr], free', ?_⟩
    refine h.handOut hports hp hnone (fun hmem => hptr (mem_append_left _ hmem)) htidy
      (fun b hb => hswept.subset hb) ?_ ?_
    · rw [hsame.refCount]
      unfold TopoBufMgr.allocateBuf
      dsimp only
      rw [update_self]
    · intro b hb
      have hne : b ≠ ptr := by
        rintro rfl
        rcases mem_append.mp hb with hb | hb
        · exact hptr (mem_append_left _ hb)
        · exact hptr (mem_append_right _ (hswept.subset hb))
      rw [hsame.refCount]
      unfold TopoBufMgr.allocateBuf
      dsimp only
      rw [update_of_ne hne]
  | refused hblock hsmall => exact Or.inl ⟨_, m, hcall, held, free, h⟩

/-- **A port leaves** the users of its buffer.  The buffer is free when nobody uses it any
more. -/
theorem drop {buf : Addr} (hbuf : uses p = some buf) :
    ∃ m', TopoPorts.decRefCountReturn m buf = some m' ∧
      ∃ held' free', Counted ports m' (update uses p none) held' free' := by
  obtain ⟨hp, a, ha, rfl⟩ := h.known p buf hbuf
  have hself := owners_drop_self hports hp hbuf
  have hother : ∀ b, b ≠ a → owners ports (update uses p none) (b + tbfBufPtrOffset) =
      owners ports uses (b + tbfBufPtrOffset) :=
    fun b hb => owners_drop_of_ne hports hp hbuf (ne_offset hb)
  have hknown : ∀ q buf, update uses p none q = some buf →
      q ∈ ports ∧ ∃ b ∈ held, buf = b + tbfBufPtrOffset := forall_update_none h.known
  set m₁ := m.modifyElem a fun e => { e with refCount := e.refCount - 1 } with hm₁
  have htidy : m₁.Tidy held free :=
    h.tidy.modifyElem a (by intro _; exact ⟨rfl, rfl⟩) (by intro _; exact ⟨rfl, rfl⟩)
  have hcount := h.count a (mem_append_left _ ha)
  have hone : (m.elems a).refCount ≥ 1 := by
    refine UInt16.le_iff_toNat_le.mpr ?_
    rw [hcount]
    exact Nat.one_le_iff_ne_zero.mpr (h.used a ha)
  have hleft : (m₁.elems a).refCount.toNat =
      owners ports (update uses p none) (a + tbfBufPtrOffset) := by
    rw [hm₁]
    unfold TopoBufMgr.modifyElem
    dsimp only
    rw [update_self]
    rw [UInt16.toNat_sub_of_le _ _ hone, hcount, ← hself]
    rfl
  have hrest : ∀ b ∈ held ++ free, (m₁.elems b).refCount.toNat =
      owners ports (update uses p none) (b + tbfBufPtrOffset) := by
    intro b hb
    by_cases hba : b = a
    · rw [hba]
      exact hleft
    · rw [hother b hba, ← h.count b hb, hm₁]
      unfold TopoBufMgr.modifyElem
      dsimp only
      rw [update_of_ne hba]
  have hcall : TopoPorts.decRefCountReturn m (a + tbfBufPtrOffset) =
      if (m₁.elems a).refCount = 0 then m₁.returnBuf (a + tbfBufPtrOffset) else some m₁ := by
    unfold TopoPorts.decRefCountReturn
    dsimp only
    rw [Nat.add_sub_cancel, if_pos hone]
  rw [hcall]
  by_cases hzero : (m₁.elems a).refCount = 0
  · -- the last user
    rw [if_pos hzero]
    obtain ⟨before, behind, hsplit⟩ := append_of_mem ha
    rw [hsplit] at htidy
    obtain ⟨m', s, t, hreturn, rfl, htidy', hsame⟩ := htidy.returnBuf
    have hnodup := h.tidy.accounts.nodup
    rw [hsplit] at hnodup
    have hnot : a ∉ before ++ behind :=
      (nodup_cons.mp (nodup_middle.mp (nodup_append.mp hnodup).1)).1
    have hidle : owners ports (update uses p none) (a + tbfBufPtrOffset) = 0 := by
      rw [← hleft, hzero]
      rfl
    have hout : ∀ b ∈ before ++ behind, b ∈ held ∧ b ≠ a := by
      intro b hb
      refine ⟨?_, ne_of_mem_of_not_mem hb hnot⟩
      rw [hsplit]
      simp only [mem_append, mem_cons] at hb ⊢
      exact hb.imp_right Or.inr
    refine ⟨m', hreturn, before ++ behind, s ++ a :: t, htidy', ?_, ?_, ?_, ?_⟩
    · intro b hb
      rw [hsame.refCount]
      refine hrest b ?_
      rw [hsplit]
      exact (TopoBufMgr.Accounted.perm_putBack before behind s t a).mem_iff.mp hb
    · intro b hb
      obtain ⟨hb, hba⟩ := hout b hb
      rw [hother b hba]
      exact h.used b hb
    · intro b hb
      by_cases hba : b = a
      · rw [hba]
        exact hidle
      · rw [hother b hba]
        refine h.idle b ?_
        simp only [mem_append, mem_cons] at hb ⊢
        exact hb.imp_right fun hb => hb.resolve_left hba
    · intro q buf hq
      obtain ⟨hqmem, b, hb, rfl⟩ := hknown q buf hq
      refine ⟨hqmem, b, ?_, rfl⟩
      have hba : b ≠ a := by
        rintro rfl
        exact owners_pos_of_mem hqmem hq hidle
      rw [hsplit] at hb
      simp only [mem_append, mem_cons] at hb ⊢
      exact hb.imp_right fun hb => hb.resolve_left hba
  · -- other users remain
    rw [if_neg hzero]
    refine ⟨m₁, rfl, held, free, htidy, hrest, ?_, ?_, hknown⟩
    · intro b hb
      by_cases hba : b = a
      · rw [hba, ← hleft]
        exact fun hnil => hzero (UInt16.toNat_inj.mp hnil)
      · rw [hother b hba]
        exact h.used b hb
    · intro b hb
      have hba : b ≠ a := by
        rintro rfl
        exact h.tidy.accounts.not_free ha hb
      rw [hother b hba]
      exact h.idle b hb

end

end Counted

end AudioReach
