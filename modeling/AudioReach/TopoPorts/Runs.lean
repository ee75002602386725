import AudioReach.Library.Runs
import AudioReach.TopoPorts.Counts

/-!
# Runs over the ports of a topology

Any number of calls that get and return buffers, for any ports and in any order, while the
topology changes between them.  The reference count of each buffer stays the number of its
users, and the free buffers are exactly those without a user.
-/

namespace AudioReach

open Function (update)
open Library List Option

/-- A call, with the topology at that time. -/
inductive TopoPortsCall
  /-- `gen_topo_check_get_in_buf_from_buf_mgr`. -/
  | getInBuf (g : TopoGraph) (env : MgrEnv) (inp : Addr) (prevOut : Option Addr)
  /-- `gen_topo_check_get_out_buf_from_buf_mgr`. -/
  | getOutBuf (g : TopoGraph) (env : MgrEnv) (out : Addr)
  /-- `gen_topo_return_one_buf_mgr_buf`. -/
  | returnOne (g : TopoGraph) (p : Addr)
  /-- `gen_topo_check_return_one_buf_mgr_buf`. -/
  | checkReturnOne (g : TopoGraph) (p : Addr)
  /-- `gen_topo_mark_buf_mgr_buffers_to_force_return`. -/
  | markForceReturn (g : TopoGraph)

namespace TopoPorts

/-- The state after a call, if it returns. -/
def call (s : TopoPorts) : TopoPortsCall → Option TopoPorts
  | .getInBuf g env inp prevOut => (s.checkGetInBuf g env inp prevOut).map Prod.snd
  | .getOutBuf g env out => (s.checkGetOutBuf g env out).map Prod.snd
  | .returnOne g p => s.returnOneBufMgrBuf g p
  | .checkReturnOne g p => s.checkReturnOneBufMgrBuf g p
  | .markForceReturn g => s.markBufMgrBuffersToForceReturn g

/-- A call; one that does not return leaves everything as it was. -/
def step (s : TopoPorts) (c : TopoPortsCall) : TopoPorts := (s.call c).getD s

/-- A topology before its ports got buffers: ports may have external buffers only. -/
def init (elems : Addr → TopoBufElement) (ts : UInt64) (bufs : Addr → PortBuf) : TopoPorts :=
  ⟨TopoBufMgr.init elems ts, bufs⟩

/-- The buffers of the manager that the ports use. -/
def uses (s : TopoPorts) (p : Addr) : Option Addr := (s.bufs p).managed

/-- The number of ports whose buffer has the origin `GEN_TOPO_BUF_ORIGIN_BUF_MGR` and is the
buffer behind the element at `a`. -/
def numUsers (s : TopoPorts) (ports : List Addr) (a : Addr) : ℕ :=
  ports.countP fun p =>
    (s.bufs p).bufOrigin = .bufMgr ∧ (s.bufs p).dataPtr = some (a + tbfBufPtrOffset)

/-- The calls are for ports of the topology, and the heap gives new blocks. -/
def Admitted (ports : List Addr) (s : TopoPorts) : TopoPortsCall → Prop
  | .getInBuf _ env inp _ => inp ∈ ports ∧ ∀ ptr ∈ env.malloc, ptr ∉ s.mgr.heap.map Prod.fst
  | .getOutBuf _ env out => out ∈ ports ∧ ∀ ptr ∈ env.malloc, ptr ∉ s.mgr.heap.map Prod.fst
  | .returnOne _ p => p ∈ ports
  | .checkReturnOne _ p => p ∈ ports
  | .markForceReturn g =>
      ∀ md ∈ g.startedSortedModules, ∀ p ∈ md.inputPorts ++ md.outputPorts, p ∈ ports

/-- The counts and the list of free buffers agree with the ports. -/
structure Shared (ports : List Addr) (s : TopoPorts) (free : List Addr) : Prop where
  /-- The free buffers form the list of the manager. -/
  list : IsLinkedList s.mgr.next s.mgr.prev s.mgr.headNodePtr s.mgr.lastNodePtr free
  block : ∀ a ∈ free, a ∈ s.mgr.heap.map Prod.fst
  /-- The count in an element is the number of its users. -/
  refCount : ∀ a ∈ s.mgr.heap.map Prod.fst, (s.mgr.elems a).refCount.toNat = s.numUsers ports a
  /-- A buffer is free if and only if it has no user. -/
  free_iff : ∀ a ∈ s.mgr.heap.map Prod.fst, a ∈ free ↔ s.numUsers ports a = 0
  /-- A port with a buffer of the manager uses a block that is not free. -/
  out : ∀ p ∈ ports, ∀ buf, (s.bufs p).bufOrigin = .bufMgr → (s.bufs p).dataPtr = some buf →
    ∃ a ∈ s.mgr.heap.map Prod.fst, a ∉ free ∧ buf = a + tbfBufPtrOffset

/-- The walk of a call along the chain of modules ends. -/
def WalkEnds : TopoPortsCall → Prop
  | .getInBuf g _ inp _ => g.isInplaceNblcFromExtInput inp ≠ none
  | .getOutBuf g _ out => g.isInplaceUntilNblcEnd out ≠ none
  | _ => True

/-! ## One call -/

/-- The counts are right. -/
def Good (ports : List Addr) (s : TopoPorts) : Prop :=
  ∃ held free, Counted ports s.mgr s.uses held free

variable {ports : List Addr} {s : TopoPorts} {p : Addr}

lemma uses_setBuf (s : TopoPorts) (p : Addr) (buf : PortBuf) :
    (s.setBuf p buf).uses = update s.uses p buf.managed := by
  funext q
  unfold uses setBuf
  by_cases hq : q = p
  · subst hq
    simp
  · simp [hq]

lemma managed_of_dataPtr {buf : PortBuf} (h : buf.dataPtr = none) : buf.managed = none := by
  unfold PortBuf.managed
  rw [h]
  exact ite_self _

lemma managed_of_origin {buf : PortBuf} (h : buf.bufOrigin ≠ .bufMgr) : buf.managed = none :=
  if_neg h

section

variable (h : s.Good ports)
include h

lemma Good.setBuf {buf : PortBuf} (hsame : buf.managed = (s.bufs p).managed) :
    (s.setBuf p buf).Good ports := by
  obtain ⟨held, free, h⟩ := h
  refine ⟨held, free, ?_⟩
  rw [uses_setBuf, hsame]
  have heq : update s.uses p (s.bufs p).managed = s.uses := Function.update_eq_self p s.uses
  rw [heq]
  exact h

/-- A buffer is shared with a port that has none. -/
lemma Good.share (hports : ports.Nodup) (hlength : ports.length < 65536) (hp : p ∈ ports)
    (hnone : (s.bufs p).dataPtr = none) (src : Addr) : (s.share p src).Good ports := by
  set buf : PortBuf := { assignBufsPtr (s.bufs p) (s.bufs src) with
    bufOrigin := (s.bufs src).bufOrigin } with hbuf
  have hmanaged : buf.managed = (s.bufs src).managed := rfl
  have hself : (s.setBuf p buf).bufs p = buf := by
    exact Function.update_self p buf s.bufs
  unfold TopoPorts.share incRefCount
  rw [← hbuf, hself]
  have hempty : (s.bufs p).managed = none := managed_of_dataPtr hnone
  by_cases horigin : buf.bufOrigin = .bufMgr
  · rw [if_pos horigin]
    cases hptr : buf.dataPtr with
    | none => exact h.setBuf ((managed_of_dataPtr hptr).trans hempty.symm)
    | some dataPtr =>
      obtain ⟨held, free, h⟩ := h
      have hused : s.uses src = some dataPtr := by
        change (s.bufs src).managed = _
        rw [← hmanaged]
        unfold PortBuf.managed
        rw [if_pos horigin, hptr]
      obtain ⟨-, a, ha, rfl⟩ := h.known src dataPtr hused
      refine ⟨held, free, ?_⟩
      have hcounted := h.share hports hlength hp hempty ha
      change Counted ports _ (s.setBuf p buf).uses held free
      rw [uses_setBuf, hmanaged]
      change Counted ports _ (update s.uses p (s.uses src)) held free
      rw [hused]
      exact hcounted
  · rw [if_neg horigin]
    exact h.setBuf ((managed_of_origin horigin).trans hempty.symm)

lemma Good.borrow (attrs : PortAttrs) (hnone : (s.bufs p).dataPtr = none) (src : Addr)
    {origin : BufOrigin} (horigin : origin ≠ .bufMgr) :
    (s.borrow attrs p src origin).Good ports := by
  refine h.setBuf ?_
  rw [managed_of_dataPtr hnone]
  exact managed_of_origin horigin

lemma Good.borrowFromNblcEnd (g : TopoGraph) (hnone : (s.bufs p).dataPtr = none) (nblcEnd : Addr) :
    (s.borrowFromNblcEnd g p nblcEnd).Good ports := by
  unfold TopoPorts.borrowFromNblcEnd
  split_ifs with hext
  · refine h.setBuf ?_
    rw [managed_of_dataPtr hnone]
    exact managed_of_origin nofun
  · cases g.connInPort nblcEnd with
    | none => exact h
    | some endIn =>
      dsimp only
      split_ifs with hlend horigin
      · exact h.borrow _ hnone endIn nofun
      · exact h.borrow _ hnone endIn nofun
      · exact h

end

variable {env : MgrEnv}

lemma Good.wrapperGetBuf (h : s.Good ports) (hports : ports.Nodup) (hp : p ∈ ports)
    (hnone : (s.bufs p).dataPtr = none) (attrs : PortAttrs)
    (hmalloc : ∀ ptr ∈ env.malloc, ptr ∉ s.mgr.heap.map Prod.fst) :
    ∃ out, s.wrapperGetBuf attrs env p = some out ∧ out.2.Good ports := by
  unfold TopoPorts.wrapperGetBuf
  split_ifs with hzero
  · exact ⟨_, rfl, h⟩
  obtain ⟨held, free, h⟩ := h
  have hempty : s.uses p = none := managed_of_dataPtr hnone
  rcases h.getBuf hports hp hempty attrs.maxBufLen hmalloc env.curTs env.islandEntry with
    ⟨result, m', hcall, held', free', hcounted⟩ | ⟨result, buf, m', hcall, held', free', hcounted⟩
  · rw [hcall]
    exact ⟨_, rfl, held', free', hcounted⟩
  · rw [hcall]
    refine ⟨_, rfl, held', free', ?_⟩
    rw [uses_setBuf]
    exact hcounted

lemma Good.ask {s' : TopoPorts} (h : s'.Good ports) (hports : ports.Nodup) (hp : p ∈ ports)
    (hheap : s'.mgr.heap = s.mgr.heap) (attrs : PortAttrs)
    (hmalloc : ∀ ptr ∈ env.malloc, ptr ∉ s.mgr.heap.map Prod.fst) (ends : Prop) :
    (∀ out, (if (s'.bufs p).dataPtr = none then s'.wrapperGetBuf attrs env p
      else some (.eok, s')) = some out → out.2.Good ports) ∧
    (ends → (if (s'.bufs p).dataPtr = none then s'.wrapperGetBuf attrs env p
      else some (.eok, s')).isSome) := by
  rw [← hheap] at hmalloc
  have hout : ∃ out, (if (s'.bufs p).dataPtr = none then s'.wrapperGetBuf attrs env p
      else some (.eok, s')) = some out ∧ out.2.Good ports := by
    split_ifs with hnone
    · exact h.wrapperGetBuf hports hp hnone attrs hmalloc
    · exact ⟨_, rfl, h⟩
  obtain ⟨out, hout, hgood⟩ := hout
  rw [hout]
  refine ⟨?_, fun _ => rfl⟩
  rintro _ ⟨⟩
  exact hgood

lemma heap_share (s : TopoPorts) (p src : Addr) : (s.share p src).mgr.heap = s.mgr.heap := by
  unfold TopoPorts.share incRefCount
  split_ifs
  · split <;> rfl
  · rfl

lemma heap_borrowFromNblcEnd (s : TopoPorts) (g : TopoGraph) (p nblcEnd : Addr) :
    (s.borrowFromNblcEnd g p nblcEnd).mgr.heap = s.mgr.heap := by
  unfold TopoPorts.borrowFromNblcEnd
  split_ifs
  · rfl
  · cases g.connInPort nblcEnd with
    | none => rfl
    | some endIn =>
      dsimp only
      split_ifs <;> rfl

section

variable (h : s.Good ports) (hports : ports.Nodup) (hlength : ports.length < 65536) (hp : p ∈ ports)
  (g : TopoGraph)
include h hports hlength hp

/-- **Getting an output buffer** keeps the counts, and returns if the walk ends. -/
lemma Good.checkGetOutBuf (hmalloc : ∀ ptr ∈ env.malloc, ptr ∉ s.mgr.heap.map Prod.fst) :
    (∀ out, s.checkGetOutBuf g env p = some out → out.2.Good ports) ∧
      (g.isInplaceUntilNblcEnd p ≠ none → (s.checkGetOutBuf g env p).isSome) := by
  unfold TopoPorts.checkGetOutBuf
  by_cases hhas : (s.bufs p).dataPtr ≠ none
  · rw [if_pos hhas]
    refine ⟨?_, fun _ => rfl⟩
    rintro _ ⟨⟩
    exact h
  rw [if_neg hhas]
  rw [not_not] at hhas
  by_cases hsiso : (g.moduleOf p).isInplaceOrDisabledSiso = true
  · rw [if_pos hsiso]
    cases hinputs : (g.moduleOf p).inputPorts with
    | nil => simp [TopoModule.isInplaceOrDisabledSiso, hinputs] at hsiso
    | cons inp rest =>
      dsimp only
      by_cases hshare : (s.bufs inp).dataPtr ≠ none
      · rw [if_pos hshare]
        exact (h.share hports hlength hp hhas inp).ask hports hp (heap_share s p inp) _ hmalloc _
      · rw [if_neg hshare]
        exact h.ask hports hp rfl _ hmalloc _
  · rw [if_neg hsiso]
    cases hwalk : g.isInplaceUntilNblcEnd p with
    | none =>
      refine ⟨?_, fun hends => absurd rfl hends⟩
      rintro _ ⟨⟩
    | some inplace =>
      cases inplace with
      | false => exact h.ask hports hp rfl _ hmalloc _
      | true =>
        cases hend : g.outNblcEnd p with
        | none => exact h.ask hports hp rfl _ hmalloc _
        | some nblcEnd =>
          exact (h.borrowFromNblcEnd g hhas nblcEnd).ask hports hp
            (heap_borrowFromNblcEnd s g p nblcEnd) _ hmalloc _

/-- **Getting an input buffer** keeps the counts, and returns if the walk ends. -/
lemma Good.checkGetInBuf (prevOut : Option Addr)
    (hmalloc : ∀ ptr ∈ env.malloc, ptr ∉ s.mgr.heap.map Prod.fst) :
    (∀ out, s.checkGetInBuf g env p prevOut = some out → out.2.Good ports) ∧
      (g.isInplaceNblcFromExtInput p ≠ none → (s.checkGetInBuf g env p prevOut).isSome) := by
  unfold TopoPorts.checkGetInBuf
  by_cases hhas : (s.bufs p).dataPtr ≠ none
  · rw [if_pos hhas]
    refine ⟨?_, fun _ => rfl⟩
    rintro _ ⟨⟩
    exact h
  rw [if_neg hhas]
  rw [not_not] at hhas
  generalize prevOut.filter _ = found
  cases found with
  | some out =>
    refine ⟨?_, fun _ => rfl⟩
    rintro _ ⟨⟩
    exact h.share hports hlength hp hhas out
  | none =>
    cases hend : g.inNblcEnd p with
    | none => exact h.ask hports hp rfl _ hmalloc _
    | some nblcEnd =>
      cases hwalk : g.isInplaceNblcFromExtInput p with
      | none =>
        refine ⟨?_, fun hends => absurd rfl hends⟩
        rintro _ ⟨⟩
      | some inplace =>
        cases inplace with
        | false => exact h.ask hports hp rfl _ hmalloc _
        | true =>
          dsimp only
          set lent := (s.bufs nblcEnd).dataPtr ≠ none ∧
            ¬ ((g.attrs p).pcmNotInterleaved ∨ (g.attrs nblcEnd).pcmNotInterleaved)
          by_cases hlend : lent
          · rw [if_pos hlend]
            have horigin : BufOrigin.bufMgrBorrowed ≠ .bufMgr := nofun
            exact (h.borrow (g.attrs nblcEnd) hhas nblcEnd horigin).ask hports hp rfl _ hmalloc _
          · rw [if_neg hlend]
            exact h.ask hports hp rfl _ hmalloc _

end

/-! ## Giving back -/

lemma Good.clearPtr (h : s.Good ports) (hnone : (s.bufs p).managed = none) :
    (s.clearPtr p).Good ports := by
  unfold TopoPorts.clearPtr
  split_ifs with hext
  · refine h.setBuf ?_
    rw [hnone]
    exact managed_of_dataPtr rfl
  · exact h

section

variable (h : s.Good ports) (hports : ports.Nodup) (g : TopoGraph)
include h hports

/-- **Returning a buffer.** -/
lemma Good.returnOneBufMgrBuf (p : Addr) :
    ∃ s', s.returnOneBufMgrBuf g p = some s' ∧ s'.Good ports := by
  unfold TopoPorts.returnOneBufMgrBuf
  cases hptr : (s.bufs p).dataPtr with
  | none => exact ⟨_, rfl, h.clearPtr (managed_of_dataPtr hptr)⟩
  | some dataPtr =>
    dsimp only
    by_cases horigin : (s.bufs p).bufOrigin = .bufMgr
    · rw [if_pos horigin]
      by_cases hheld : TopoPorts.held g p (s.bufs p) = true
      · rw [if_pos hheld]
        exact ⟨s, rfl, h⟩
      rw [if_neg hheld]
      set s₁ := if g.lowLatency then s.setBuf p { s.bufs p with forceReturnBuf := false } else s
        with hs₁
      have h₁ : s₁.Good ports := by
        rw [hs₁]
        split_ifs
        · exact h.setBuf rfl
        · exact h
      have hbuf₁ : (s₁.bufs p).bufOrigin = .bufMgr ∧ s₁.uses p = some dataPtr := by
        rw [hs₁]
        split_ifs
        · unfold uses TopoPorts.setBuf
          dsimp only
          rw [Function.update_self]
          refine ⟨horigin, ?_⟩
          unfold PortBuf.managed
          rw [if_pos (by exact horigin)]
          exact hptr
        · refine ⟨horigin, ?_⟩
          unfold uses PortBuf.managed
          rw [if_pos horigin, hptr]
      obtain ⟨held, free, h₁⟩ := h₁
      obtain ⟨m', hcall, held', free', hcounted⟩ := h₁.drop hports hbuf₁.2
      rw [hcall]
      refine ⟨_, rfl, held', free', ?_⟩
      unfold TopoPorts.clearPtr
      rw [if_pos (by rw [show ({ s₁ with mgr := m' } : TopoPorts).bufs = s₁.bufs from rfl, hbuf₁.1]; nofun)]
      rw [uses_setBuf, managed_of_dataPtr rfl]
      exact hcounted
    · rw [if_neg horigin]
      exact ⟨_, rfl, h.clearPtr (managed_of_origin horigin)⟩

/-- **Returning an empty buffer.** -/
lemma Good.checkReturnOneBufMgrBuf (p : Addr) :
    ∃ s', s.checkReturnOneBufMgrBuf g p = some s' ∧ s'.Good ports := by
  unfold TopoPorts.checkReturnOneBufMgrBuf
  split_ifs
  · exact ⟨s, rfl, h⟩
  · exact h.returnOneBufMgrBuf hports g p

/-- **Marking buffers for return.** -/
lemma Good.markPorts (list : List Addr) :
    ∃ s', TopoPorts.markPorts g list s = some s' ∧ s'.Good ports := by
  induction list generalizing s with
  | nil => exact ⟨s, rfl, h⟩
  | cons p list ih =>
    have hone : ∃ s', s.markPort g p = some s' ∧ s'.Good ports := by
      unfold TopoPorts.markPort
      split_ifs with horigin
      · refine Good.checkReturnOneBufMgrBuf ?_ hports g p
        exact h.setBuf rfl
      · exact ⟨s, rfl, h⟩
    obtain ⟨s', hmark, h'⟩ := hone
    unfold TopoPorts.markPorts
    rw [hmark]
    exact ih h'

end

/-! ## Whole runs -/

/-- A call keeps the counts, and returns if its walk ends. -/
lemma Good.call (h : s.Good ports) (hports : ports.Nodup) (hlength : ports.length < 65536)
    {c : TopoPortsCall} (hadm : s.Admitted ports c) :
    (s.step c).Good ports ∧ (WalkEnds c → (s.call c).isSome) := by
  have hstep : (∀ s', s.call c = some s' → s'.Good ports) → (s.step c).Good ports := by
    intro hgood
    unfold step
    cases hcall : s.call c with
    | none => exact h
    | some s' => exact hgood s' hcall
  cases c with
  | getInBuf g env inp prevOut =>
    obtain ⟨hgood, hsome⟩ := h.checkGetInBuf hports hlength hadm.1 g prevOut hadm.2
    refine ⟨hstep fun s' hcall => ?_, fun hends => ?_⟩
    · obtain ⟨out, hout, rfl⟩ := map_eq_some_iff.mp hcall
      exact hgood out hout
    · exact isSome_map.trans (hsome hends)
  | getOutBuf g env out =>
    obtain ⟨hgood, hsome⟩ := h.checkGetOutBuf hports hlength hadm.1 g hadm.2
    refine ⟨hstep fun s' hcall => ?_, fun hends => ?_⟩
    · obtain ⟨out, hout, rfl⟩ := map_eq_some_iff.mp hcall
      exact hgood out hout
    · exact isSome_map.trans (hsome hends)
  | returnOne g p =>
    obtain ⟨s', hcall, h'⟩ := h.returnOneBufMgrBuf hports g p
    refine ⟨hstep fun s'' hcall' => ?_, fun _ => isSome_iff_exists.mpr ⟨s', hcall⟩⟩
    cases hcall.symm.trans hcall'
    exact h'
  | checkReturnOne g p =>
    obtain ⟨s', hcall, h'⟩ := h.checkReturnOneBufMgrBuf hports g p
    refine ⟨hstep fun s'' hcall' => ?_, fun _ => isSome_iff_exists.mpr ⟨s', hcall⟩⟩
    cases hcall.symm.trans hcall'
    exact h'
  | markForceReturn g =>
    obtain ⟨s', hcall, h'⟩ := h.markPorts hports g
      (g.startedSortedModules.flatMap fun md => md.inputPorts ++ md.outputPorts)
    refine ⟨hstep fun s'' hcall' => ?_, fun _ => isSome_iff_exists.mpr ⟨s', hcall⟩⟩
    cases hcall.symm.trans hcall'
    exact h'

lemma good_init (ports : List Addr) (elems : Addr → TopoBufElement) (ts : UInt64)
    {bufs : Addr → PortBuf} (hbufs : ∀ p, (bufs p).managed = none) :
    (init elems ts bufs).Good ports := by
  refine ⟨[], [], ⟨⟨IsLinkedList.nil, ?_⟩, ?_, ?_, ?_, ?_⟩⟩
  · exact ⟨List.Pairwise.nil, List.Perm.refl _, nodup_nil,
      fun _ h => absurd h not_mem_nil, fun _ h => absurd h not_mem_nil, rfl, rfl, rfl, rfl⟩
  · exact fun _ h => absurd h not_mem_nil
  · exact fun _ h => absurd h not_mem_nil
  · exact fun _ h => absurd h not_mem_nil
  · intro p buf hbuf
    exact absurd (hbuf.symm.trans (hbufs p)) nofun

/-- The memory of the elements before any of them is written. -/
def blankElems : Addr → TopoBufElement := fun a => ⟨a, none, none, 0, 0, 0⟩

end TopoPorts

end AudioReach
