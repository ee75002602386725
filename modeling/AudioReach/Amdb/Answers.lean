import AudioReach.Amdb.Commands
import AudioReach.Library.Accounts
import AudioReach.Library.FirstMatch

/-!
# Every command is answered once

While a handler runs it has some packets and blocks of memory in hand: it has received or allocated
them, or has taken them from an entry of the list, and has neither passed them on nor given them up.
`Owns` says that what waits, what is done and what is in hand account for everything there ever was.
Each operation of the handlers takes something in hand or gives it away, and a handler is right when
it ends with empty hands.

Some exits end with something in hand, or give away what they do not have.  `Fits` leaves them out.
-/

namespace AudioReach

open Library List

namespace AmdbThread

/-- The commands that wait for a satellite or for the loader. -/
def pending (s : AmdbThread) : List ℕ :=
  s.cmdCtrlList.map AmdbCmdCtrl.cmdMsg ++ s.loading.map AmdbContext.gprPkt

/-- The responses that were allocated for loads. -/
def heldPkts (s : AmdbThread) : List ℕ :=
  s.loading.filterMap AmdbContext.gprRspPkt

/-- The loaned memory of the commands that wait for a satellite. -/
def heldLoans (s : AmdbThread) : List ℕ :=
  s.cmdCtrlList.filterMap AmdbCmdCtrl.loanedMem

/-- **Every command is answered once**, and nothing is lost or used after it was given up. -/
structure AnswersExact (s : AmdbThread) : Prop where
  answered : ∀ c < s.nextCmd, s.answered.count c + s.pending.count c = 1
  freed : ∀ c, s.freed.count c = s.answered.count c
  /-- A packet that was received or allocated is held for a load, or was sent or freed, once. -/
  packets : ∀ p < s.nextPkt, s.gone.count p + s.heldPkts.count p = 1
  /-- A block of loaned memory belongs to an entry or was given back, once. -/
  loans : ∀ l < s.nextLoan, s.returned.count l + s.heldLoans.count l = 1
  /-- The entries are the commands that were passed on and not answered yet. -/
  entries : ∀ c, c ∈ s.cmdCtrlList.map AmdbCmdCtrl.cmdMsg ↔ c ∈ s.forwarded ∧ c ∉ s.answered
  tokens : (s.cmdCtrlList.map AmdbCmdCtrl.token).Nodup
  unused : s.fault = false

/-! ## The conditions -/

/-- A command passed on to a satellite is entered under a new token if its packet is sent, and its
payload finds room in loaned memory. -/
def RouteFits (s : AmdbThread) (c : AmdbCmd) : Prop :=
  c.ctrl = true → c.packet = true → (c.isOutOfBand = true → c.loan = true) ∧
      (c.routed = true → c.node = true ∧ ∀ e ∈ s.cmdCtrlList, e.token ≠ s.amdbToken)

/-- A command for this processor gets the response that is allocated for it, and the response is
sent. -/
def RunFits (c : AmdbCmd) : Prop :=
  match c.opcode with
  | .registerModules | .deregisterModules | .unloadModules => True
  | .loadModules =>
    (c.isOutOfBand = false → c.rsp ≠ .noMemory) ∧ (c.requested = false → c.sent = true)
  | .getCfg => (c.isOutOfBand = false → c.rsp = .ok) ∧ c.sent = true
  | .other => False

/-- The condition on a command: no response is allocated for a command that is not run here. -/
def CmdFits (s : AmdbThread) (hostDomainId : UInt32) (c : AmdbCmd) : Prop :=
  if c.isOutOfBand = true ∧ c.mapped = false then
    True
  else if hostDomainId ≠ c.destDomainId then
    (c.opcode = .getCfg → c.isOutOfBand = false → c.rsp = .noMemory) ∧
      (c.isSatPd = true → s.RouteFits c)
  else
    RunFits c

/-- The condition on an event. -/
def Fits (hostDomainId : UInt32) (s : AmdbThread) : AmdbEvent → Prop
  | .cmd c => s.CmdFits hostDomainId c
  | .rsp r =>
    match r.opcode with
    | .loadModules => ∀ e, s.getCmdCtrlObj r.token = some e → e.cmdOpcode = .loadModules
    | .basic => True
    | .other => False
  | .satelliteDown _ => True
  | .loaded ctx sent => ctx ∈ s.loading → sent = true

/-! ## What is in hand -/

/-- What waits, what is done and what is in hand is all there ever was. -/
structure Owns (s : AmdbThread) (cmds pkts loans : List ℕ) : Prop where
  cmd : Accounted s.nextCmd (cmds ++ (s.answered ++ s.pending))
  freed : s.freed = s.answered
  pkt : Accounted s.nextPkt (pkts ++ (s.gone ++ s.heldPkts))
  loan : Accounted s.nextLoan (loans ++ (s.returned ++ s.heldLoans))
  /-- The entries are the commands that were passed on and not answered yet. -/
  entries : ∀ c, c ∈ s.cmdCtrlList.map AmdbCmdCtrl.cmdMsg → c ∈ s.forwarded
  /-- What was passed on waits, was answered or is in hand. -/
  forwarded : ∀ c ∈ s.forwarded, c ∈ cmds ∨ c ∈ s.answered ∨
    c ∈ s.cmdCtrlList.map AmdbCmdCtrl.cmdMsg
  tokens : (s.cmdCtrlList.map AmdbCmdCtrl.token).Nodup
  /-- The entries are allocated at distinct addresses. -/
  ptrs : (s.cmdCtrlList.map AmdbCmdCtrl.ptr).Nodup
  ptrLt : ∀ e ∈ s.cmdCtrlList, e.ptr < s.nextPtr
  unused : s.fault = false

lemma owns_init : (init).Owns [] [] [] where
  cmd := accounted_nil
  freed := rfl
  pkt := accounted_nil
  loan := accounted_nil
  entries _ h := by cases h
  forwarded _ h := by cases h
  tokens := nodup_nil
  ptrs := nodup_nil
  ptrLt _ h := by cases h
  unused := rfl

lemma filterMap_cons_toList {α β : Type*} (f : α → Option β) (a : α) (l : List α) :
    (a :: l).filterMap f = (f a).toList ++ l.filterMap f := by
  rw [filterMap_cons]
  cases f a <;> rfl

section Rules

variable {s : AmdbThread} {c p l : ℕ} {cmds pkts loans : List ℕ} {e : AmdbCmdCtrl}

lemma Owns.answersExact (h : s.Owns [] [] []) : s.AnswersExact := by
  have hcmd : Accounted s.nextCmd (s.answered ++ s.pending) := h.cmd
  have hpkt : Accounted s.nextPkt (s.gone ++ s.heldPkts) := h.pkt
  have hloan : Accounted s.nextLoan (s.returned ++ s.heldLoans) := h.loan
  refine ⟨fun _ hc => hcmd.split hc, fun c => by rw [h.freed], fun _ hp => hpkt.split hp,
    fun _ hl => hloan.split hl, fun c => ⟨fun hc => ⟨h.entries c hc, fun hans => ?_⟩, ?_⟩,
    h.tokens, h.unused⟩
  · have hdisj := disjoint_of_nodup_append hcmd.nodup
    exact hdisj hans (mem_append_left _ hc)
  · rintro ⟨hfwd, hans⟩
    rcases h.forwarded c hfwd with hnil | hans' | hc
    · cases hnil
    · exact absurd hans' hans
    · exact hc

lemma Owns.receive (h : s.Owns cmds pkts loans) :
    ({ s with nextCmd := s.nextCmd + 1 } : AmdbThread).Owns (s.nextCmd :: cmds) pkts loans :=
  { h with
    cmd := h.cmd.cons
    forwarded := fun c hc => (h.forwarded c hc).imp_left (mem_cons_of_mem _) }

/-- A command in hand is answered and freed. -/
lemma Owns.endCommand (h : s.Owns (c :: cmds) pkts loans) :
    (s.endCommand c).Owns cmds pkts loans := by
  have hnot : c ∉ s.answered := by
    intro hans
    have hnodup := h.cmd.nodup
    rw [cons_append, nodup_cons] at hnodup
    exact hnodup.1 (mem_append_right _ (mem_append_left _ hans))
  have hfault : (s.endCommand c).fault = false := by
    have hnot' : s.freed.contains c = false := by
      rw [h.freed]
      simpa using hnot
    simp only [AmdbThread.endCommand, answer, freeCmd, h.unused, hnot', Bool.or_self]
  refine { h with cmd := ?_, freed := ?_, forwarded := fun c' hc' => ?_, unused := hfault }
  · have hmiddle : (cmds ++ c :: (s.answered ++ s.pending)).Perm
        (c :: (cmds ++ (s.answered ++ s.pending))) := perm_middle
    exact h.cmd.perm hmiddle.symm
  · exact congrArg (c :: ·) h.freed
  · rcases h.forwarded c' hc' with hmem | hans | hwait
    · rcases mem_cons.mp hmem with rfl | hmem
      · exact Or.inr (Or.inl (mem_cons_self ..))
      · exact Or.inl hmem
    · exact Or.inr (Or.inl (mem_cons_of_mem _ hans))
    · exact Or.inr (Or.inr hwait)

lemma Owns.newPkt (h : s.Owns cmds pkts loans) : (s.newPkt).Owns cmds (s.nextPkt :: pkts) loans :=
  { h with pkt := h.pkt.cons }

section

variable (h : s.Owns cmds (p :: pkts) loans)
include h

lemma Owns.not_gone : s.gone.contains p = false := by
  have hnodup := h.pkt.nodup
  rw [cons_append, nodup_cons] at hnodup
  have hnot : p ∉ s.gone := fun hmem =>
    hnodup.1 (mem_append_right _ (mem_append_left _ hmem))
  simpa using hnot

lemma Owns.usePkt : (s.usePkt (some p)).Owns cmds (p :: pkts) loans :=
  { h with unused := by simp only [AmdbThread.usePkt, h.unused, h.not_gone, Bool.or_self] }

lemma Owns.finishPkt : (s.finishPkt p).Owns cmds pkts loans :=
  have hmiddle : (pkts ++ p :: (s.gone ++ s.heldPkts)).Perm
      (p :: (pkts ++ (s.gone ++ s.heldPkts))) := perm_middle
  { h with
    pkt := h.pkt.perm hmiddle.symm
    unused := by simp only [AmdbThread.finishPkt, h.unused, h.not_gone, Bool.or_self] }

end

lemma Owns.freeLoaned {l : Option ℕ} (h : s.Owns cmds pkts (l.toList ++ loans)) :
    (s.freeLoaned l).Owns cmds pkts loans := by
  refine { h with loan := h.loan.perm ?_ }
  change (l.toList ++ loans ++ (s.returned ++ s.heldLoans)).Perm
    (loans ++ (l.toList ++ s.returned ++ s.heldLoans))
  rw [append_assoc, append_assoc]
  exact (perm_append_comm_assoc ..)

/-- An entry is taken out of the list; what it had is in hand. -/
lemma Owns.takeEntry (h : s.Owns cmds pkts loans) (he : e ∈ s.cmdCtrlList) :
    (s.clearCmdCtrl e.ptr).Owns (e.cmdMsg :: cmds) pkts (e.loanedMem.toList ++ loans) := by
  have hfind : s.cmdCtrlList.find? (fun e' => e'.ptr = e.ptr) = some e := by
    rcases hfind : s.cmdCtrlList.find? (fun e' => e'.ptr = e.ptr) with _ | e'
    · exact absurd (find?_eq_none.mp hfind e he) (by simp)
    · have hptr : e'.ptr = e.ptr := by simpa using find?_some hfind
      have heq := inj_on_of_nodup_map h.ptrs (mem_of_find?_eq_some hfind) he hptr
      rw [heq] at hfind
      exact hfind
  have hperm := perm_cons_eraseP hfind
  have hsub : (s.cmdCtrlList.eraseP fun e' => e'.ptr = e.ptr).Sublist s.cmdCtrlList :=
    eraseP_sublist
  refine
    { h with
      cmd := h.cmd.perm ?_
      loan := h.loan.perm ?_
      entries := fun c hc => h.entries c ((hsub.map _).subset hc)
      forwarded := fun c hc => ?_
      tokens := h.tokens.sublist (hsub.map _)
      ptrs := h.ptrs.sublist (hsub.map _)
      ptrLt := fun e' he' => h.ptrLt e' (hsub.subset he') }
  · have hmap := hperm.map AmdbCmdCtrl.cmdMsg
    refine (((hmap.append_right _).append_left s.answered).append_left cmds).trans ?_
    exact (perm_middle.append_left cmds).trans perm_middle
  · have hmap := hperm.filterMap AmdbCmdCtrl.loanedMem
    rw [filterMap_cons_toList] at hmap
    refine ((hmap.append_left s.returned).append_left loans).trans ?_
    rw [append_assoc]
    refine ((perm_append_comm_assoc ..).append_left loans).trans ?_
    exact perm_append_comm_assoc ..
  · rcases h.forwarded c hc with hmem | hans | hwait
    · exact Or.inl (mem_cons_of_mem _ hmem)
    · exact Or.inr (Or.inl hans)
    · have hmap := (hperm.map AmdbCmdCtrl.cmdMsg).subset hwait
      rcases mem_cons.mp hmap with rfl | hrest
      · exact Or.inl (mem_cons_self ..)
      · exact Or.inr (Or.inr hrest)

lemma Owns.not_forwarded (h : s.Owns [] pkts loans) : s.nextCmd ∉ s.forwarded := by
  intro hmem
  have hcmd : Accounted s.nextCmd (s.answered ++ s.pending) := h.cmd
  rcases h.forwarded _ hmem with hnil | hans | hwait
  · cases hnil
  · exact absurd (hcmd.lt (mem_append_left _ hans)) (Nat.lt_irrefl _)
  · have hlt := hcmd.lt (mem_append_right _ (mem_append_left _ hwait))
    exact absurd hlt (Nat.lt_irrefl _)

variable {ctx : AmdbContext} {cmd : AmdbCmd} {host : UInt32}

/-- The load of a command in hand waits for its callback. -/
lemma Owns.startLoad (h : s.Owns (ctx.gprPkt :: cmds) (ctx.gprRspPkt.toList ++ pkts) loans)
    (hnew : ctx.gprPkt ∉ s.forwarded) :
    ({ s with loading := ctx :: s.loading } : AmdbThread).Owns cmds pkts loans := by
  refine
    { h with
      cmd := h.cmd.perm ?_
      pkt := h.pkt.perm ?_
      forwarded := fun c hc => ?_ }
  · refine perm_middle.symm.trans (List.Perm.append_left cmds ?_)
    refine perm_middle.symm.trans (List.Perm.append_left s.answered ?_)
    exact perm_middle.symm
  · change (ctx.gprRspPkt.toList ++ pkts ++ (s.gone ++ s.heldPkts)).Perm
      (pkts ++ (s.gone ++ (ctx :: s.loading).filterMap AmdbContext.gprRspPkt))
    rw [filterMap_cons_toList, append_assoc]
    refine (perm_append_comm_assoc ..).trans (List.Perm.append_left pkts ?_)
    exact perm_append_comm_assoc ..
  · rcases h.forwarded c hc with hmem | hrest
    · rcases mem_cons.mp hmem with rfl | hmem
      · exact absurd hc hnew
      · exact Or.inl hmem
    · exact Or.inr hrest

/-- A load is called back; what it had is in hand. -/
lemma Owns.endLoad (h : s.Owns cmds pkts loans) (hctx : ctx ∈ s.loading) :
    ({ s with loading := s.loading.erase ctx } : AmdbThread).Owns (ctx.gprPkt :: cmds)
      (ctx.gprRspPkt.toList ++ pkts) loans := by
  have hperm := perm_cons_erase hctx
  refine
    { h with
      cmd := h.cmd.perm ?_
      pkt := h.pkt.perm ?_
      forwarded := fun c hc => (h.forwarded c hc).imp_left (mem_cons_of_mem _) }
  · have hmap := hperm.map AmdbContext.gprPkt
    refine (((hmap.append_left (s.cmdCtrlList.map AmdbCmdCtrl.cmdMsg)).append_left
      s.answered).append_left cmds).trans ?_
    refine ((perm_middle.append_left s.answered).append_left cmds).trans ?_
    exact (perm_middle.append_left cmds).trans perm_middle
  · have hmap := hperm.filterMap AmdbContext.gprRspPkt
    rw [filterMap_cons_toList] at hmap
    refine ((hmap.append_left s.gone).append_left pkts).trans ?_
    rw [append_assoc]
    refine ((perm_append_comm_assoc ..).append_left pkts).trans ?_
    exact perm_append_comm_assoc ..

lemma Owns.newLoan (h : s.Owns cmds pkts loans) :
    ({ s with nextLoan := s.nextLoan + 1 } : AmdbThread).Owns cmds pkts (s.nextLoan :: loans) :=
  { h with loan := h.loan.cons }

lemma Owns.newCtrl (h : s.Owns cmds pkts loans) (token : UInt32) :
    ({ s with amdbToken := token, nextPtr := s.nextPtr + 1 } : AmdbThread).Owns cmds pkts loans :=
  { h with ptrLt := fun e he => Nat.lt_succ_of_lt (h.ptrLt e he) }

/-- A command in hand is passed on and entered. -/
lemma Owns.forward (h : s.Owns (e.cmdMsg :: cmds) pkts (e.loanedMem.toList ++ loans))
    (hptr : e.ptr = s.nextPtr) (htoken : ∀ e' ∈ s.cmdCtrlList, e'.token ≠ e.token)
    (token : UInt32) :
    ({ s with
      cmdCtrlList := s.cmdCtrlList ++ [e]
      amdbToken := token
      nextPtr := s.nextPtr + 1
      forwarded := e.cmdMsg :: s.forwarded } : AmdbThread).Owns cmds pkts loans where
  cmd := by
    refine h.cmd.perm ?_
    change (e.cmdMsg :: (cmds ++ (s.answered ++ (s.cmdCtrlList.map AmdbCmdCtrl.cmdMsg ++
      s.loading.map AmdbContext.gprPkt)))).Perm
      (cmds ++ (s.answered ++ ((s.cmdCtrlList ++ [e]).map AmdbCmdCtrl.cmdMsg ++
        s.loading.map AmdbContext.gprPkt)))
    rw [map_append, append_assoc, map_singleton]
    refine perm_middle.symm.trans (List.Perm.append_left cmds ?_)
    refine perm_middle.symm.trans (List.Perm.append_left s.answered ?_)
    exact perm_middle.symm
  freed := h.freed
  pkt := h.pkt
  loan := by
    refine h.loan.perm ?_
    change (e.loanedMem.toList ++ loans ++ (s.returned ++ s.heldLoans)).Perm
      (loans ++ (s.returned ++ (s.cmdCtrlList ++ [e]).filterMap AmdbCmdCtrl.loanedMem))
    rw [filterMap_append, filterMap_cons_toList, filterMap_nil, append_nil, append_assoc]
    refine (perm_append_comm_assoc ..).trans (List.Perm.append_left loans ?_)
    refine (perm_append_comm_assoc ..).trans (List.Perm.append_left s.returned ?_)
    exact perm_append_comm
  entries c hc := by
    rw [map_append, map_singleton] at hc
    rcases mem_append.mp hc with hc | hc
    · exact mem_cons_of_mem _ (h.entries c hc)
    · rw [mem_singleton.mp hc]
      exact mem_cons_self ..
  forwarded c hc := by
    rw [map_append, map_singleton]
    have hself : e.cmdMsg ∈ s.cmdCtrlList.map AmdbCmdCtrl.cmdMsg ++ [e.cmdMsg] :=
      mem_append_right _ (mem_singleton_self _)
    rcases mem_cons.mp hc with rfl | hc
    · exact Or.inr (Or.inr hself)
    · rcases h.forwarded c hc with hmem | hans | hwait
      · rcases mem_cons.mp hmem with rfl | hmem
        · exact Or.inr (Or.inr hself)
        · exact Or.inl hmem
      · exact Or.inr (Or.inl hans)
      · exact Or.inr (Or.inr (mem_append_left _ hwait))
  tokens := by
    rw [map_append, map_singleton]
    refine nodup_append'.mpr ⟨h.tokens, nodup_singleton _, fun t ht ht' => ?_⟩
    obtain ⟨e', he', rfl⟩ := mem_map.mp ht
    exact htoken e' he' (mem_singleton.mp ht')
  ptrs := by
    rw [map_append, map_singleton]
    refine nodup_append'.mpr ⟨h.ptrs, nodup_singleton _, fun q hq hq' => ?_⟩
    obtain ⟨e', he', rfl⟩ := mem_map.mp hq
    have hlt := h.ptrLt e' he'
    have heq := mem_singleton.mp hq'
    omega
  ptrLt e' he' := by
    rcases mem_append.mp he' with he' | he'
    · exact Nat.lt_succ_of_lt (h.ptrLt e' he')
    · rw [mem_singleton.mp he', hptr]
      exact Nat.lt_succ_self _
  unused := h.unused

lemma map_write_insert {xs : List AmdbCmdCtrl} (e e' : AmdbCmdCtrl) (hptr : e.ptr = e'.ptr)
    (hne : ∀ x ∈ xs, x.ptr ≠ e'.ptr) (node : Bool) :
    ((if node then xs ++ [e] else xs).map fun x => if x.ptr = e'.ptr then e' else x) =
      if node then xs ++ [e'] else xs := by
  have hold : (xs.map fun x => if x.ptr = e'.ptr then e' else x) = xs := by
    refine (map_congr_left fun x hx => ?_).trans (map_id xs)
    rw [if_neg (hne x hx), id]
  cases node
  · exact hold
  · rw [if_pos rfl, if_pos rfl, map_append, hold, map_singleton, if_pos hptr]

lemma eraseP_insert {xs : List AmdbCmdCtrl} {e : AmdbCmdCtrl} (hne : ∀ x ∈ xs, x.ptr ≠ e.ptr)
    (node : Bool) :
    ((if node then xs ++ [e] else xs).eraseP fun x => x.ptr = e.ptr) = xs := by
  have hold : ∀ x ∈ xs, ¬ decide (x.ptr = e.ptr) = true := fun x hx => by
    rw [decide_eq_true_iff]
    exact hne x hx
  cases node
  · exact eraseP_of_forall_not hold
  · rw [if_pos rfl, eraseP_append_right _ hold]
    simp

lemma setCmdCtrl_of_ctrl (hctrl : cmd.ctrl = true) (n : ℕ) (dst : UInt32) : s.setCmdCtrl cmd n dst =
      (some ⟨s.nextPtr, s.amdbToken, cmd.opcode, n, dst, false, none⟩,
        { s with
          cmdCtrlList := if cmd.node then
            s.cmdCtrlList ++ [⟨s.nextPtr, s.amdbToken, cmd.opcode, n, dst, false, none⟩]
            else s.cmdCtrlList
          amdbToken := s.amdbToken + 1
          nextPtr := s.nextPtr + 1 }) := by
  unfold setCmdCtrl
  rw [if_pos hctrl]

/-- A command in hand is passed on to a satellite, or it stays in hand. -/
lemma Owns.route (h : s.Owns (c :: cmds) pkts loans) (dst : UInt32) (hfits : s.RouteFits cmd) :
    (∃ s', s.routeCmdToSatellite cmd c dst = (true, s') ∧ s'.Owns cmds pkts loans) ∨
      ∃ s', s.routeCmdToSatellite cmd c dst = (false, s') ∧ s'.Owns (c :: cmds) pkts loans := by
  have hne : ∀ x ∈ s.cmdCtrlList, x.ptr ≠ s.nextPtr := fun x hx =>
    Nat.ne_of_lt (h.ptrLt x hx)
  unfold routeCmdToSatellite
  rcases hctrl : cmd.ctrl with _ | _
  · right
    refine ⟨s, ?_, h⟩
    unfold setCmdCtrl
    rw [hctrl]
    rfl
  · rw [setCmdCtrl_of_ctrl hctrl]
    dsimp only
    rcases hpacket : cmd.packet with _ | _
    · right
      refine ⟨_, if_neg Bool.false_ne_true, ?_⟩
      unfold clearCmdCtrl
      rw [eraseP_insert (e := ⟨s.nextPtr, s.amdbToken, cmd.opcode, c, dst, false, none⟩) hne]
      exact h.newCtrl _
    · obtain ⟨hloan, hrouted⟩ := hfits hctrl hpacket
      rw [if_pos rfl]
      rcases hoob : cmd.isOutOfBand with _ | _
      · rw [Bool.false_and, if_neg Bool.false_ne_true, if_neg Bool.false_ne_true,
          if_neg Bool.false_ne_true]
        rcases hsent : cmd.routed with _ | _
        · right
          refine ⟨_, if_neg Bool.false_ne_true, ?_⟩
          unfold clearCmdCtrl
          dsimp only [AmdbThread.freeLoaned, AmdbThread.finishPkt, AmdbThread.newPkt]
          rw [eraseP_insert (e := ⟨s.nextPtr, s.amdbToken, cmd.opcode, c, dst, false, none⟩) hne]
          exact (h.newCtrl _).newPkt.finishPkt
        · left
          obtain ⟨hnode, htoken⟩ := hrouted hsent
          refine ⟨_, if_pos rfl, ?_⟩
          rw [hnode]
          exact (Owns.forward (e := ⟨s.nextPtr, s.amdbToken, cmd.opcode, c, dst, false, none⟩)
            h.newPkt.finishPkt rfl htoken (s.amdbToken + 1))
      · rw [hloan hoob, Bool.not_true, Bool.and_false, if_neg Bool.false_ne_true, if_pos rfl,
          if_pos rfl]
        unfold writeCmdCtrl
        dsimp only [AmdbThread.newPkt]
        rw [map_write_insert ⟨s.nextPtr, s.amdbToken, cmd.opcode, c, dst, false, none⟩
          ⟨s.nextPtr, s.amdbToken, cmd.opcode, c, dst, true, some s.nextLoan⟩ rfl hne]
        rcases hsent : cmd.routed with _ | _
        · right
          refine ⟨_, if_neg Bool.false_ne_true, ?_⟩
          unfold clearCmdCtrl
          dsimp only [AmdbThread.freeLoaned, AmdbThread.finishPkt]
          rw [eraseP_insert
            (e := ⟨s.nextPtr, s.amdbToken, cmd.opcode, c, dst, true, some s.nextLoan⟩) hne]
          have hall := (h.newCtrl (s.amdbToken + 1)).newPkt.newLoan.finishPkt
          exact hall.freeLoaned (l := some s.nextLoan)
        · left
          obtain ⟨hnode, htoken⟩ := hrouted hsent
          refine ⟨_, if_pos rfl, ?_⟩
          rw [hnode]
          exact Owns.forward
            (e := ⟨s.nextPtr, s.amdbToken, cmd.opcode, c, dst, true, some s.nextLoan⟩)
            h.newPkt.newLoan.finishPkt rfl htoken (s.amdbToken + 1)

/-! ## The handlers -/

lemma Owns.loadSendRsp (h : s.Owns (ctx.gprPkt :: cmds) (ctx.gprRspPkt.toList ++ pkts) loans) :
    (s.loadSendRsp ctx true).Owns cmds pkts loans := by
  unfold AmdbThread.loadSendRsp
  rcases hrsp : ctx.gprRspPkt with _ | p
  · rw [hrsp] at h
    exact h.endCommand
  · rw [hrsp] at h
    exact h.finishPkt.endCommand

lemma Owns.loadModules (ctx : AmdbContext)
    (h : s.Owns (ctx.gprPkt :: cmds) (ctx.gprRspPkt.toList ++ pkts) loans)
    (hnew : ctx.gprPkt ∉ s.forwarded) (hsent : cmd.requested = false → cmd.sent = true) :
    (s.loadModules cmd ctx).Owns cmds pkts loans := by
  unfold AmdbThread.loadModules
  split
  · exact h.startLoad hnew
  · rename_i hreq
    rw [hsent (Bool.eq_false_iff.mpr hreq)]
    exact h.loadSendRsp

/-- A command for this processor; only an in-band get-config has a response by now. -/
lemma Owns.runCmd {rsp : Option ℕ} (h : s.Owns [c] rsp.toList [])
    (hnew : c ∉ s.forwarded) (hfits : RunFits cmd)
    (hrsp : rsp.isSome = true ↔ cmd.opcode = .getCfg ∧ cmd.isOutOfBand = false) :
    (s.runCmd cmd c rsp).Owns [] [] [] := by
  have hnone : (cmd.opcode ≠ .getCfg ∨ cmd.isOutOfBand = true) → rsp = none := by
    intro hcmd
    refine Option.not_isSome_iff_eq_none.mp fun hsome => ?_
    obtain ⟨hcfg, hin⟩ := hrsp.mp hsome
    rcases hcmd with hne | hout
    · exact hne hcfg
    · rw [hin] at hout
      cases hout
  unfold AmdbThread.runCmd
  unfold RunFits at hfits
  rcases hop : cmd.opcode with _ | _ | _ | _ | _ | _
  · rw [hnone (Or.inl (by rw [hop]; simp))] at h
    exact h.endCommand
  · rw [hnone (Or.inl (by rw [hop]; simp))] at h
    exact h.endCommand
  · rw [hop] at hfits
    obtain ⟨halloc, hsent⟩ := hfits
    rw [hnone (Or.inl (by rw [hop]; simp))] at h
    dsimp only
    split
    · exact Owns.loadModules ⟨none, c⟩ h hnew hsent
    · rename_i hin
      have halloc := halloc (Bool.eq_false_iff.mpr hin)
      rcases hrspAlloc : cmd.rsp with _ | _ | _
      · exact Owns.loadModules ⟨some s.nextPkt, c⟩ h.newPkt hnew hsent
      · exact absurd hrspAlloc halloc
      · exact Owns.loadModules ⟨some s.nextPkt, c⟩ h.newPkt hnew hsent
  · rw [hnone (Or.inl (by rw [hop]; simp))] at h
    exact h.endCommand
  · rw [hop] at hfits
    obtain ⟨-, hsent⟩ := hfits
    dsimp only
    rw [if_pos hsent]
    rcases hout : cmd.isOutOfBand with _ | _
    · obtain ⟨p, rfl⟩ := Option.isSome_iff_exists.mp (hrsp.mpr ⟨hop, hout⟩)
      exact h.usePkt.finishPkt.endCommand
    · rw [hnone (Or.inr hout)] at h ⊢
      exact h.endCommand
  · rw [hop] at hfits
    exact hfits.elim

/-- A command is run here or passed on; what is passed on has no response yet. -/
lemma Owns.dispatchCmd (rsp : Option ℕ) (h : s.Owns [c] rsp.toList []) (hnew : c ∉ s.forwarded)
    (hroute : host ≠ cmd.destDomainId → rsp = none ∧ (cmd.isSatPd = true → s.RouteFits cmd))
    (hrun : host = cmd.destDomainId →
      RunFits cmd ∧ (rsp.isSome = true ↔ cmd.opcode = .getCfg ∧ cmd.isOutOfBand = false)) :
    (s.dispatchCmd host cmd c rsp).Owns [] [] [] := by
  have huse : ∃ s', (if rsp.isSome then s.usePkt rsp else s) = s' ∧ s'.Owns [c] rsp.toList [] ∧
      s'.forwarded = s.forwarded ∧ s'.cmdCtrlList = s.cmdCtrlList ∧
      s'.amdbToken = s.amdbToken := by
    cases rsp with
    | none => exact ⟨s, rfl, h, rfl, rfl, rfl⟩
    | some p => exact ⟨_, rfl, h.usePkt, rfl, rfl, rfl⟩
  obtain ⟨s', hs', h', hfwd, hlist, htoken⟩ := huse
  unfold AmdbThread.dispatchCmd
  dsimp only
  rw [hs']
  split
  · rename_i hne
    obtain ⟨hnone, hfits⟩ := hroute hne
    rw [hnone] at h'
    split
    · rename_i hsat
      have hfits' : s'.RouteFits cmd := by
        unfold RouteFits
        rw [hlist, htoken]
        exact hfits hsat
      rcases h'.route cmd.destDomainId hfits' with
        ⟨s'', heq, hown⟩ | ⟨s'', heq, hown⟩
      · rw [heq]
        exact hown
      · rw [heq]
        exact hown.endCommand
    · exact h'.endCommand
  · rename_i heq
    obtain ⟨hfits, hrsp⟩ := hrun (not_not.mp heq)
    exact h'.runCmd (by rw [hfwd]; exact hnew) hfits hrsp

/-- **A command is answered or waits.** -/
theorem Owns.cmdqGprCmdHandler (h : s.Owns [] [] [])
    (hfits : s.CmdFits host cmd) : (s.cmdqGprCmdHandler host cmd).Owns [] [] [] := by
  have hrec := h.receive
  have hnew := h.not_forwarded
  unfold CmdFits at hfits
  unfold AmdbThread.cmdqGprCmdHandler getCmdPayloadAddr
  rcases hout : cmd.isOutOfBand with _ | _
  · rw [hout, if_neg (by simp)] at hfits
    by_cases hcfg : cmd.opcode = .getCfg
    · rw [if_pos hcfg]
      rcases hrsp : cmd.rsp with _ | _ | _
      · refine Owns.dispatchCmd (some s.nextPkt) hrec.newPkt hnew (fun hne => ?_)
          fun heq => ?_
        · rw [if_pos hne] at hfits
          have := hfits.1 hcfg rfl
          rw [hrsp] at this
          cases this
        · rw [if_neg (not_not.mpr heq)] at hfits
          exact ⟨hfits, fun _ => ⟨hcfg, hout⟩, fun _ => rfl⟩
      · refine Owns.dispatchCmd none hrec hnew (fun hne => ?_) fun heq => ?_
        · rw [if_pos hne] at hfits
          exact ⟨rfl, hfits.2⟩
        · rw [if_neg (not_not.mpr heq)] at hfits
          unfold RunFits at hfits
          rw [hcfg] at hfits
          have := hfits.1 hout
          rw [hrsp] at this
          cases this
      · by_cases heq : host = cmd.destDomainId
        · rw [if_neg (not_not.mpr heq)] at hfits
          unfold RunFits at hfits
          rw [hcfg] at hfits
          have := hfits.1 hout
          rw [hrsp] at this
          cases this
        · rw [if_pos heq] at hfits
          have := hfits.1 hcfg rfl
          rw [hrsp] at this
          cases this
    · rw [if_neg hcfg]
      refine Owns.dispatchCmd none hrec hnew (fun hne => ?_) fun heq => ?_
      · rw [if_pos hne] at hfits
        exact ⟨rfl, hfits.2⟩
      · rw [if_neg (not_not.mpr heq)] at hfits
        exact ⟨hfits, fun hsome => (by cases hsome), fun hand => absurd hand.1 hcfg⟩
  · rcases hmapped : cmd.mapped with _ | _
    · exact hrec.endCommand
    · rw [hout, hmapped, if_neg (by simp)] at hfits
      refine Owns.dispatchCmd none hrec hnew (fun hne => ?_) fun heq => ?_
      · rw [if_pos hne] at hfits
        exact ⟨rfl, hfits.2⟩
      · rw [if_neg (not_not.mpr heq)] at hfits
        refine ⟨hfits, fun hsome => (by cases hsome), fun hand => ?_⟩
        rw [hout] at hand
        cases hand.2

lemma Owns.finishEntry (h : s.Owns cmds pkts loans) (he : e ∈ s.cmdCtrlList) :
    (((s.endCommand e.cmdMsg).freeLoaned e.loanedMem).clearCmdCtrl e.ptr).Owns cmds pkts loans :=
  (h.takeEntry he).endCommand.freeLoaned

/-- A response is received; it ends at most the command it has the token of. -/
theorem Owns.rspqGprRspHandler (h : s.Owns [] [] []) {r : AmdbRsp}
    (hfits : s.Fits host (.rsp r)) : (s.rspqGprRspHandler r).Owns [] [] [] := by
  have hrec := h.newPkt
  unfold AmdbThread.rspqGprRspHandler
  unfold Fits at hfits
  dsimp only at hfits ⊢
  rcases hop : r.opcode with _ | _ | _
  · rw [hop] at hfits
    unfold routeLoadRspToClient
    rcases hfind : s.newPkt.getCmdCtrlObj r.token with _ | e
    · exact hrec.finishPkt
    · have he : e ∈ s.cmdCtrlList := mem_of_find?_eq_some hfind
      have hload : ¬ e.cmdOpcode ≠ .loadModules := not_not.mpr (hfits e hfind)
      dsimp only
      rw [if_neg hload]
      rcases r.packet with _ | _
      · exact hrec.finishPkt.finishEntry he
      · have hown := hrec.newPkt.finishPkt.finishPkt.finishEntry he
        rcases r.sent with _ | _
        · exact hown
        · exact hown
  · unfold routeBasicRspToClient
    rcases hfind : s.newPkt.getCmdCtrlObj r.token with _ | e
    · exact hrec.finishPkt
    · have he : e ∈ s.cmdCtrlList := mem_of_find?_eq_some hfind
      exact hrec.finishPkt.finishEntry he
  · rw [hop] at hfits
    exact hfits.elim

/-- A satellite goes down: its commands are ended, one after the other. -/
theorem Owns.cleanUpProcIdCmdCtrl (h : s.Owns [] [] []) (procDomainId : UInt32) :
    (s.cleanUpProcIdCmdCtrl procDomainId).Owns [] [] [] := by
  have hloop : ∀ (xs : List AmdbCmdCtrl) (s : AmdbThread), s.Owns [] [] [] →
      (xs.map AmdbCmdCtrl.ptr).Nodup → (∀ e ∈ xs, e ∈ s.cmdCtrlList) →
      (xs.foldl (fun s e =>
        if e.dstDomainId = procDomainId then
          ((s.endCommand e.cmdMsg).freeLoaned e.loanedMem).clearCmdCtrl e.ptr
        else s) s).Owns [] [] [] := by
    intro xs
    induction xs with
    | nil => exact fun s h _ _ => h
    | cons e xs ih =>
      intro s h hnodup hmem
      rw [map_cons, nodup_cons] at hnodup
      rw [foldl_cons]
      have hhead := hmem e (mem_cons_self ..)
      have htail : ∀ e' ∈ xs, e' ∈ s.cmdCtrlList := fun e' he' =>
        hmem e' (mem_cons_of_mem _ he')
      split
      · refine ih _ (h.finishEntry hhead) hnodup.2 fun e' he' => ?_
        have hne : e'.ptr ≠ e.ptr := fun heq => hnodup.1 (heq ▸ mem_map_of_mem he')
        exact (mem_eraseP_of_neg (by simpa using hne)).mpr (htail e' he')
      · exact ih s h hnodup.2 htail
  exact hloop s.cmdCtrlList s h h.ptrs fun _ he => he

/-- **Each event ends with empty hands.** -/
theorem Owns.step (h : s.Owns [] [] []) {ev : AmdbEvent} (hfits : s.Fits host ev) :
    (AmdbThread.step host s ev).Owns [] [] [] := by
  cases ev with
  | cmd cmd => exact h.cmdqGprCmdHandler hfits
  | rsp r => exact h.rspqGprRspHandler hfits
  | satelliteDown procDomainId => exact h.cleanUpProcIdCmdCtrl procDomainId
  | loaded ctx sent =>
    change (s.loadCallback ctx sent).Owns [] [] []
    unfold loadCallback
    split
    · rename_i hctx
      rw [hfits hctx]
      exact (h.endLoad hctx).loadSendRsp
    · exact h

end Rules

/-! ## Runs -/

/-- **Every command to the module database is answered once in every run that fits**, and every
packet and block of memory is given up once. -/
theorem answers_exact (hostDomainId : UInt32) (events : List AmdbEvent)
    (hfits : Meets (step hostDomainId) (Fits hostDomainId) init events) :
    Along (step hostDomainId) AnswersExact init events := by
  have hown : Along (step hostDomainId) (fun s => s.Owns [] [] []) init events :=
    along_of_meets (fun _ _ h hfit => h.step hfit) owns_init hfits
  exact hown.mono fun _ h => h.answersExact

/-- An out-of-band command to unload modules of processor 3, for which all goes well. -/
def unloadThere : AmdbCmd where
  opcode := .unloadModules
  isOutOfBand := true
  procDomain := 3
  isSatPd := true
  mapped := true
  rsp := .ok
  ctrl := true
  node := true
  packet := true
  loan := true
  routed := true
  requested := true
  sent := true

lemma cmdFits_unloadThere {s : AmdbThread} (htoken : ∀ e ∈ s.cmdCtrlList, e.token ≠ s.amdbToken) :
    s.CmdFits 2 unloadThere := by
  exact ⟨fun hcfg => (by cases hcfg), fun _ _ _ => ⟨fun _ => rfl, fun _ => ⟨rfl, htoken⟩⟩⟩

/-- Processor 2 passes a command on, loads modules of its own, and gets the response of the
satellite, which goes down after another command. -/
theorem answers_exact_mixed : Along (step 2) AnswersExact init
      [.cmd unloadThere, .cmd { unloadThere with opcode := .loadModules, procDomain := 2 },
        .rsp ⟨.basic, 0, true, true⟩, .cmd unloadThere, .loaded ⟨none, 1⟩ true,
        .satelliteDown 3] := by
  have hload : ∀ s : AmdbThread,
      s.CmdFits 2 { unloadThere with opcode := .loadModules, procDomain := 2 } := by
    intro s
    exact ⟨fun hin => (by cases hin), fun hreq => (by cases hreq)⟩
  exact answers_exact 2 _ ⟨cmdFits_unloadThere (by decide), hload _, trivial,
    cmdFits_unloadThere (by decide), fun _ => rfl, trivial, trivial⟩

/-- There is no loaned memory for a command: it is ended, but stays in the list, and is ended again
when the satellite goes down. -/
theorem not_answers_exact_noLoan : ¬ ∀ (hostDomainId : UInt32) (events : List AmdbEvent),
      Along (step hostDomainId) AnswersExact init events := by
  intro h
  have hlast := (h 2 [.cmd { unloadThere with loan := false }, .satelliteDown 3]).last
  have hunused := hlast.unused
  revert hunused
  decide

end AmdbThread

end AudioReach
