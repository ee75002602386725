import AudioReach.ArResult
import AudioReach.Library.Words
import AudioReach.Library.Wrap

/-!
# The response packet of an in-band command

`spf_svc_alloc_rsp_payload` allocates the response of an in-band `APM_CMD_GET_CFG` and copies the
parameters that the command asks for into it, header and room for the data.  It goes from header to
header by the sizes in them, which the client has chosen.

Places in the command are counted from the end of its header and places in the response from the
beginning of its payload, which starts with the status.
-/

namespace AudioReach.GetCfg

open Library (getAt length_getAt putAt putAt_add putAt_of_outside toNat_and_mask8 wordAt)
open List (forall_mem_cons forall_mem_singleton)

/-! ## The code -/

/-- `opcode` of the command, as far as it matters. -/
inductive CmdOpcode
  /-- `APM_CMD_GET_CFG`. -/
  | getCfg
  /-- `AMDB_CMD_LOAD_MODULES`. -/
  | loadModules
  | unsupported

/-- The payload of an in-band command. -/
structure Cmd where
  /-- `cmd_payload_size`. -/
  size : UInt32
  bytes : ℕ → UInt8

/-- `param_size` of the `apm_module_param_data_t` at a place of the payload. -/
def Cmd.paramSize (cmd : Cmd) (pos : ℕ) : UInt32 := wordAt cmd.bytes (pos + 8)

/-- `ALIGN_8_BYTES`. -/
def align8Bytes (a : UInt32) : UInt32 := (a + 7) &&& 0xFFFFFFF8

/-- `curr_payload_ptr` behind a parameter. -/
def Cmd.next (cmd : Cmd) (pos : ℕ) : ℕ := pos + (align8Bytes (16 + cmd.paramSize pos)).toNat

/-- The bytes that are looked at and written, as pairs of a place and a number of bytes, the headers
that were copied, and the response. -/
structure Walk where
  headers : List ℕ
  reads : List (ℕ × ℕ)
  writes : List (ℕ × ℕ)
  rsp : ℕ → UInt8
  /-- The loop was left for `__bail_out_get_cfg_alloc`. -/
  bailOut : Bool

/-- The loop over the parameters of `APM_CMD_GET_CFG`.  A `size_t` has the width of a pointer. -/
def getCfgLoop (abi : Abi) (cmd : Cmd) : ℕ → ℕ → (ℕ → UInt8) → Option Walk
  | 0, _, _ => none
  | rounds + 1, pos, rsp =>
    if cmd.paramSize pos &&& 3 ≠ 0 ∨ cmd.size.toNat < pos ∨
        cmd.size.toNat - pos < (16 + cmd.paramSize pos).toNat then
      some ⟨[], [(pos, 12)], [], rsp, true⟩
    else
      let n := (16 + (cmd.paramSize pos).toNat) % 2 ^ (8 * abi.ptrSize)
      let copied := putAt rsp (4 + pos) (getAt cmd.bytes pos n)
      if cmd.next pos < cmd.size.toNat then
        (getCfgLoop abi cmd rounds (cmd.next pos) copied).map fun w => { w with
          headers := pos :: w.headers
          reads := (pos + 8, 4) :: (pos, n) :: w.reads
          writes := (4 + pos, n) :: w.writes }
      else some ⟨[pos], [(pos + 8, 4), (pos, n)], [(4 + pos, n)], copied, false⟩

/-- The pointers to the response that the caller sees. -/
structure Refs where
  /-- `*gpr_rsp_pkt_pptr`. -/
  rspPkt : Addr
  /-- `gpr_cmd_rsp_ptr->payload_ptr`, unless `gpr_cmd_rsp_ptr` is null. -/
  payloadPtr : Option Addr

/-- What a call does. -/
structure Outcome where
  result : ArResult
  refs : Refs
  /-- The response packets that stay allocated. -/
  held : List Addr
  freed : List Addr
  walk : Walk

/-- The spans end at the limit at the latest. -/
def Inside (limit : ℕ) (spans : List (ℕ × ℕ)) : Prop := ∀ s ∈ spans, s.1 + s.2 ≤ limit

/-- The response has the parameter, header and room for the data, where the command has it. -/
def Cmd.Echoes (cmd : Cmd) (rsp : ℕ → UInt8) (pos : ℕ) : Prop :=
  4 + pos + 16 + (cmd.paramSize pos).toNat ≤ (cmd.size + 4).toNat ∧
    ∀ j < 16 + (cmd.paramSize pos).toNat, rsp (4 + pos + j) = cmd.bytes (pos + j)

/-- **A call that does what it is for.**  It stays inside the payloads of both packets; it ends with
a response that has all parameters, or without a packet and without a pointer to one. -/
structure Outcome.Right (cmd : Cmd) (o : Outcome) : Prop where
  reads : Inside cmd.size.toNat o.walk.reads
  writes : Inside (cmd.size + 4).toNat o.walk.writes
  echoes : o.result = .eok → ∀ pos ∈ o.walk.headers, cmd.Echoes o.walk.rsp pos
  clean : o.result ≠ .eok → o.held = [] ∧
    ∀ pkt ∈ o.freed, o.refs.rspPkt ≠ pkt ∧ o.refs.payloadPtr ≠ some pkt

/-! ## Well-formed payloads -/

namespace Cmd

variable (cmd : Cmd)

/-- The parameter at a place is in the payload as a whole. -/
structure Whole (pos : ℕ) : Prop where
  aligned : cmd.paramSize pos &&& 3 = 0
  inside : pos + 16 + (cmd.paramSize pos).toNat ≤ cmd.size.toNat

/-- The payload has whole parameters from a place to its end. -/
inductive WellFormed : ℕ → Prop
  | last {pos : ℕ} (whole : cmd.Whole pos) (last : cmd.size.toNat ≤ cmd.next pos) : WellFormed pos
  | more {pos : ℕ} (whole : cmd.Whole pos) (more : cmd.next pos < cmd.size.toNat)
      (rest : WellFormed (cmd.next pos)) : WellFormed pos

variable {cmd} {abi : Abi} {pos : ℕ}

lemma Whole.toNat_modParamSize (h : cmd.Whole pos) :
    (16 + cmd.paramSize pos).toNat = 16 + (cmd.paramSize pos).toNat := by
  have hlt := cmd.size.toNat_lt
  have hinside := h.inside
  rw [UInt32.toNat_add, show (16 : UInt32).toNat = 16 from rfl, Nat.mod_eq_of_lt (by omega)]

lemma Whole.copySize (h : cmd.Whole pos) :
    (16 + (cmd.paramSize pos).toNat) % 2 ^ (8 * abi.ptrSize) = 16 + (cmd.paramSize pos).toNat := by
  have hlt := cmd.size.toNat_lt
  have hinside := h.inside
  have hpow : 2 ^ 32 ≤ 2 ^ (8 * abi.ptrSize) := by cases abi <;> decide
  exact Nat.mod_eq_of_lt (by omega)

lemma Whole.le_next (h : cmd.Whole pos) (hsize : cmd.size.toNat + 4 < 2 ^ 32) :
    pos + 16 + (cmd.paramSize pos).toNat ≤ cmd.next pos := by
  have hinside := h.inside
  have hfour : (cmd.paramSize pos).toNat % 4 = 0 := by
    have := congrArg UInt32.toNat h.aligned
    rwa [UInt32.toNat_and, show (3 : UInt32).toNat = 2 ^ 2 - 1 from rfl,
      Nat.and_two_pow_sub_one_eq_mod] at this
  rw [next, align8Bytes, toNat_and_mask8, UInt32.toNat_add, h.toNat_modParamSize,
    show (7 : UInt32).toNat = 7 from rfl, Nat.mod_eq_of_lt (by omega)]
  omega

lemma toNat_rspSize : (cmd.size + 4).toNat = (cmd.size.toNat + 4) % 2 ^ 32 := UInt32.toNat_add ..

/-- What the loop does from a place on, when it gets through. -/
structure Through (cmd : Cmd) (pos : ℕ) (rsp : ℕ → UInt8) (w : Walk) : Prop where
  bailOut : w.bailOut = false
  reads : Inside cmd.size.toNat w.reads
  writes : Inside (cmd.size + 4).toNat w.writes
  before : ∀ x < 4 + pos, w.rsp x = rsp x
  echoes : ∀ p ∈ w.headers, cmd.Echoes w.rsp p

/-- The loop gets through a well-formed payload. -/
lemma WellFormed.through (h : cmd.WellFormed pos) (hsize : cmd.size.toNat + 4 < 2 ^ 32)
    (rsp : ℕ → UInt8) : ∃ rounds w, getCfgLoop abi cmd rounds pos rsp = some w ∧
      cmd.Through pos rsp w := by
  have hrsp : (cmd.size + 4).toNat = cmd.size.toNat + 4 :=
    toNat_rspSize.trans (Nat.mod_eq_of_lt hsize)
  have hcheck : ∀ {pos}, cmd.Whole pos → ¬(cmd.paramSize pos &&& 3 ≠ 0 ∨ cmd.size.toNat < pos ∨
      cmd.size.toNat - pos < (16 + cmd.paramSize pos).toNat) := by
    rintro pos hw (hne | hlt | hlt)
    · exact hne hw.aligned
    · have := hw.inside
      omega
    · have := hw.inside
      rw [hw.toNat_modParamSize] at hlt
      omega
  -- the parameter at the place is copied, and nothing before it is touched
  have hcopy : ∀ {pos} (rsp : ℕ → UInt8), cmd.Whole pos →
      let copied := putAt rsp (4 + pos) (getAt cmd.bytes pos (16 + (cmd.paramSize pos).toNat))
      (∀ x < 4 + pos, copied x = rsp x) ∧ cmd.Echoes copied pos := by
    intro pos rsp hw
    have := hw.inside
    refine ⟨fun x hx => putAt_of_outside (.inl hx), by omega, fun j hj => putAt_add ?_⟩
    simp [getAt, hj]
  induction h generalizing rsp with
  | @last pos hw hlast =>
    have := hw.inside
    obtain ⟨hbefore, hechoes⟩ := hcopy rsp hw
    refine ⟨1, ?walk, ?run, ?_⟩
    case run =>
      unfold getCfgLoop
      rw [if_neg (hcheck hw), hw.copySize, if_neg (Nat.not_lt.mpr hlast)]
    refine ⟨rfl, ?_, ?_, hbefore, forall_mem_singleton.mpr hechoes⟩
    · exact forall_mem_cons.mpr ⟨by dsimp only; omega, forall_mem_singleton.mpr (by omega)⟩
    · exact forall_mem_singleton.mpr (by omega)
  | @more pos hw hmore _ ih =>
    obtain ⟨hbefore, hechoes⟩ := hcopy rsp hw
    obtain ⟨rounds, w, hloop, hthrough⟩ := ih (putAt rsp (4 + pos)
      (getAt cmd.bytes pos (16 + (cmd.paramSize pos).toNat)))
    have hnext := hw.le_next hsize
    refine ⟨rounds + 1, ?longer, ?round, ?_⟩
    case round =>
      unfold getCfgLoop
      rw [if_neg (hcheck hw), hw.copySize, if_pos hmore]
      exact congrArg (Option.map _) hloop
    refine ⟨hthrough.bailOut, ?_, ?_, fun x hx => ?_, ?_⟩
    · exact forall_mem_cons.mpr ⟨by dsimp only; omega,
        forall_mem_cons.mpr ⟨by dsimp only; omega, hthrough.reads⟩⟩
    · exact forall_mem_cons.mpr ⟨by dsimp only; omega, hthrough.writes⟩
    · exact (hthrough.before x (by omega)).trans (hbefore x hx)
    · refine forall_mem_cons.mpr ⟨⟨hechoes.1, fun j hj => ?_⟩, hthrough.echoes⟩
      exact (hthrough.before _ (by omega)).trans (hechoes.2 j hj)

end Cmd

/-! ## The function -/

variable {env : Env} {cmd : Cmd} {refs : Refs}

end AudioReach.GetCfg
