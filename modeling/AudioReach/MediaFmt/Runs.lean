import AudioReach.Library.Runs
import AudioReach.MediaFmt.Blocks
import Mathlib.Order.Basic

/-!
# Runs over the ports and their formats

Any number of ports set, share and release their media formats, in any order.  Beside the blocks
and the pointers of the ports, the state has what the calls ask for: the format last set for
each port, and the raw buffers that the callers handed over.
-/

namespace AudioReach

open Function (update update_eq_self update_idem update_of_ne update_self)
open List Option
open Library TopoMediaFmt

namespace TopoMfUtils

variable {maxCh : ℕ} {me : TopoMfUtils maxCh} {ι : Type*} [DecidableEq ι] {ports : List ι}
  {port : ι → Option Addr} {p : ι}

/-- A block has the bytes of a format. -/
def Listed (me : TopoMfUtils maxCh) (mf : TopoMediaFmt maxCh) : Prop :=
  ∃ a ∈ me.mfNodes, me.fmtAt a = some mf

instance (me : TopoMfUtils maxCh) (mf : TopoMediaFmt maxCh) : Decidable (me.Listed mf) :=
  inferInstanceAs (Decidable (∃ a ∈ me.mfNodes, me.fmtAt a = some mf))

/-- The raw buffer of a format that no block has yet. -/
def newBufs (me : TopoMfUtils maxCh) (mf : TopoMediaFmt maxCh) : List Addr :=
  if me.Listed mf then [] else mf.rawBufs

/-- What a call does that sets the format `mf` at the port `p`: the port points to the block
`a`, the other ports keep their formats, and each raw buffer stays owned by a block until it is
freed. -/
structure SetTo (ports : List ι) (port : ι → Option Addr) (p : ι) (mf : TopoMediaFmt maxCh)
    (me me' : TopoMfUtils maxCh) (a : Addr) : Prop where
  counted : Counted ports me' (update port p (some a))
  fmt : ∃ f, me'.fmtAt a = some f ∧ SameFmt f mf
  others : ∀ q ∈ ports, q ≠ p → ∀ b, port q = some b → me'.fmtAt b = me.fmtAt b
  /-- A raw buffer moves into a block, or out of it and back to the heap. -/
  bufs : ∃ gone, me'.freedBufs = me.freedBufs ++ gone ∧
    (me.ownedBufs ++ me.newBufs mf).Perm (gone ++ me'.ownedBufs)

lemma Released.others {me' : TopoMfUtils maxCh} (h : Released me me')
    (hcounted : Counted ports me' (update port p none)) {q : ι} (hq : q ∈ ports) (hqp : q ≠ p)
    {b : Addr} (hb : port q = some b) : me'.fmtAt b = me.fmtAt b := by
  have hb' : update port p none q = some b := by rw [update_of_ne hqp, hb]
  obtain ⟨f, hf⟩ := hcounted.fmtAt_of_port hq hb'
  rw [hf, h.fmtAt b f hf]

lemma Released.listed {me' : TopoMfUtils maxCh} (hcounted₀ : Counted ports me port)
    (h : Released me me') (hcounted : Counted ports me' (update port p none)) {b : Addr}
    (hin : b ∈ me.mfNodes) (hb : port p ≠ some b) :
    b ∈ me'.mfNodes ∧ me'.fmtAt b = me.fmtAt b := by
  have hused := hcounted₀.used b hin
  rw [Ne, owners_eq_zero_iff] at hused
  push Not at hused
  obtain ⟨q, hq, hqb⟩ := hused
  have hqp : q ≠ p := by
    rintro rfl
    exact hb hqb
  refine ⟨hcounted.pointed q hq b ?_, h.others hcounted hq hqp hqb⟩
  rw [update_of_ne hqp, hqb]

section

variable {mf : TopoMediaFmt maxCh} (hnodup : ports.Nodup) (h : Counted ports me port)
  (hp : p ∈ ports)
include hnodup h hp

/-- **Setting a format.** -/
theorem Counted.setMediaFmt {src : MfSrc maxCh} (hmf : me.readSrc src = some mf) {newNode : Addr}
    (hfree : ∀ me', me.releaseMediaFmt (port p) = some me' → me'.mem newNode = none) :
    ∃ me' a, me.setMediaFmt (port p) src newNode = some (.eok, me', some a) ∧
      SetTo ports port p mf me me' a := by
  have hbytes : ∃ same, me.hasSameBytes (port p) src = some same ∧
      (same = true → ∃ a, port p = some a ∧ me.fmtAt a = some mf) ∧
      (same = false → ∀ a, port p = some a → me.fmtAt a ≠ some mf) := by
    unfold hasSameBytes
    cases ha : port p with
    | none => exact ⟨false, rfl, by simp, by simp⟩
    | some a =>
      obtain ⟨node, hnode⟩ := (h.live a).mp (h.pointed p hp a ha)
      refine ⟨decide (node.mf = mf), ?_, fun hsame => ?_, fun hsame b hb => ?_⟩
      · simp only [hnode, hmf, bind_some, map_some]
      · exact ⟨a, rfl, by rw [fmtAt_of_mem hnode, of_decide_eq_true hsame]⟩
      · cases hb
        rw [fmtAt_of_mem hnode, Ne, Option.some.injEq]
        exact of_decide_eq_false hsame
  obtain ⟨same, hcall, htrue, hfalse⟩ := hbytes
  unfold TopoMfUtils.setMediaFmt
  rw [hcall, bind_some]
  cases same with
  | true =>
    obtain ⟨a, ha, hfmt⟩ := htrue rfl
    have hlisted : me.Listed mf := ⟨a, h.pointed p hp a ha, hfmt⟩
    refine ⟨me, a, by rw [if_pos rfl, ha], ?_, ⟨mf, hfmt, .refl mf⟩, fun _ _ _ _ _ => rfl, [],
      (append_nil _).symm, ?_⟩
    · rw [← ha, update_eq_self]
      exact h
    · rw [newBufs, if_pos hlisted, append_nil, nil_append]
  | false =>
    rw [if_neg Bool.false_ne_true]
    obtain ⟨me₁, hrelease, h₁, hreleased⟩ := h.releaseMediaFmt hnodup hp
    have hkept : ∀ b ∈ me.mfNodes, me.fmtAt b = some mf →
        b ∈ me₁.mfNodes ∧ me₁.fmtAt b = some mf := by
      intro b hb hfmt
      have hpb : port p ≠ some b := fun hpb => hfalse rfl b hpb hfmt
      obtain ⟨hin, hsame⟩ := Released.listed h hreleased h₁ hb hpb
      exact ⟨hin, hsame.trans hfmt⟩
    -- what `src_mf_ptr` points to is not the block that went
    have hread : me₁.readSrc src = some mf := by
      cases src with
      | null => exact hmf
      | own _ => exact hmf
      | block b =>
        obtain ⟨node, hnode, hnodemf⟩ := exists_of_fmtAt hmf
        exact (hkept b ((h.live b).mpr ⟨node, hnode⟩) hmf).2
    obtain ⟨gone, hfreed, hperm⟩ := hreleased.bufs
    rw [hrelease, bind_some, hread, bind_some]
    rcases findNode_spec mf (fun a ha => (h₁.live a).mp ha) with
      ⟨a, ha, f, hfind, hf, hsame⟩ | ⟨hfind, hnone⟩
    · obtain ⟨me₂, hadd, h₂, hfmt₂, hnodes₂, hfreed₂⟩ :=
        h₁.addRef hnodup hp (update_self ..) ha
      rw [update_idem] at h₂
      rw [hfind, bind_some]
      refine ⟨me₂, a, by simp only [hadd, map_some], h₂, ⟨f, by rw [hfmt₂, hf], hsame⟩,
        fun q hq hqp b hb => ?_, gone, by rw [hfreed₂, hfreed], ?_⟩
      · rw [hfmt₂]
        exact hreleased.others h₁ hq hqp hb
      · have hnew : me.newBufs mf = [] := by
          unfold newBufs
          split
          · rfl
          · rename_i hlisted
            by_contra hbufs
            have hraw : f.dataFormat = .rawCompressed := by
              rw [hsame.dataFormat]
              by_contra hdf
              exact hbufs (if_neg hdf)
            have heq : f = mf := hsame.eq (by rw [hraw]; rfl)
            have hf₀ := hreleased.fmtAt a f hf
            obtain ⟨node, hnode, -⟩ := exists_of_fmtAt hf₀
            exact hlisted ⟨a, (h.live a).mpr ⟨node, hnode⟩, heq ▸ hf₀⟩
        rw [hnew, append_nil, ownedBufs_congr hnodes₂ hfmt₂]
        exact hperm
    · have hfresh := hfree me₁ hrelease
      have hunlisted : ¬ me.Listed mf := by
        rintro ⟨b, hb, hfmt⟩
        obtain ⟨hin, hfmt₁⟩ := hkept b hb hfmt
        exact hnone b hin mf hfmt₁ (.refl mf)
      obtain ⟨h₂, hself, hother, howned⟩ :=
        h₁.insertNode hnodup hp (update_self ..) hfresh (fun b f hf => by
          obtain ⟨node, hnode, -⟩ := exists_of_fmtAt hf
          exact hnone b ((h₁.live b).mpr ⟨node, hnode⟩) f hf)
      rw [update_idem] at h₂
      rw [hfind]
      refine ⟨_, newNode, rfl, h₂, ⟨mf, hself, .refl mf⟩, fun q hq hqp b hb => ?_, gone, hfreed, ?_⟩
      · have hb₁ : update port p none q = some b := by rw [update_of_ne hqp, hb]
        have hne : b ≠ newNode := by
          rintro rfl
          obtain ⟨f, hf⟩ := h₁.fmtAt_of_port hq hb₁
          rw [fmtAt, hfresh] at hf
          cases hf
        rw [hother b hne]
        exact hreleased.others h₁ hq hqp hb
      · rw [howned, newBufs, if_neg hunlisted, ← append_assoc]
        exact hperm.append_right _

/-- **Taking the format of another port.** -/
theorem Counted.setMediaFmtFromPort {a : Addr} (ha : a ∈ me.mfNodes) (hmf : me.fmtAt a = some mf) :
    ∃ me', me.setMediaFmtFromPort (port p) (some a) = some (.eok, me', some a) ∧
      SetTo ports port p mf me me' a := by
  have hlisted : me.Listed mf := ⟨a, ha, hmf⟩
  have hnew : me.newBufs mf = [] := if_pos hlisted
  unfold TopoMfUtils.setMediaFmtFromPort
  by_cases hpa : port p = some a
  · refine ⟨me, ?_, ?_, ⟨mf, hmf, .refl mf⟩, fun _ _ _ _ _ => rfl, [], (append_nil _).symm, ?_⟩
    · simp only [hpa, ne_eq, not_true_eq_false, if_false]
    · rw [← hpa, update_eq_self]
      exact h
    · rw [hnew, append_nil, nil_append]
  · obtain ⟨me₁, hrelease, h₁, hreleased⟩ := h.releaseMediaFmt hnodup hp
    obtain ⟨ha₁, hfmt₁⟩ := Released.listed h hreleased h₁ ha hpa
    obtain ⟨me₂, hadd, h₂, hfmt₂, hnodes₂, hfreed₂⟩ :=
      h₁.addRef hnodup hp (update_self ..) ha₁
    rw [update_idem] at h₂
    obtain ⟨gone, hfreed, hperm⟩ := hreleased.bufs
    refine ⟨me₂, ?_, h₂, ⟨mf, by rw [hfmt₂, hfmt₁, hmf], .refl mf⟩, fun q hq hqp b hb => ?_,
      gone, by rw [hfreed₂, hfreed], ?_⟩
    · simp only [ne_eq, hpa, not_false_eq_true, if_true, hrelease, bind_some, hadd, map_some]
    · rw [hfmt₂]
      exact hreleased.others h₁ hq hqp hb
    · rw [hnew, append_nil, ownedBufs_congr hnodes₂ hfmt₂]
      exact hperm

end

end TopoMfUtils

/-! ## Ports, and what the calls ask for -/

/-- The argument `src_mf_ptr` of a call of `tu_set_media_fmt`. -/
inductive MfArg (ι : Type*) (maxCh : ℕ)
  /-- The null pointer. -/
  | null
  /-- A format of the caller. -/
  | own (mf : TopoMediaFmt maxCh)
  /-- The pointer of a port. -/
  | port (q : ι)

/-- A call. -/
inductive MfCall (ι : Type*) (maxCh : ℕ)
  /-- `tu_set_media_fmt`; the heap would return the block `newNode`. -/
  | setMediaFmt (p : ι) (arg : MfArg ι maxCh) (newNode : Addr)
  /-- `tu_set_media_fmt_from_port`. -/
  | setMediaFmtFromPort (p q : ι)
  /-- `tu_release_media_fmt`. -/
  | releaseMediaFmt (p : ι)

/-- The blocks, the pointers of the ports, and what the calls asked for. -/
structure MfPorts (ι : Type*) (maxCh : ℕ) where
  me : TopoMfUtils maxCh
  port : ι → Option Addr
  wanted : ι → Option (TopoMediaFmt maxCh)
  handed : List Addr

namespace MfPorts

variable {maxCh : ℕ} {ι : Type*}

/-- No port has a format. -/
def init (ι : Type*) (maxCh : ℕ) : MfPorts ι maxCh := ⟨.init maxCh, fun _ => none, fun _ => none, []⟩

/-- Where an argument points. -/
def src (s : MfPorts ι maxCh) : MfArg ι maxCh → MfSrc maxCh
  | .null => .null
  | .own mf => .own mf
  | .port q => ((s.port q).map MfSrc.block).getD .null

/-- The format that a call of `tu_set_media_fmt` asks for. -/
def asked (s : MfPorts ι maxCh) : MfArg ι maxCh → TopoMediaFmt maxCh
  | .null => .default maxCh
  | .own mf => mf
  | .port q => (s.wanted q).getD (.default maxCh)

/-- The raw buffer that a call hands over: a format that no block has yet comes with its buffer,
a copy of a format that is there does not. -/
def handedBy (s : MfPorts ι maxCh) : MfArg ι maxCh → List Addr
  | .own mf => s.me.newBufs mf
  | _ => []

variable [DecidableEq ι]

/-- A call: its result and the state after it. -/
def call (s : MfPorts ι maxCh) : MfCall ι maxCh → Option (ArResult × MfPorts ι maxCh)
  | .setMediaFmt p arg newNode =>
    (s.me.setMediaFmt (s.port p) (s.src arg) newNode).map fun r =>
      (r.1, ⟨r.2.1, update s.port p r.2.2, update s.wanted p (some (s.asked arg)),
        s.handed ++ s.handedBy arg⟩)
  | .setMediaFmtFromPort p q =>
    (s.me.setMediaFmtFromPort (s.port p) (s.port q)).map fun r =>
      (r.1, ⟨r.2.1, update s.port p r.2.2,
        if s.wanted q = none then s.wanted else update s.wanted p (s.wanted q), s.handed⟩)
  | .releaseMediaFmt p =>
    (s.me.releaseMediaFmt (s.port p)).map fun me =>
      (.eok, ⟨me, update s.port p none, update s.wanted p none, s.handed⟩)

/-- The state after a call; one that does not return leaves everything as it was. -/
def step (s : MfPorts ι maxCh) (c : MfCall ι maxCh) : MfPorts ι maxCh :=
  ((s.call c).map Prod.snd).getD s

/-- The calls are for the ports, the heap returns blocks that are not in use, and a raw buffer
belongs to whoever hands it over: it is the buffer of no block, unless the format is a copy of
one that a block has. -/
def Admitted (ports : List ι) (s : MfPorts ι maxCh) : MfCall ι maxCh → Prop
  | .setMediaFmt p arg newNode => p ∈ ports ∧ (∀ q, arg = .port q → q ∈ ports) ∧
      (∀ me ∈ s.me.releaseMediaFmt (s.port p), me.mem newNode = none) ∧
      ∀ buf ∈ s.handedBy arg, buf ∉ s.me.ownedBufs
  | .setMediaFmtFromPort p q => p ∈ ports ∧ q ∈ ports
  | .releaseMediaFmt p => p ∈ ports

/-- The result that a call should have: it fails only where a port has no format to give. -/
def dueResult (s : MfPorts ι maxCh) : MfCall ι maxCh → ArResult
  | .setMediaFmt _ _ _ => .eok
  | .setMediaFmtFromPort _ q => if s.wanted q = none then .efailed else .eok
  | .releaseMediaFmt _ => .eok

/-- The call returns with the result it should have. -/
def Served (s : MfPorts ι maxCh) (c : MfCall ι maxCh) : Prop :=
  (s.call c).map Prod.fst = some (s.dueResult c)

/-- What holds between the calls. -/
structure Kept (ports : List ι) (s : MfPorts ι maxCh) : Prop where
  /-- A port points to a block with the format last set for it, if there is one. -/
  fmt : ∀ p ∈ ports, (s.port p = none ∧ s.wanted p = none) ∨
    ∃ a f g, s.port p = some a ∧ a ∈ s.me.mfNodes ∧ s.me.fmtAt a = some f ∧
      s.wanted p = some g ∧ SameFmt f g
  nodup : s.me.mfNodes.Nodup
  /-- The blocks in the list are the allocated ones. -/
  live : ∀ a, a ∈ s.me.mfNodes ↔ ∃ node, s.me.mem a = some node
  /-- The count of a block is the number of the ports that point to it. -/
  refCount : ∀ a node, s.me.mem a = some node →
    node.refCount = ports.countP fun p => s.port p = some a
  /-- `num_nodes` is the length of the list. -/
  numNodes : s.me.numNodes = s.me.mfNodes.length
  distinct : ∀ a b f g, s.me.fmtAt a = some f → s.me.fmtAt b = some g → SameFmt f g → a = b
  used : ∀ a ∈ s.me.mfNodes, ∃ p ∈ ports, s.port p = some a
  /-- Each raw buffer handed over belongs to one block, or it was freed, once. -/
  bufs : s.handed.Perm (s.me.freedBufs ++ s.me.ownedBufs)
  owned : s.me.ownedBufs.Nodup
  /-- `tu_get_max_num_channels` returns the maximum over the formats of the ports. -/
  maxNumChannels : s.me.getMaxNumChannels =
    some (((ports.filterMap s.wanted).map numChs).foldl max 1)

/-! ## One call -/

/-- What the calls keep. -/
structure Held (ports : List ι) (s : MfPorts ι maxCh) : Prop where
  counted : s.me.Counted ports s.port
  /-- A port points to a block with the format last set for it, if there is one. -/
  fmt : ∀ p ∈ ports, (s.port p = none ∧ s.wanted p = none) ∨
    ∃ a f g, s.port p = some a ∧ s.me.fmtAt a = some f ∧ s.wanted p = some g ∧ SameFmt f g
  /-- Each raw buffer handed over belongs to a block, or it was freed. -/
  bufs : s.handed.Perm (s.me.freedBufs ++ s.me.ownedBufs)
  owned : s.me.ownedBufs.Nodup

variable {ports : List ι} {s : MfPorts ι maxCh} {p q : ι}

omit [DecidableEq ι] in
lemma held_init (ports : List ι) : Held ports (init ι maxCh) where
  counted :=
    { nodup := nodup_nil
      live := fun a => by simp [init, TopoMfUtils.init]
      count := fun a node h => by simp [init, TopoMfUtils.init] at h
      used := fun a h => absurd h not_mem_nil
      numNodes := rfl
      distinct := fun a b f g h => by simp [init, TopoMfUtils.init, TopoMfUtils.fmtAt] at h
      pointed := fun p _ a h => by simp [init] at h }
  fmt := fun p _ => Or.inl ⟨rfl, rfl⟩
  bufs := List.Perm.refl _
  owned := nodup_nil

/-- A port that is set to a format. -/
lemma Held.setTo (h : Held ports s) {mf g : TopoMediaFmt maxCh} {me : TopoMfUtils maxCh}
    {a : Addr} {handed : List Addr} (hset : TopoMfUtils.SetTo ports s.port p mf s.me me a)
    (hsame : SameFmt mf g) (hhanded : handed = s.me.newBufs mf)
    (hnew : ∀ buf ∈ handed, buf ∉ s.me.ownedBufs) :
    Held ports ⟨me, update s.port p (some a), update s.wanted p (some g), s.handed ++ handed⟩ := by
  obtain ⟨gone, hfreed, hperm⟩ := hset.bufs
  rw [← hhanded] at hperm
  refine ⟨hset.counted, fun q hq => ?_, ?_, ?_⟩
  · dsimp only
    by_cases hqp : q = p
    · subst hqp
      obtain ⟨f, hf, hfmf⟩ := hset.fmt
      exact Or.inr ⟨a, f, g, update_self .., hf, update_self .., hfmf.trans hsame⟩
    · rw [update_of_ne hqp, update_of_ne hqp]
      rcases h.fmt q hq with hnone | ⟨b, f, g', hb, hf, hg, hfg⟩
      · exact Or.inl hnone
      · refine Or.inr ⟨b, f, g', hb, ?_, hg, hfg⟩
        rw [hset.others q hq hqp b hb, hf]
  · rw [hfreed, append_assoc]
    calc (s.handed ++ handed).Perm ((s.me.freedBufs ++ s.me.ownedBufs) ++ handed) :=
          h.bufs.append_right _
      _ = s.me.freedBufs ++ (s.me.ownedBufs ++ handed) := append_assoc ..
      List.Perm _ (s.me.freedBufs ++ (gone ++ me.ownedBufs)) := hperm.append_left _
  · have hnodup : (s.me.ownedBufs ++ handed).Nodup := by
      refine nodup_append.mpr ⟨h.owned, ?_, fun x hx y hy hxy => hnew y hy (hxy ▸ hx)⟩
      rw [hhanded]
      unfold TopoMfUtils.newBufs rawBufs
      split
      · exact nodup_nil
      · split
        · cases mf.rawBufPtr with
          | none => exact nodup_nil
          | some buf => exact nodup_singleton buf
        · exact nodup_nil
    exact (nodup_append.mp (hperm.nodup_iff.mp hnodup)).2.1

omit [DecidableEq ι] in
lemma Held.readSrc (h : Held ports s) {arg : MfArg ι maxCh}
    (harg : ∀ q, arg = .port q → q ∈ ports) :
    ∃ mf, s.me.readSrc (s.src arg) = some mf ∧ SameFmt mf (s.asked arg) ∧
      s.handedBy arg = s.me.newBufs mf := by
  have hdefault : s.me.newBufs (.default maxCh) = [] := ite_self _
  cases arg with
  | null => exact ⟨_, rfl, .refl _, hdefault.symm⟩
  | own mf => exact ⟨mf, rfl, .refl mf, rfl⟩
  | port q =>
    simp only [src, asked, handedBy]
    rcases h.fmt q (harg q rfl) with ⟨hport, hwanted⟩ | ⟨a, f, g, hport, hf, hwanted, hfg⟩
    · rw [hport, hwanted]
      exact ⟨_, rfl, .refl _, hdefault.symm⟩
    · rw [hport, hwanted]
      have hlisted : s.me.Listed f :=
        ⟨a, h.counted.pointed q (harg q rfl) a hport, hf⟩
      exact ⟨f, hf, hfg, (if_pos hlisted).symm⟩

section

variable (hnodup : ports.Nodup) (h : Held ports s)
include hnodup h

/-- `tu_set_media_fmt`. -/
lemma Held.setMediaFmt {arg : MfArg ι maxCh} {newNode : Addr}
    (hadm : Admitted ports s (.setMediaFmt p arg newNode)) :
    ∃ s', s.call (.setMediaFmt p arg newNode) = some (.eok, s') ∧ Held ports s' := by
  obtain ⟨hp, harg, hfree, hnew⟩ := hadm
  obtain ⟨mf, hread, hsame, hhanded⟩ := h.readSrc harg
  obtain ⟨me, a, hcall, hset⟩ :=
    h.counted.setMediaFmt hnodup hp hread (fun me' hme' => hfree me' hme')
  refine ⟨_, ?_, h.setTo hset hsame hhanded hnew⟩
  rw [call, hcall]
  rfl

/-- `tu_set_media_fmt_from_port`. -/
lemma Held.setMediaFmtFromPort (hp : p ∈ ports) (hq : q ∈ ports) :
    ∃ s', s.call (.setMediaFmtFromPort p q) =
      some (if s.wanted q = none then .efailed else .eok, s') ∧ Held ports s' := by
  rcases h.fmt q hq with ⟨hport, hwanted⟩ | ⟨a, f, g, hport, hf, hwanted, hfg⟩
  · refine ⟨s, ?_, h⟩
    simp only [call, hport, hwanted, if_true, TopoMfUtils.setMediaFmtFromPort, map_some,
      update_eq_self]
  · have ha := h.counted.pointed q hq a hport
    obtain ⟨me, hcall, hset⟩ := h.counted.setMediaFmtFromPort hnodup hp ha hf
    have hlisted : s.me.Listed f := ⟨a, ha, hf⟩
    have hnext := h.setTo hset hfg (if_pos hlisted).symm (fun buf hbuf => absurd hbuf not_mem_nil)
    rw [append_nil] at hnext
    refine ⟨_, ?_, hnext⟩
    simp only [call, hport, hwanted, reduceCtorEq, if_false, hcall, map_some]

/-- `tu_release_media_fmt`. -/
lemma Held.releaseMediaFmt (hp : p ∈ ports) :
    ∃ s', s.call (.releaseMediaFmt p) = some (.eok, s') ∧ Held ports s' := by
  obtain ⟨me, hcall, hcounted, hreleased⟩ := h.counted.releaseMediaFmt hnodup hp
  obtain ⟨gone, hfreed, hperm⟩ := hreleased.bufs
  refine ⟨_, by rw [call, hcall]; rfl, hcounted, fun q hq => ?_, ?_, ?_⟩
  · dsimp only
    by_cases hqp : q = p
    · subst hqp
      exact Or.inl ⟨update_self .., update_self ..⟩
    · rw [update_of_ne hqp, update_of_ne hqp]
      rcases h.fmt q hq with hnone | ⟨b, f, g, hb, hf, hg, hfg⟩
      · exact Or.inl hnone
      · refine Or.inr ⟨b, f, g, hb, ?_, hg, hfg⟩
        rw [hreleased.others hcounted hq hqp hb, hf]
  · rw [hfreed, append_assoc]
    exact h.bufs.trans (hperm.append_left _)
  · exact (nodup_append.mp (hperm.nodup_iff.mp h.owned)).2.1

lemma Held.step {c : MfCall ι maxCh} (hadm : Admitted ports s c) :
    Held ports (s.step c) ∧ Served s c := by
  unfold MfPorts.step
  cases c with
  | setMediaFmt p arg newNode =>
    obtain ⟨s', hcall, hs'⟩ := h.setMediaFmt hnodup hadm
    rw [Served, hcall]
    exact ⟨hs', rfl⟩
  | setMediaFmtFromPort p q =>
    obtain ⟨s', hcall, hs'⟩ := h.setMediaFmtFromPort hnodup hadm.1 hadm.2
    rw [Served, hcall]
    exact ⟨hs', rfl⟩
  | releaseMediaFmt p =>
    obtain ⟨s', hcall, hs'⟩ := h.releaseMediaFmt hnodup hadm
    rw [Served, hcall]
    exact ⟨hs', rfl⟩

end

/-! ## The number of channels -/

lemma foldl_max_le_iff {xs : List ℕ} {n m : ℕ} : xs.foldl max n ≤ m ↔ n ≤ m ∧ ∀ x ∈ xs, x ≤ m := by
  induction xs generalizing n with
  | nil => simp
  | cons x xs ih =>
    rw [foldl_cons, ih, Nat.max_le, forall_mem_cons, and_assoc]

lemma maxNumChannelsLoop_eq {me : TopoMfUtils maxCh} {nodes : List Addr}
    (hlive : ∀ a ∈ nodes, ∃ node, me.mem a = some node) (n : ℕ) :
    me.maxNumChannelsLoop nodes n = some (((nodes.filterMap me.fmtAt).map numChs).foldl max n) := by
  induction nodes generalizing n with
  | nil => rfl
  | cons a nodes ih =>
    obtain ⟨node, hnode⟩ := hlive a mem_cons_self
    rw [TopoMfUtils.maxNumChannelsLoop, hnode, bind_some,
      ih (fun b hb => hlive b (mem_cons_of_mem a hb)),
      filterMap_cons_some (TopoMfUtils.fmtAt_of_mem hnode), map_cons, foldl_cons]

omit [DecidableEq ι] in
/-- The blocks and the ports have the same numbers of channels. -/
lemma Held.getMaxNumChannels (h : Held ports s) : s.me.getMaxNumChannels =
    some (((ports.filterMap s.wanted).map numChs).foldl max 1) := by
  rw [TopoMfUtils.getMaxNumChannels, maxNumChannelsLoop_eq (fun a ha => (h.counted.live a).mp ha)]
  congr 1
  refine eq_of_forall_ge_iff fun m => ?_
  rw [foldl_max_le_iff, foldl_max_le_iff]
  simp only [List.mem_map, mem_filterMap, forall_exists_index, and_imp]
  refine and_congr_right fun _ => ⟨?_, ?_⟩
  · rintro hblocks _ f p hp hwanted rfl
    rcases h.fmt p hp with ⟨-, hnone⟩ | ⟨a, f', g, hport, hf', hg, hsame⟩
    · rw [hnone] at hwanted
      cases hwanted
    · rw [hg] at hwanted
      cases hwanted
      rw [← hsame.numChs]
      exact hblocks _ f' a (h.counted.pointed p hp a hport) hf' rfl
  · rintro hports _ f a ha hf rfl
    have hused := h.counted.used a ha
    rw [Ne, owners_eq_zero_iff] at hused
    push Not at hused
    obtain ⟨p, hp, hpa⟩ := hused
    rcases h.fmt p hp with ⟨hnone, -⟩ | ⟨b, f', g, hport, hf', hg, hsame⟩
    · rw [hnone] at hpa
      cases hpa
    · rw [hport] at hpa
      cases hpa
      rw [hf'] at hf
      cases hf
      rw [hsame.numChs]
      exact hports _ g p hp hg rfl

omit [DecidableEq ι] in
lemma Held.kept (h : Held ports s) : Kept ports s where
  fmt := by
    intro p hp
    rcases h.fmt p hp with hnone | ⟨a, f, g, hport, hf, hg, hsame⟩
    · exact Or.inl hnone
    · exact Or.inr ⟨a, f, g, hport, h.counted.pointed p hp a hport, hf, hg, hsame⟩
  nodup := h.counted.nodup
  live := h.counted.live
  refCount := h.counted.count
  numNodes := h.counted.numNodes
  distinct := h.counted.distinct
  used := by
    intro a ha
    have hused := h.counted.used a ha
    rw [Ne, owners_eq_zero_iff] at hused
    push Not at hused
    exact hused
  bufs := h.bufs
  owned := h.owned
  maxNumChannels := h.getMaxNumChannels

/-- **Media formats of the ports.** Whatever ports set, share and release formats, and in
whatever order, every call returns, each port points to a block with the format last set for it,
and the blocks are counted, distinct and all in use. -/
theorem mediaFmts_kept {ports : List ι} (hnodup : ports.Nodup) (calls : List (MfCall ι maxCh))
    (hadm : Meets step (Admitted ports) (init ι maxCh) calls) :
    Meets step Served (init ι maxCh) calls ∧ Along step (Kept ports) (init ι maxCh) calls := by
  have hheld : Along step (Held ports) (init ι maxCh) calls :=
    along_of_meets (fun _ _ hs hc => (hs.step hnodup hc).1) (held_init ports) hadm
  exact ⟨meets_of_along (fun _ _ hs hc => (hs.step hnodup hc).2) hheld hadm,
    hheld.mono fun _ hs => hs.kept⟩

/-- Two channels of 16 bit at 48 kHz; the third entry of the map is not in use. -/
def stereoFmt (unused : UInt8) : TopoMediaFmt 3 where
  dataFormat := .fixedPoint
  fmtId := 0x09001000
  sampleRate := 48000
  bitWidth := 16
  bitsPerSample := 16
  qFactor := 15
  numChannels := 2
  interleaving := 4
  endianness := 1
  chanMap := #v[1, 2, unused]
  rawBufPtr := none
  rawBufSize := 0
  numChannels_le := by decide

/-- A raw format with its buffer at the address 100. -/
def rawFmt : TopoMediaFmt 3 :=
  { TopoMediaFmt.default 3 with
    dataFormat := .rawCompressed
    rawBufPtr := some 100
    rawBufSize := 32
    numChannels_le := by decide }

/-- Two ports share a PCM format that they set with different unused bytes, then one of them
takes a raw format over from a third port, which lets it go. -/
theorem mediaFmts_kept_threePorts : Along step (Kept [0, 1, 2]) (init ℕ 3)
      [.setMediaFmt 0 (.own (stereoFmt 0)) 10, .setMediaFmt 1 (.own (stereoFmt 7)) 11,
        .setMediaFmt 2 (.own rawFmt) 12, .setMediaFmtFromPort 1 2, .setMediaFmt 0 (.port 1) 13,
        .releaseMediaFmt 2, .releaseMediaFmt 1, .releaseMediaFmt 0] := by
  have hown : ∀ (mf : TopoMediaFmt 3) (q : ℕ), MfArg.own mf = .port q → q ∈ [0, 1, 2] :=
    fun _ _ h => by cases h
  have hport : ∀ q : ℕ, (.port 1 : MfArg ℕ 3) = .port q → q ∈ [0, 1, 2] :=
    fun _ h => by cases h; decide
  have hmem : ∀ q : ℕ, q < 3 → q ∈ [0, 1, 2] := by decide
  refine (mediaFmts_kept (by decide) _ ?_).2
  exact ⟨⟨by decide, hown _, by decide, by decide⟩, ⟨by decide, hown _, by decide, by decide⟩,
    ⟨by decide, hown _, by decide, by decide⟩, ⟨by decide, by decide⟩,
    ⟨by decide, hport, by decide, by decide⟩, hmem 2 (by decide), hmem 1 (by decide),
    hmem 0 (by decide), trivial⟩

end MfPorts

end AudioReach
