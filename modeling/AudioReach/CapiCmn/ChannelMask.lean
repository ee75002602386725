import Mathlib.Data.Nat.Bitwise
import Mathlib.Data.List.Nodup

/-!
# Channels of the configurations of a parameter

A parameter of a multichannel module has a configuration for each group of channels that share one.
The channels are given by a mask of groups of 32 and, for each group in it, a mask of its channels.
`capi_cmn_check_v2_channel_mask_duplication` of `capi_cmn.c` is called for one configuration after
another and accumulates the masks; `capi_cmn_check_payload_validation` has added up their sizes.

A configuration is given by its mask of groups and the words that follow it.
-/

namespace AudioReach.ChannelMask

open Function (update)
open List (range)

/-- `CAPI_CMN_MAX_CHANNEL_MAP_GROUPS`. -/
def capiCmnMaxChannelMapGroups : ℕ := (128 + 1 + 31) / 32

/-- `CAPI_EBADPARAM`, as a value of type `bool_t`. -/
def capiEbadparam : UInt8 := 2

/-- A multichannel configuration. -/
structure ChannelCfg where
  channelGroupMask : UInt32
  /-- `temp_mask_list_ptr`. -/
  maskList : ℕ → UInt32

/-- A round of the loop that expands the masks: the current masks, the words that are used, and
`is_aggr_ch_map_zero`. -/
def expandStep (cfg : ChannelCfg) (st : (ℕ → UInt32) × ℕ × Bool) (group : ℕ) :
    (ℕ → UInt32) × ℕ × Bool :=
  if cfg.channelGroupMask.toNat.testBit group then
    (update st.1 group (cfg.maskList st.2.1), st.2.1 + 1, st.2.2 && cfg.maskList st.2.1 == 0)
  else (update st.1 group 0, st.2)

/-- The loop that expands the masks. -/
def expand (cfg : ChannelCfg) : (ℕ → UInt32) × ℕ × Bool :=
  (range capiCmnMaxChannelMapGroups).foldl (expandStep cfg) (fun _ => 0, 0, true)

/-- The loop that compares the current masks with the accumulated ones and adds them. -/
def checkLoop (current : ℕ → UInt32) : List ℕ → (ℕ → UInt32) → Bool × (ℕ → UInt32)
  | [], check => (true, check)
  | group :: groups, check =>
    let difference := check group &&& current group
    if difference = 0 ∨ group = 0 ∧ difference = 1 then
      checkLoop current groups (update check group (check group ||| current group))
    else (false, check)

/-- `capi_cmn_check_v2_channel_mask_duplication`: the result, the accumulated masks, and
`*offset_ptr`. -/
def checkV2ChannelMaskDuplication (base : UInt32) (cfg : ChannelCfg) (check : ℕ → UInt32)
    (offset : UInt32) : UInt8 × (ℕ → UInt32) × UInt32 :=
  let (current, index, zero) := expand cfg
  if zero then (capiEbadparam, check, offset)
  else
    let res := checkLoop current (range capiCmnMaxChannelMapGroups) check
    if res.1 then (1, res.2, UInt32.ofNat index * 4 + base) else (0, res.2, offset)

/-- The calls for the configurations of a parameter.  Its callers stop at the first result that is
0: the accumulated masks and the offsets, if there is none. -/
def checkAll (base : UInt32) : List ChannelCfg → (ℕ → UInt32) → UInt32 →
    Option ((ℕ → UInt32) × List UInt32)
  | [], check, _ => some (check, [])
  | cfg :: cfgs, check, offset =>
    let res := checkV2ChannelMaskDuplication base cfg check offset
    if res.1 ≠ 0 then (checkAll base cfgs res.2.1 res.2.2).map fun r => (r.1, res.2.2 :: r.2)
    else none

/-- `capi_cmn_count_set_bits`, for a word of at most `rounds` bits. -/
def countSetBits : ℕ → UInt32 → UInt32
  | 0, _ => 0
  | rounds + 1, num => if num = 0 then 0 else countSetBits rounds (num &&& (num - 1)) + 1

/-- `capi_cmn_check_payload_validation`: whether it succeeds, `*config_size_ptr`, and
`*required_size_ptr`. -/
def checkPayloadValidation (paramSize base groupMask required : UInt32) : Bool × UInt32 × UInt32 :=
  let configSize := base + countSetBits 32 groupMask * 4
  (!(paramSize < required + configSize), configSize, required + configSize)

/-! ## The channels of a configuration -/

namespace ChannelCfg

variable (cfg : ChannelCfg)

/-- The number of groups of a configuration below a group. -/
def rank (group : ℕ) : ℕ := (range group).countP cfg.channelGroupMask.toNat.testBit

/-- The mask of a group. -/
def mask (group : ℕ) : UInt32 :=
  if group < capiCmnMaxChannelMapGroups ∧ cfg.channelGroupMask.toNat.testBit group then
    cfg.maskList (cfg.rank group) else 0

end ChannelCfg

/-- One group of a configuration expanded. -/
lemma expandStep_eq (cfg : ChannelCfg) (current : ℕ → UInt32) (zero : Bool) {group : ℕ}
    (h : group < capiCmnMaxChannelMapGroups) :
    expandStep cfg (current, cfg.rank group, zero) group = (update current group (cfg.mask group),
      cfg.rank (group + 1), zero && cfg.mask group == 0) := by
  unfold expandStep ChannelCfg.mask ChannelCfg.rank
  rw [List.range_succ, List.countP_append, List.countP_singleton]
  by_cases hbit : cfg.channelGroupMask.toNat.testBit group = true <;> simp [h, hbit]

/-- The first groups of a configuration expanded. -/
lemma expand_range (cfg : ChannelCfg) {n : ℕ} (hn : n ≤ capiCmnMaxChannelMapGroups) :
    (range n).foldl (expandStep cfg) (fun _ => 0, 0, true) =
      (fun g => if g < n then cfg.mask g else 0, cfg.rank n, decide (∀ g < n, cfg.mask g = 0)) := by
  induction n with
  | zero => simp [ChannelCfg.rank]
  | succ n ih =>
    rw [List.range_succ, List.foldl_append, ih (Nat.le_of_succ_le hn), List.foldl_cons,
      List.foldl_nil, expandStep_eq cfg _ _ hn]
    refine Prod.ext (funext fun g => ?_) (Prod.ext rfl ?_)
    · dsimp only
      rw [Function.update_apply]
      grind
    · simp only [Nat.forall_lt_succ_right, Bool.decide_and, beq_eq_decide]

/-- A channel of masks, as a group and a bit. -/
def HasChannel (masks : ℕ → UInt32) (group bit : ℕ) : Prop :=
  (masks group).toNat.testBit bit = true

/-- Masks that share no channel other than bit 0 of group 0. -/
def Apart (masks masks' : ℕ → UInt32) : Prop :=
  ∀ group bit, HasChannel masks group bit → HasChannel masks' group bit → group = 0 ∧ bit = 0

variable {cfg : ChannelCfg} {check : ℕ → UInt32}

/-- The channels of a union. -/
lemma hasChannel_or {masks masks' : ℕ → UInt32} {group bit : ℕ} :
    HasChannel (fun g => masks g ||| masks' g) group bit ↔
      HasChannel masks group bit ∨ HasChannel masks' group bit := by
  unfold HasChannel
  rw [UInt32.toNat_or, Nat.testBit_or, Bool.or_eq_true]

lemma eq_zero_of_testBit {word : UInt32} (h : ∀ i, ¬word.toNat.testBit i = true) : word = 0 :=
  UInt32.toNat_inj.mp (Nat.zero_of_testBit_eq_false fun i => Bool.eq_false_of_not_eq_true (h i))

/-- Apart means that the words share nothing but bit 0 of group 0. -/
lemma apart_iff {masks : ℕ → UInt32} : Apart masks cfg.mask ↔
    ∀ g, masks g &&& cfg.mask g = 0 ∨ g = 0 ∧ masks g &&& cfg.mask g = 1 := by
  refine forall_congr' fun g => ?_
  have hbits : ∀ i, (masks g &&& cfg.mask g).toNat.testBit i = true ↔
      HasChannel masks g i ∧ HasChannel cfg.mask g i := fun i => by
    rw [UInt32.toNat_and, Nat.testBit_and, Bool.and_eq_true]
    rfl
  simp only [← and_imp, ← hbits]
  generalize masks g &&& cfg.mask g = both
  constructor
  · intro h
    by_cases hg : g = 0
    · have hhigh : both.toNat / 2 = 0 := Nat.zero_of_testBit_eq_false fun i => by
        rw [← Nat.testBit_succ]
        exact Bool.eq_false_of_not_eq_true fun hi => Nat.succ_ne_zero i (h _ hi).2
      have hlow : both.toNat = 0 ∨ both.toNat = 1 := by omega
      exact hlow.imp UInt32.toNat_inj.mp fun h => ⟨hg, UInt32.toNat_inj.mp h⟩
    · exact .inl (eq_zero_of_testBit fun i hi => hg (h i hi).1)
  · rintro (rfl | ⟨hg, rfl⟩) i hi
    · simp at hi
    · exact ⟨hg, Nat.testBit_one_eq_true_iff_self_eq_zero.mp hi⟩

/-- The loop succeeds iff no group repeats a channel. -/
lemma checkLoop_true {current : ℕ → UInt32} {groups : List ℕ} (h : groups.Nodup) :
    (checkLoop current groups check).1 = true ↔ ∀ g ∈ groups,
      check g &&& current g = 0 ∨ g = 0 ∧ check g &&& current g = 1 := by
  induction groups generalizing check with
  | nil => simp [checkLoop]
  | cons group groups ih =>
    obtain ⟨hnot, h⟩ := List.nodup_cons.mp h
    unfold checkLoop
    rw [List.forall_mem_cons]
    dsimp only
    split
    next hgroup =>
      rw [ih h, and_iff_right hgroup]
      refine forall₂_congr fun g hg => ?_
      rw [Function.update_of_ne (ne_of_mem_of_not_mem hg hnot)]
    next hgroup => simp [hgroup]

/-- After a success the accumulator is the union. -/
lemma checkLoop_masks {current : ℕ → UInt32} {groups : List ℕ} (h : groups.Nodup)
    (htrue : (checkLoop current groups check).1 = true) (g : ℕ) :
    (checkLoop current groups check).2 g =
      if g ∈ groups then check g ||| current g else check g := by
  induction groups generalizing check with
  | nil => simp [checkLoop]
  | cons group groups ih =>
    obtain ⟨hnot, h⟩ := List.nodup_cons.mp h
    unfold checkLoop at htrue ⊢
    dsimp only at htrue ⊢
    split at htrue
    next hgroup =>
      rw [if_pos hgroup, ih h htrue, Function.update_apply]
      grind
    next => cases htrue

lemma mask_eq_zero {g : ℕ} (h : ¬g < capiCmnMaxChannelMapGroups) : cfg.mask g = 0 :=
  if_neg fun hg => h hg.1

/-- What the expansion computes. -/
lemma expand_eq (cfg : ChannelCfg) : expand cfg =
    (cfg.mask, cfg.rank capiCmnMaxChannelMapGroups,
      decide (∀ g < capiCmnMaxChannelMapGroups, cfg.mask g = 0)) := by
  have hout : ∀ g, (if g < capiCmnMaxChannelMapGroups then cfg.mask g else 0) = cfg.mask g :=
    fun g => by
      split
      · rfl
      · rename_i h
        exact (mask_eq_zero h).symm
  simp only [expand, expand_range cfg le_rfl, hout]

/-- A configuration without a channel shares none. -/
lemma apart_of_empty (masks : ℕ → UInt32) (h : ¬∃ g i, HasChannel cfg.mask g i) :
    Apart masks cfg.mask :=
  fun g i _ hi => absurd ⟨g, i, hi⟩ h

/-- **One call.**  Its result counts as `TRUE` for a configuration that has no channel but bit 0 of
group 0 that was there before, also for one that has none at all; then only the offset is left as
it was. -/
lemma check_true (base offset : UInt32) (cfg : ChannelCfg) (check : ℕ → UInt32) :
    let res := checkV2ChannelMaskDuplication base cfg check offset
    (res.1 ≠ 0 ↔ Apart check cfg.mask) ∧
      (res.1 ≠ 0 → res.2.1 = fun g => check g ||| cfg.mask g) ∧
      (res.1 ≠ 0 → (∃ g i, HasChannel cfg.mask g i) →
        res.2.2 = UInt32.ofNat (cfg.rank capiCmnMaxChannelMapGroups) * 4 + base) := by
  have hapart : (checkLoop cfg.mask (range capiCmnMaxChannelMapGroups) check).1 = true ↔
      Apart check cfg.mask := by
    rw [checkLoop_true List.nodup_range, apart_iff]
    refine forall_congr' fun g => ⟨fun h => ?_, fun h _ => h⟩
    by_cases hg : g < capiCmnMaxChannelMapGroups
    · exact h (List.mem_range.mpr hg)
    · exact .inl (by rw [mask_eq_zero hg, UInt32.and_zero])
  unfold checkV2ChannelMaskDuplication
  rw [expand_eq]
  dsimp only
  split
  next hzero =>
    have hmask : ∀ g, cfg.mask g = 0 := fun g => by
      by_cases hg : g < capiCmnMaxChannelMapGroups
      · exact of_decide_eq_true hzero g hg
      · exact mask_eq_zero hg
    have hnone : ¬∃ g i, HasChannel cfg.mask g i := by
      rintro ⟨g, i, hi⟩
      simp [HasChannel, hmask g] at hi
    have hbad : capiEbadparam ≠ 0 := by decide
    refine ⟨iff_of_true hbad (apart_of_empty check hnone), fun _ => ?_,
      fun _ h => absurd h hnone⟩
    simp only [hmask, UInt32.or_zero]
  next hzero =>
    split
    next htrue =>
      have hone : (1 : UInt8) ≠ 0 := by decide
      refine ⟨iff_of_true hone (hapart.mp htrue), fun _ => funext fun g => ?_, fun _ _ => rfl⟩
      dsimp only
      rw [checkLoop_masks List.nodup_range htrue]
      split
      · rfl
      · rename_i hg
        rw [mask_eq_zero (List.mem_range.not.mp hg), UInt32.or_zero]
    next htrue =>
      have hfalse : ¬(0 : UInt8) ≠ 0 := by decide
      exact ⟨iff_of_false hfalse (hapart.not.mp htrue), fun h => absurd h hfalse,
        fun h => absurd h hfalse⟩

/-! ## All configurations -/

lemma apart_comm {masks masks' : ℕ → UInt32} : Apart masks masks' ↔ Apart masks' masks :=
  forall₂_congr fun _ _ => forall_comm

/-- Apart from a union means apart from both. -/
lemma apart_or {masks masks' other : ℕ → UInt32} :
    Apart (fun g => masks g ||| masks' g) other ↔ Apart masks other ∧ Apart masks' other :=
  ⟨fun h => ⟨fun g i hi => h g i (hasChannel_or.mpr (.inl hi)),
    fun g i hi => h g i (hasChannel_or.mpr (.inr hi))⟩,
    fun h g i hi => (hasChannel_or.mp hi).elim (h.1 g i) (h.2 g i)⟩

/-- All checks succeed iff the configurations are pairwise apart. -/
lemma checkAll_iff (base offset : UInt32) (cfgs : List ChannelCfg) (check : ℕ → UInt32) :
    (checkAll base cfgs check offset).isSome = true ↔
      (cfgs.Pairwise fun cfg cfg' => Apart cfg.mask cfg'.mask) ∧
        ∀ cfg ∈ cfgs, Apart check cfg.mask := by
  induction cfgs generalizing check offset with
  | nil => simp [checkAll]
  | cons cfg cfgs ih =>
    obtain ⟨hiff, hmasks, -⟩ := check_true base offset cfg check
    unfold checkAll
    dsimp only
    simp only [List.forall_mem_cons, List.pairwise_cons]
    split
    next htrue =>
      rw [Option.isSome_map, ih, hmasks htrue]
      rw [hiff] at htrue
      simp only [apart_or, forall₂_and]
      tauto
    next htrue =>
      rw [hiff] at htrue
      constructor
      · intro h
        cases h
      · exact fun h => absurd h.2.1 htrue

/-- The accumulator after all checks. -/
lemma checkAll_masks {base offset : UInt32} {cfgs : List ChannelCfg}
    {res : (ℕ → UInt32) × List UInt32} (h : checkAll base cfgs check offset = some res) (g i : ℕ) :
    HasChannel res.1 g i ↔ HasChannel check g i ∨ ∃ cfg ∈ cfgs, HasChannel cfg.mask g i := by
  induction cfgs generalizing check offset res with
  | nil =>
    obtain rfl := Option.some.inj h
    simp
  | cons cfg cfgs ih =>
    have hmasks := (check_true base offset cfg check).2.1
    unfold checkAll at h
    dsimp only at h hmasks
    split at h
    next htrue =>
      obtain ⟨rest, hrest, rfl⟩ := Option.map_eq_some_iff.mp h
      rw [hmasks htrue] at hrest
      rw [ih hrest, hasChannel_or, List.exists_mem_cons_iff, or_assoc]
    next => cases h

/-- The offsets after all checks. -/
lemma checkAll_offsets {base offset : UInt32} {cfgs : List ChannelCfg}
    {res : (ℕ → UInt32) × List UInt32} (h : checkAll base cfgs check offset = some res)
    (hsome : ∀ cfg ∈ cfgs, ∃ g i, HasChannel cfg.mask g i) :
    res.2 = cfgs.map fun cfg =>
      UInt32.ofNat (cfg.rank capiCmnMaxChannelMapGroups) * 4 + base := by
  induction cfgs generalizing check offset res with
  | nil =>
    obtain rfl := Option.some.inj h
    rfl
  | cons cfg cfgs ih =>
    obtain ⟨hfirst, hsome⟩ := List.forall_mem_cons.mp hsome
    have hoffset := (check_true base offset cfg check).2.2
    unfold checkAll at h
    dsimp only at h hoffset
    split at h
    next htrue =>
      obtain ⟨rest, hrest, rfl⟩ := Option.map_eq_some_iff.mp h
      rw [ih hrest hsome, List.map_cons]
      exact congrArg (· :: _) (hoffset htrue hfirst)
    next => cases h

/-- The bits of a number, one at a time. -/
lemma countP_testBit_succ (w n : ℕ) :
    (range (w + 1)).countP n.testBit = (range w).countP (n / 2).testBit + n % 2 := by
  have hshift : n.testBit ∘ Nat.succ = (n / 2).testBit := funext fun i => Nat.testBit_succ n i
  rw [List.range_succ_eq_map, List.countP_cons, List.countP_map, hshift, Nat.testBit_zero]
  rcases Nat.mod_two_eq_zero_or_one n with h | h <;> simp [h]

/-- A round of `capi_cmn_count_set_bits` takes one bit away. -/
lemma countP_testBit_and_pred {w n : ℕ} (hn : n < 2 ^ w) (hpos : 0 < n) :
    (range w).countP (n &&& (n - 1)).testBit + 1 = (range w).countP n.testBit := by
  induction w generalizing n with
  | zero => omega
  | succ w ih =>
    rw [countP_testBit_succ, countP_testBit_succ, Nat.and_div_two]
    have hlow : (n &&& (n - 1)) % 2 = 0 := by
      rw [← Nat.pow_one 2, Nat.and_mod_two_pow]
      rcases Nat.mod_two_eq_zero_or_one n with h | h
      · rw [Nat.pow_one, h, Nat.zero_and]
      · rw [Nat.pow_one, show (n - 1) % 2 = 0 by omega, Nat.and_zero]
    rw [hlow]
    rcases Nat.mod_two_eq_zero_or_one n with h | h
    · rw [show (n - 1) / 2 = n / 2 - 1 by omega, h]
      exact ih (by omega) (by omega)
    · rw [show (n - 1) / 2 = n / 2 by omega, h, Nat.and_self]

/-- `capi_cmn_count_set_bits` counts the bits, if it has a round for each. -/
lemma toNat_countSetBits {rounds : ℕ} {num : UInt32}
    (h : (range 32).countP num.toNat.testBit ≤ rounds) :
    (countSetBits rounds num).toNat = (range 32).countP num.toNat.testBit := by
  induction rounds generalizing num with
  | zero => exact (Nat.le_zero.mp h).symm
  | succ rounds ih =>
    unfold countSetBits
    split
    next hzero =>
      subst hzero
      exact (List.countP_eq_zero.mpr fun i _ => by simp).symm
    next hne =>
      have hpos : 0 < num.toNat := Nat.pos_of_ne_zero fun h => hne (UInt32.toNat_inj.mp h)
      have hround := countP_testBit_and_pred num.toNat_lt hpos
      have hnext : (num &&& (num - 1)).toNat = num.toNat &&& (num.toNat - 1) := by
        have hone : (1 : UInt32) ≤ num := UInt32.le_iff_toNat_le.mpr hpos
        rw [UInt32.toNat_and, UInt32.toNat_sub_of_le _ _ hone, UInt32.toNat_one]
      have hbound := List.countP_le_length (l := range 32) (p := num.toNat.testBit)
      rw [UInt32.toNat_add, ih (by rw [hnext]; omega), hnext, UInt32.toNat_one, hround]
      rw [List.length_range] at hbound
      exact Nat.mod_eq_of_lt (by omega)

/-- A number has all its bits among the first ones if there are no others. -/
lemma countP_range_add_iff {w k n : ℕ} (hn : n < 2 ^ (w + k)) :
    (range w).countP n.testBit = (range (w + k)).countP n.testBit ↔ n < 2 ^ w := by
  rw [List.range_add, List.countP_append, Nat.left_eq_add, List.countP_eq_zero,
    List.forall_mem_map]
  constructor
  · intro h
    refine Nat.lt_pow_two_of_testBit n fun i hi => ?_
    rcases Nat.lt_or_ge i (w + k) with hlt | hge
    · obtain ⟨j, rfl⟩ := Nat.exists_eq_add_of_le hi
      exact Bool.eq_false_iff.mpr (h j (List.mem_range.mpr (by omega)))
    · exact Nat.testBit_lt_two_pow (hn.trans_le (Nat.pow_le_pow_right Nat.zero_lt_two hge))
  · exact fun h j _ => Bool.eq_false_iff.mp (Nat.testBit_lt_two_pow
      (h.trans_le (Nat.pow_le_pow_right Nat.zero_lt_two (Nat.le_add_right w j))))

/-- The two sizes of a configuration agree if and only if its group mask has no further groups. -/
lemma size_eq_iff (cfg : ChannelCfg) (base : UInt32) :
    UInt32.ofNat (cfg.rank capiCmnMaxChannelMapGroups) * 4 + base =
        base + countSetBits 32 cfg.channelGroupMask * 4 ↔
      cfg.channelGroupMask.toNat < 2 ^ capiCmnMaxChannelMapGroups := by
  have hcount := @toNat_countSetBits 32 cfg.channelGroupMask
    (List.countP_le_length.trans_eq List.length_range)
  have hrank : cfg.rank capiCmnMaxChannelMapGroups ≤ 5 :=
    List.countP_le_length.trans_eq List.length_range
  have hbits : (range 32).countP cfg.channelGroupMask.toNat.testBit ≤ 32 :=
    List.countP_le_length.trans_eq List.length_range
  rw [UInt32.add_comm, UInt32.add_right_inj, ← UInt32.toNat_inj, UInt32.toNat_mul,
    UInt32.toNat_mul, hcount, UInt32.toNat_ofNat',
    show (4 : UInt32).toNat = 4 from rfl]
  refine Iff.trans ?_ (countP_range_add_iff (w := 5) (k := 27) cfg.channelGroupMask.toNat_lt)
  change _ ↔ cfg.rank capiCmnMaxChannelMapGroups =
    (range 32).countP cfg.channelGroupMask.toNat.testBit
  omega

/-- What is claimed of the calls for the configurations of a parameter. -/
structure ChecksRight (paramSize base offset required : UInt32) (cfgs : List ChannelCfg) :
    Prop where
  /-- Each configuration has a channel, and no two share one other than bit 0 of group 0. -/
  verdict : (checkAll base cfgs (fun _ => 0) offset).isSome = true ↔
    (∀ cfg ∈ cfgs, ∃ g i, HasChannel cfg.mask g i) ∧
      cfgs.Pairwise fun cfg cfg' => Apart cfg.mask cfg'.mask
  order : ∀ cfgs', cfgs'.Perm cfgs → (checkAll base cfgs' (fun _ => 0) offset).isSome =
    (checkAll base cfgs (fun _ => 0) offset).isSome
  masks : ∀ res, checkAll base cfgs (fun _ => 0) offset = some res →
    ∀ g i, HasChannel res.1 g i ↔ ∃ cfg ∈ cfgs, HasChannel cfg.mask g i
  /-- The offsets are the sizes, and so they lead to what the sizes add up to. -/
  offsets : ∀ res, checkAll base cfgs (fun _ => 0) offset = some res →
    res.2 = cfgs.map (fun cfg =>
      (checkPayloadValidation paramSize base cfg.channelGroupMask required).2.1) ∧
    cfgs.foldl (fun required cfg =>
      (checkPayloadValidation paramSize base cfg.channelGroupMask required).2.2) required =
        res.2.foldl (· + ·) required

/-- **The configurations of a parameter.**  The calls do what is claimed of them exactly if each
configuration has a channel and no groups but those that there are, or two share a channel other
than bit 0 of group 0: a configuration without a channel passes for one that was checked. -/
theorem checksRight_iff (paramSize base offset required : UInt32) (cfgs : List ChannelCfg) :
    ChecksRight paramSize base offset required cfgs ↔
      (∀ cfg ∈ cfgs, cfg.channelGroupMask.toNat < 2 ^ capiCmnMaxChannelMapGroups ∧
        ∃ g i, HasChannel cfg.mask g i) ∨
        ¬cfgs.Pairwise fun cfg cfg' => Apart cfg.mask cfg'.mask := by
  have hnone : ∀ g i, ¬HasChannel (fun _ => 0) g i := fun g i hi => by simp [HasChannel] at hi
  have hiff : ∀ cfgs, (checkAll base cfgs (fun _ => 0) offset).isSome = true ↔
      cfgs.Pairwise fun cfg cfg' => Apart cfg.mask cfg'.mask := fun cfgs => by
    rw [checkAll_iff]
    exact and_iff_left fun cfg _ g i hi => absurd hi (hnone g i)
  constructor
  · intro h
    refine or_iff_not_imp_right.mpr fun hpairs => ?_
    have hsome := (hiff cfgs).mpr (not_not.mp hpairs)
    have hchannels := (h.verdict.mp hsome).1
    obtain ⟨res, hres⟩ := Option.isSome_iff_exists.mp hsome
    -- the offsets and the sizes are the same list
    have hsizes := (checkAll_offsets hres hchannels).symm.trans (h.offsets res hres).1
    exact fun cfg hcfg => ⟨(size_eq_iff cfg base).mp (List.map_inj_left.mp hsizes cfg hcfg),
      hchannels cfg hcfg⟩
  · intro h
    have hsome : (checkAll base cfgs (fun _ => 0) offset).isSome = true → ∀ cfg ∈ cfgs,
        cfg.channelGroupMask.toNat < 2 ^ capiCmnMaxChannelMapGroups ∧
          ∃ g i, HasChannel cfg.mask g i :=
      fun hall => h.resolve_right (not_not.mpr ((hiff cfgs).mp hall))
    refine ⟨⟨fun hall => ⟨fun cfg hcfg => (hsome hall cfg hcfg).2, (hiff cfgs).mp hall⟩,
      fun hall => (hiff cfgs).mpr hall.2⟩, fun cfgs' hperm => ?_, fun res hres g i => ?_,
      fun res hres => ?_⟩
    · rw [Bool.eq_iff_iff, hiff, hiff, hperm.pairwise_iff fun h => apart_comm.mp h]
    · rw [checkAll_masks hres, or_iff_right (hnone g i)]
    · have hall := hsome (by rw [hres, Option.isSome_some])
      have hsizes : res.2 = cfgs.map fun cfg =>
          (checkPayloadValidation paramSize base cfg.channelGroupMask required).2.1 := by
        rw [checkAll_offsets hres fun cfg hcfg => (hall cfg hcfg).2]
        exact List.map_congr_left fun cfg hcfg => (size_eq_iff cfg base).mpr (hall cfg hcfg).1
      refine ⟨hsizes, ?_⟩
      rw [hsizes, List.foldl_map]
      rfl

/-- A configuration of group 0 without a channel: `CAPI_EBADPARAM` counts as `TRUE`. -/
theorem not_checksRight : ¬∀ cfgs : List ChannelCfg,
    (∀ cfg ∈ cfgs, cfg.channelGroupMask.toNat < 2 ^ capiCmnMaxChannelMapGroups) →
    ChecksRight 100 4 0 0 cfgs := by
  intro h
  have hverdict := (h [⟨1, fun _ => 0⟩] (by decide)).verdict.mp rfl
  obtain ⟨g, i, hi⟩ := hverdict.1 ⟨1, fun _ => 0⟩ (List.mem_singleton_self _)
  simp [HasChannel, ChannelCfg.mask] at hi

end AudioReach.ChannelMask
