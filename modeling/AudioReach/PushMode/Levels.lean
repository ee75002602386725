import AudioReach.ArResult
import AudioReach.Library.Runs

/-!
# Watermark levels

A client of the pull and push mode modules can ask for an event when the data in the circular
buffer passes a level.  `pull_push_mode_watermark_levels_init` keeps the levels in an array from
the heap, which replaces the array of an earlier call, and `pull_push_mode_deinit` frees the last
one.

The function stores the number of levels before it has an array for them, frees the array of the
earlier call without forgetting the pointer, and finds a level that is too high while it fills the
new array.  What it leaves behind then is not an array with that many levels.

An array is known by its number here, so that an array that was freed is told from the next one;
what the heap gives is a parameter of the calls.
-/

namespace AudioReach

open Library List Option

/-- An array of `pull_push_mode_watermark_level_t`. -/
structure LevelArray where
  /-- `watermark_level_bytes` of each entry, or `none` as long as nothing was stored there. -/
  entries : List (Option UInt32)
  frees : ℕ
  deriving DecidableEq

/-- The part of a `pull_push_mode_t` for the levels, and every array that was ever allocated. -/
structure PmLevels where
  numWaterMarkLevels : UInt32
  waterMarkLevelsPtr : Option ℕ
  sharedCircBufSize : UInt32
  arrays : List LevelArray

/-- The levels of a call, whose number is a `uint32_t`. -/
structure LevelsCfg where
  /-- `water_mark_levels`. -/
  levels : List UInt32
  /-- `num_water_mark_levels` is their number. -/
  length_lt : levels.length < 2 ^ 32

/-- `num_water_mark_levels` of a call. -/
def LevelsCfg.num (cfg : LevelsCfg) : UInt32 := UInt32.ofNat cfg.levels.length

lemma LevelsCfg.num_toNat (cfg : LevelsCfg) : cfg.num.toNat = cfg.levels.length :=
  UInt32.toNat_ofNat_of_lt' cfg.length_lt

namespace PmLevels

/-! ## The functions -/

/-- `posal_memory_free`. -/
def free (s : PmLevels) : Option ℕ → PmLevels
  | none => s
  | some p => { s with arrays := s.arrays.modify p fun a => { a with frees := a.frees + 1 } }

/-- The loop over the levels from the one with the index `i` on: whether no level is too high,
and the entries. -/
def fillLevels (sharedCircBufSize : UInt32) :
    List UInt32 → ℕ → List (Option UInt32) → Bool × List (Option UInt32)
  | [], _, entries => (true, entries)
  | level :: levels, i, entries =>
    if level ≤ sharedCircBufSize then
      fillLevels sharedCircBufSize levels (i + 1) (entries.set i (some level))
    else (false, entries)

/-- The entries of a new array: `posal_memory_malloc` takes the size as a `uint32_t`. -/
def newEntries (num : UInt32) : List (Option UInt32) := replicate ((num * 4).toNat / 4) none

/-- `pull_push_mode_watermark_levels_init`; `heap` says whether there is memory. -/
def watermarkLevelsInit (s : PmLevels) (cfg : LevelsCfg) (heap : Bool) : ArResult × PmLevels :=
  let s := { s with numWaterMarkLevels := cfg.num }.free s.waterMarkLevelsPtr
  if 0 < s.numWaterMarkLevels then
    if heap then
      let r := fillLevels s.sharedCircBufSize cfg.levels 0 (newEntries s.numWaterMarkLevels)
      (if r.1 then .eok else .efailed,
        { s with waterMarkLevelsPtr := some s.arrays.length, arrays := s.arrays ++ [⟨r.2, 0⟩] })
    else (.enomemory, { s with waterMarkLevelsPtr := none })
  else (.eok, s)

/-- `pull_push_mode_deinit`, as far as the levels go. -/
def deinit (s : PmLevels) : PmLevels :=
  if 0 < s.numWaterMarkLevels then s.free s.waterMarkLevelsPtr else s

/-- Entry `i` of the array, if that is an entry of a live array and something was stored there. -/
def readLevel (s : PmLevels) (i : ℕ) : Option UInt32 :=
  s.waterMarkLevelsPtr.bind fun p => s.arrays[p]?.bind fun a =>
    if a.frees = 0 then (a.entries[i]?).join else none

/-- The levels that are in force. -/
def levelsInForce (s : PmLevels) : Option (List UInt32) :=
  (range s.numWaterMarkLevels.toNat).mapM s.readLevel

/-- `pull_push_mode_check_send_watermark_event`: the levels that are passed are sent, and the
result is that of the last event.  Nothing is changed. -/
def checkSendWatermarkEvent (s : PmLevels) (send : UInt32 → ArResult)
    (startLevel endLevel : UInt32) : Option (ArResult × List UInt32) :=
  s.levelsInForce.map fun levels =>
    let passed := levels.filter fun level => level > startLevel ∧ level ≤ endLevel
    (((passed.map send).getLast?).getD .eok, passed)

/-! ## Runs -/

/-- What happens between `pull_push_mode_init` and `pull_push_mode_deinit`. -/
inductive Call
  /-- `pull_push_mode_watermark_levels_init`. -/
  | init (cfg : LevelsCfg) (heap : Bool)
  /-- Data is processed, with the check for levels that are passed. -/
  | process (startLevel endLevel : UInt32)

/-- A call. -/
def step (s : PmLevels) : Call → PmLevels
  | .init cfg heap => (s.watermarkLevelsInit cfg heap).2
  | .process _ _ => s

/-- A module that was just initialised. -/
def start (sharedCircBufSize : UInt32) : PmLevels := ⟨0, none, sharedCircBufSize, []⟩

/-- No array was freed twice, and there are as many levels as the module counts: initialised
entries of a live array. -/
structure Sound (s : PmLevels) : Prop where
  frees : ∀ a ∈ s.arrays, a.frees ≤ 1
  count : ∀ i < s.numWaterMarkLevels.toNat, (s.readLevel i).isSome = true

/-- A configuration that is rejected leaves the previous levels in force, or none. -/
def RejectedRight (s : PmLevels) : Call → Prop
  | .init cfg heap => (s.watermarkLevelsInit cfg heap).1 ≠ .eok →
      (s.watermarkLevelsInit cfg heap).2.levelsInForce = s.levelsInForce ∨
        (s.watermarkLevelsInit cfg heap).2.levelsInForce = some []
  | .process _ _ => True

/-- Everything that is right about a run that ends with `pull_push_mode_deinit`. -/
structure RunRight (s : PmLevels) (calls : List Call) : Prop where
  sound : Along step Sound s calls
  rejected : Meets step RejectedRight s calls
  freed : ∀ a ∈ (run step s calls).deinit.arrays, a.frees = 1

/-- The pointer is to an array that was freed. -/
def Dangling (s : PmLevels) : Prop :=
  ∃ p a, s.waterMarkLevelsPtr = some p ∧ s.arrays[p]? = some a ∧ a.frees ≠ 0

/-- What the code needs: the pointer is not to an array that was freed, and if there are levels,
there is memory for them, whose size is a `uint32_t`, and no level is higher than the buffer. -/
def Accepted (s : PmLevels) : Call → Prop
  | .init cfg heap => ¬ s.Dangling ∧ (cfg.levels = [] ∨
      heap = true ∧ cfg.levels.length < 2 ^ 30 ∧ ∀ level ∈ cfg.levels, level ≤ s.sharedCircBufSize)
  | .process _ _ => True

/-! ## One array -/

lemma fillLevels_of_lt {size : UInt32} (levels : List UInt32) {i j : ℕ} (hj : j < i)
    (entries : List (Option UInt32)) :
    (fillLevels size levels i entries).2[j]? = entries[j]? := by
  induction levels generalizing i entries with
  | nil => rfl
  | cons level levels ih =>
    rw [fillLevels]
    split
    · rw [ih (Nat.lt_succ_of_lt hj), getElem?_set_ne (by omega)]
    · rfl

/-- **Filling.** All entries from `i` on are initialised if and only if there are enough of them
and no level is too high. -/
lemma fillLevels_iff {size : UInt32} (levels : List UInt32) (i : ℕ)
    (entries : List (Option UInt32)) (hblank : ∀ j, i ≤ j → (entries[j]?).join = none) :
    (∀ j < levels.length, ((fillLevels size levels i entries).2[i + j]?).join.isSome = true) ↔
      (levels = [] ∨ i + levels.length ≤ entries.length) ∧ ∀ level ∈ levels, level ≤ size := by
  induction levels generalizing i entries with
  | nil => simp
  | cons level levels ih =>
    rw [fillLevels, length_cons, or_iff_right (cons_ne_nil _ _), forall_mem_cons]
    by_cases hle : level ≤ size
    · rw [if_pos hle]
      have hrest := ih (i + 1) (entries.set i (some level)) fun j hj => by
        rw [getElem?_set_ne (by omega)]
        exact hblank j (by omega)
      rw [length_set] at hrest
      have hfirst :
          ((fillLevels size levels (i + 1) (entries.set i (some level))).2[i]?).join.isSome = true ↔
            i < entries.length := by
        rw [fillLevels_of_lt levels (Nat.lt_succ_self i), getElem?_set_self']
        by_cases hi : i < entries.length
        · simp [hi]
        · simp [hi]
      constructor
      · intro h
        have hlt := hfirst.mp (h 0 (Nat.succ_pos _))
        obtain ⟨hlen, hall⟩ := hrest.mp fun j hj => by
          rw [Nat.add_right_comm i 1 j]
          exact h (j + 1) (by omega)
        refine ⟨?_, hle, hall⟩
        rcases hlen with rfl | hlen
        · exact hlt
        · omega
      · rintro ⟨hlen, -, hall⟩ j hj
        cases j with
        | zero => exact hfirst.mpr (by omega)
        | succ j =>
          have := hrest.mpr ⟨Or.inr (by omega), hall⟩ j (by omega)
          rwa [Nat.add_right_comm i 1 j] at this
    · rw [if_neg hle]
      refine iff_of_false (fun h => ?_) fun h => hle h.2.1
      have hfirst := h 0 (Nat.succ_pos _)
      rw [Nat.add_zero, hblank i le_rfl] at hfirst
      exact Bool.false_ne_true hfirst

lemma fillLevels_fst {size : UInt32} {levels : List UInt32}
    (hall : ∀ level ∈ levels, level ≤ size) (i : ℕ) (entries : List (Option UInt32)) :
    (fillLevels size levels i entries).1 = true := by
  induction levels generalizing i entries with
  | nil => rfl
  | cons level levels ih =>
    rw [forall_mem_cons] at hall
    rw [fillLevels, if_pos hall.1]
    exact ih hall.2 _ _

/-- The array has an entry for each level as long as its size is a `uint32_t`. -/
lemma length_le_newEntries_iff {cfg : LevelsCfg} (hne : cfg.levels ≠ []) :
    cfg.levels.length ≤ (newEntries cfg.num).length ↔ cfg.levels.length < 2 ^ 30 := by
  have hpos := length_pos_iff.mpr hne
  rw [newEntries, length_replicate, UInt32.toNat_mul, cfg.num_toNat]
  change cfg.levels.length ≤ cfg.levels.length * 4 % 2 ^ 32 / 4 ↔ _
  omega

/-! ## One call -/

/-- The array of an earlier call is freed, and the new number of levels is stored. -/
def replaced (s : PmLevels) (cfg : LevelsCfg) : PmLevels :=
  { s with numWaterMarkLevels := cfg.num }.free s.waterMarkLevelsPtr

section Replaced

variable (s : PmLevels) (cfg : LevelsCfg)

lemma free_eq (ptr : Option ℕ) : s.free ptr = { s with arrays := (s.free ptr).arrays } := by
  cases ptr <;> rfl

@[simp] lemma replaced_num : (s.replaced cfg).numWaterMarkLevels = cfg.num := by
  rw [replaced, free_eq]

@[simp] lemma replaced_ptr : (s.replaced cfg).waterMarkLevelsPtr = s.waterMarkLevelsPtr := by
  rw [replaced, free_eq]

@[simp] lemma replaced_size : (s.replaced cfg).sharedCircBufSize = s.sharedCircBufSize := by
  rw [replaced, free_eq]

@[simp] lemma free_getElem? (ptr : Option ℕ) (q : ℕ) :
    (s.free ptr).arrays[q]? = s.arrays[q]?.map fun a =>
      if ptr = some q then { a with frees := a.frees + 1 } else a := by
  cases ptr with
  | none => simp [free]
  | some p =>
    rw [free, getElem?_modify]
    by_cases hpq : p = q
    · simp [hpq]
    · simp [hpq]

lemma replaced_getElem? (q : ℕ) : (s.replaced cfg).arrays[q]? = s.arrays[q]?.map fun a =>
      if s.waterMarkLevelsPtr = some q then { a with frees := a.frees + 1 } else a :=
  free_getElem? _ _ q

@[simp] lemma replaced_length : (s.replaced cfg).arrays.length = s.arrays.length := by
  rw [replaced]
  cases s.waterMarkLevelsPtr with
  | none => rfl
  | some p => exact length_modify _ _ _

end Replaced

/-- The three ways a configuration can go. -/
lemma init_cases (s : PmLevels) (cfg : LevelsCfg) (heap : Bool) :
    cfg.levels = [] ∧ s.watermarkLevelsInit cfg heap = (.eok, s.replaced cfg) ∨
    cfg.levels ≠ [] ∧ heap = false ∧ s.watermarkLevelsInit cfg heap
      = (.enomemory, { s.replaced cfg with waterMarkLevelsPtr := none }) ∨
    cfg.levels ≠ [] ∧ heap = true ∧ s.watermarkLevelsInit cfg heap
      = (if (fillLevels s.sharedCircBufSize cfg.levels 0 (newEntries cfg.num)).1 then .eok
          else .efailed,
        { s.replaced cfg with
          waterMarkLevelsPtr := some s.arrays.length
          arrays := (s.replaced cfg).arrays ++
            [⟨(fillLevels s.sharedCircBufSize cfg.levels 0 (newEntries cfg.num)).2, 0⟩] }) := by
  have hinit : s.watermarkLevelsInit cfg heap =
      if 0 < (s.replaced cfg).numWaterMarkLevels then
        if heap then
          let r := fillLevels (s.replaced cfg).sharedCircBufSize cfg.levels 0
            (newEntries (s.replaced cfg).numWaterMarkLevels)
          (if r.1 then .eok else .efailed,
            { s.replaced cfg with
              waterMarkLevelsPtr := some (s.replaced cfg).arrays.length
              arrays := (s.replaced cfg).arrays ++ [⟨r.2, 0⟩] })
        else (.enomemory, { s.replaced cfg with waterMarkLevelsPtr := none })
      else (.eok, s.replaced cfg) := rfl
  rw [replaced_num, replaced_size, replaced_length] at hinit
  have hpos : 0 < cfg.num ↔ cfg.levels ≠ [] := by
    rw [UInt32.lt_iff_toNat_lt, cfg.num_toNat]
    exact length_pos_iff
  by_cases hne : cfg.levels = []
  · rw [if_neg (mt hpos.mp (not_not.mpr hne))] at hinit
    exact Or.inl ⟨hne, hinit⟩
  · rw [if_pos (hpos.mpr hne)] at hinit
    cases heap with
    | false => exact Or.inr (Or.inl ⟨hne, rfl, hinit⟩)
    | true => exact Or.inr (Or.inr ⟨hne, rfl, hinit⟩)

/-! ## What every call keeps -/

/-- The pointer is to an array, and an array that was not freed is the one that is pointed to, for
some levels. -/
structure Tracked (s : PmLevels) : Prop where
  bound : ∀ p, s.waterMarkLevelsPtr = some p → p < s.arrays.length
  live : ∀ p a, s.arrays[p]? = some a → a.frees = 0 →
    s.waterMarkLevelsPtr = some p ∧ s.numWaterMarkLevels ≠ 0

lemma Tracked.replaced_frees {s : PmLevels} (h : s.Tracked) (cfg : LevelsCfg) {p : ℕ}
    {a : LevelArray} (ha : (s.replaced cfg).arrays[p]? = some a) : a.frees ≠ 0 := by
  rw [replaced_getElem?] at ha
  obtain ⟨b, hb, rfl⟩ := map_eq_some_iff.mp ha
  split
  · exact Nat.succ_ne_zero _
  · rename_i hne
    exact fun hzero => hne (h.live p b hb hzero).1

lemma tracked_step (s : PmLevels) (c : Call) (h : s.Tracked) : (s.step c).Tracked := by
  cases c with
  | process startLevel endLevel => exact h
  | init cfg heap =>
    rw [step]
    rcases s.init_cases cfg heap with ⟨-, heq⟩ | ⟨-, -, heq⟩ | ⟨hne, -, heq⟩
    · rw [heq]
      refine ⟨fun p hp => ?_, fun p a ha hzero => absurd hzero (h.replaced_frees cfg ha)⟩
      rw [replaced_ptr] at hp
      rw [replaced_length]
      exact h.bound p hp
    · rw [heq]
      exact ⟨fun p hp => absurd hp.symm (some_ne_none p),
        fun p a ha hzero => absurd hzero (h.replaced_frees cfg ha)⟩
    · rw [heq]
      refine ⟨fun p hp => ?_, fun p a ha hzero => ?_⟩
      · rw [← Option.some.inj hp, length_append, replaced_length, length_singleton]
        exact Nat.lt_succ_self _
      · rcases lt_or_ge p s.arrays.length with hlt | hge
        · rw [getElem?_append_left (by rwa [replaced_length])] at ha
          exact absurd hzero (h.replaced_frees cfg ha)
        · rw [getElem?_append_right (by rwa [replaced_length]), replaced_length] at ha
          have hp : p = s.arrays.length := by
            have hlast := (List.getElem?_eq_some_iff.mp ha).1
            rw [length_singleton] at hlast
            omega
          refine ⟨by rw [hp], fun hnum => hne (length_eq_zero_iff.mp ?_)⟩
          rw [← cfg.num_toNat, ← replaced_num s, hnum]
          rfl

lemma tracked_start (sharedCircBufSize : UInt32) : (start sharedCircBufSize).Tracked :=
  ⟨fun p hp => absurd hp.symm (some_ne_none p), fun p a ha => by simp [start] at ha⟩

lemma sound_start (sharedCircBufSize : UInt32) : (start sharedCircBufSize).Sound :=
  ⟨fun a ha => by simp [start] at ha, fun i hi => absurd hi (Nat.not_lt_zero i)⟩

/-! ## When a call is right -/

section

variable {s : PmLevels} (h : ∀ a ∈ s.arrays, a.frees ≤ 1) (cfg : LevelsCfg)
include h

/-- Freeing the array of the earlier call frees no array twice if and only if the pointer is not
to an array that was freed. -/
lemma replaced_frees_le_iff : (∀ a ∈ (s.replaced cfg).arrays, a.frees ≤ 1) ↔ ¬ s.Dangling := by
  constructor
  · rintro hle ⟨p, a, hp, ha, hfreed⟩
    have hmem : { a with frees := a.frees + 1 } ∈ (s.replaced cfg).arrays := by
      apply mem_of_getElem?
      rw [replaced_getElem?, ha, map_some, if_pos hp]
    have := hle _ hmem
    dsimp only at this
    omega
  · intro hdangling a ha
    obtain ⟨p, hp⟩ := mem_iff_getElem?.mp ha
    rw [replaced_getElem?] at hp
    obtain ⟨b, hb, rfl⟩ := map_eq_some_iff.mp hp
    split
    · rename_i hptr
      have hzero : b.frees = 0 := by
        by_contra hfreed
        exact hdangling ⟨p, b, hptr, hb, hfreed⟩
      rw [hzero]
    · exact h b (mem_of_getElem? hb)

/-- A configuration is sound if and only if it is one the code can accept. -/
lemma sound_init_iff (heap : Bool) :
    (s.watermarkLevelsInit cfg heap).2.Sound ↔ s.Accepted (.init cfg heap) := by
  rw [Accepted]
  rcases s.init_cases cfg heap with ⟨hnil, heq⟩ | ⟨hne, hheap, heq⟩ | ⟨hne, hheap, heq⟩
  · rw [heq, ← replaced_frees_le_iff h cfg, and_iff_left (Or.inl hnil)]
    refine ⟨fun hsound => hsound.frees, fun hfrees => ⟨hfrees, fun i hi => ?_⟩⟩
    rw [replaced_num, cfg.num_toNat, hnil] at hi
    exact absurd hi (Nat.not_lt_zero i)
  · rw [heq, hheap]
    refine iff_of_false (fun hsound => ?_) fun hacc => ?_
    · have hread := hsound.count 0 (by
        rw [replaced_num, cfg.num_toNat]
        exact length_pos_iff.mpr hne)
      exact Bool.false_ne_true hread
    · rcases hacc.2 with hnil | ⟨hfalse, -⟩
      · exact hne hnil
      · exact Bool.false_ne_true hfalse
  · rw [heq, hheap, or_iff_right hne, and_iff_right rfl, ← replaced_frees_le_iff h cfg]
    generalize hfill : fillLevels s.sharedCircBufSize cfg.levels 0 (newEntries cfg.num) = r
    have hblank : ∀ j, 0 ≤ j → ((newEntries cfg.num)[j]?).join = none := by
      intro j _
      rw [newEntries, getElem?_replicate]
      split <;> rfl
    have hiff := @fillLevels_iff s.sharedCircBufSize cfg.levels 0 _ hblank
    rw [hfill, or_iff_right hne, Nat.zero_add, length_le_newEntries_iff hne] at hiff
    have hread : ∀ i, ({ s.replaced cfg with
        waterMarkLevelsPtr := some s.arrays.length
        arrays := (s.replaced cfg).arrays ++ [⟨r.2, 0⟩] } : PmLevels).readLevel i
          = (r.2[0 + i]?).join := by
      intro i
      rw [readLevel, bind_some]
      simp
    rw [← hiff]
    constructor
    · intro hsound
      refine ⟨fun a ha => hsound.frees a (mem_append_left _ ha), fun j hj => ?_⟩
      rw [← hread]
      refine hsound.count j ?_
      rw [replaced_num, cfg.num_toNat]
      exact hj
    · rintro ⟨hfrees, hcount⟩
      refine ⟨fun a ha => ?_, fun i hi => ?_⟩
      · rcases mem_append.mp ha with ha | ha
        · exact hfrees a ha
        · rw [mem_singleton.mp ha]
          exact Nat.zero_le 1
      · rw [hread]
        rw [replaced_num, cfg.num_toNat] at hi
        exact hcount i hi

end

lemma init_eok {s : PmLevels} {cfg : LevelsCfg} {heap : Bool}
    (h : s.Accepted (.init cfg heap)) : (s.watermarkLevelsInit cfg heap).1 = .eok := by
  obtain ⟨-, h⟩ := h
  rcases s.init_cases cfg heap with ⟨-, heq⟩ | ⟨hne, hheap, heq⟩ | ⟨hne, -, heq⟩
  · rw [heq]
  · rcases h with hnil | ⟨htrue, -⟩
    · exact absurd hnil hne
    · exact absurd (hheap.symm.trans htrue) Bool.false_ne_true
  · rcases h with hnil | ⟨-, -, hall⟩
    · exact absurd hnil hne
    · rw [heq, fillLevels_fst hall]
      rfl

/-- **One call.** It is right if and only if it is one the code can accept. -/
lemma step_right_iff (s : PmLevels) (c : Call) (hs : s.Sound) :
    s.Accepted c ↔ (s.step c).Sound ∧ s.RejectedRight c := by
  cases c with
  | process startLevel endLevel => exact iff_of_true trivial ⟨hs, trivial⟩
  | init cfg heap =>
    rw [step, sound_init_iff hs.frees]
    exact ⟨fun h => ⟨h, fun hne => absurd (init_eok h) hne⟩, fun h => h.1⟩

/-- In the end every array is freed once. -/
lemma deinit_freed {s : PmLevels} (htracked : s.Tracked) (hsound : s.Sound) :
    ∀ a ∈ s.deinit.arrays, a.frees = 1 := by
  intro a ha
  obtain ⟨p, hp⟩ := mem_iff_getElem?.mp ha
  rw [deinit] at hp
  have hone : ∀ b, s.arrays[p]? = some b → b.frees ≠ 0 → b.frees = 1 := fun b hb hne => by
    have := hsound.frees b (mem_of_getElem? hb)
    omega
  by_cases hnum : 0 < s.numWaterMarkLevels
  · rw [if_pos hnum, free_getElem?] at hp
    obtain ⟨b, hb, rfl⟩ := map_eq_some_iff.mp hp
    by_cases hptr : s.waterMarkLevelsPtr = some p
    · -- the levels are read from this array, so it is live
      have hread := hsound.count 0 (UInt32.lt_iff_toNat_lt.mp hnum)
      rw [readLevel, hptr, bind_some, hb, bind_some] at hread
      rw [if_pos hptr]
      by_cases hzero : b.frees = 0
      · rw [hzero]
      · rw [if_neg hzero] at hread
        exact absurd hread Bool.false_ne_true
    · rw [if_neg hptr]
      exact hone b hb fun hzero => hptr (htracked.live p b hb hzero).1
  · rw [if_neg hnum] at hp
    refine hone a hp fun hzero => hnum ?_
    have hne := (htracked.live p a hp hzero).2
    exact Nat.pos_of_ne_zero fun h => hne (UInt32.toNat_inj.mp h)

/-- **Exactly the right runs.** A run of configurations and processing that ends with
`pull_push_mode_deinit` is right if and only if each of its configurations is one that the code
can accept in the state in which it comes. -/
theorem pullPushModeLevels_right_iff (sharedCircBufSize : UInt32) (calls : List Call) :
    RunRight (start sharedCircBufSize) calls ↔
      Meets step Accepted (start sharedCircBufSize) calls := by
  have hexact := meets_iff_along (J := Tracked) (P := Sound)
    (fun s c h => tracked_step s c h) (fun s c _ hs => step_right_iff s c hs)
    (tracked_start sharedCircBufSize) (sound_start sharedCircBufSize) calls
  rw [hexact]
  constructor
  · exact fun h => ⟨h.sound, h.rejected⟩
  · rintro ⟨hsound, hrejected⟩
    exact ⟨hsound, hrejected, deinit_freed
      (run_induction (fun s c h => tracked_step s c h) (tracked_start _) calls) hsound.last⟩

/-- **The claim fails.** A level that is too high is found when the number of levels is stored
already. -/
theorem not_pullPushModeLevels_right : ¬ ∀ (sharedCircBufSize : UInt32) (calls : List Call),
      RunRight (start sharedCircBufSize) calls := by
  intro h
  have hsound := (h 100 [.init ⟨[200], by decide⟩ true]).sound.last
  have hread := hsound.count 0 (by decide)
  revert hread
  decide

end PmLevels

end AudioReach
