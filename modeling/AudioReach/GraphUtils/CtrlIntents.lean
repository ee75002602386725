import Mathlib.Data.List.TakeWhile
import AudioReach.ArResult
import AudioReach.Library.Words

/-!
# Intent lists of a control link

`gu_create_control_link` looks at the properties of a control link twice.  First
`gu_get_required_ctrl_port_additional_size` adds up what the intent lists need, and the port
object is allocated with that many bytes behind it; then `gu_parse_ctrl_port_props` copies the
lists there, one behind the other.  Both passes walk over the same bytes and stop at the first
intent list whose property is too small to hold its counter.

All sizes are 32-bit words, and nothing relates the counter of a list to the size of its
property.  When the sizes add up to `2 ^ 32` or more, the object is smaller than what is copied
into it.  The copying loop looks only at the start of a list before it copies it, so it runs over
the end of the object, unless the lists happen to fill the smaller object exactly.

Words of the port object are named by their byte offset.  Those written here all lie a multiple of
four bytes behind the base size, so no two of them overlap in part.
-/

namespace AudioReach

open Library List

/-! ## The properties of a link in memory -/

/-- `APM_MODULE_PROP_ID_CTRL_LINK_INTENT_LIST`. -/
def ctrlLinkIntentListId : UInt32 := 0x08001062

/-- `apm_prop_data_t`, with the address of the payload behind it. -/
structure ApmPropData where
  propId : UInt32
  propSize : UInt32
  payload : ℕ
  deriving DecidableEq, Repr

/-- The property at an address. -/
def apmPropData (mem : ℕ → UInt8) (ptr : ℕ) : ApmPropData :=
  ⟨wordAt mem ptr, wordAt mem (ptr + 4), ptr + 8⟩

/-- The address behind the payload. -/
def ApmPropData.next (prop : ApmPropData) : ℕ := prop.payload + prop.propSize.toNat

/-- `num_intents` of an intent list. -/
def numIntents (mem : ℕ → UInt8) (payload : ℕ) : UInt32 := wordAt mem payload

/-- `intent_id_list[i]` of an intent list. -/
def intentId (mem : ℕ → UInt8) (payload i : ℕ) : UInt32 := wordAt mem (payload + 4 + 4 * i)

/-- `apm_module_ctrl_link_cfg_t`: memory and the address of the structure. -/
structure CtrlLinkCfgBytes where
  mem : ℕ → UInt8
  addr : ℕ

namespace CtrlLinkCfgBytes

/-- `num_props`, behind two pairs of module and port. -/
def numProps (link : CtrlLinkCfgBytes) : UInt32 := wordAt link.mem (link.addr + 16)

/-- The address of the first property. -/
def firstProp (link : CtrlLinkCfgBytes) : ℕ := link.addr + 20

end CtrlLinkCfgBytes

/-! ## The sizing pass -/

/-- The loop of `gu_get_required_ctrl_port_additional_size` from one property on. -/
def additionalSizeFrom (mem : ℕ → UInt8) : ℕ → ℕ → UInt32 → UInt32
  | 0, _, additionalSize => additionalSize
  | rounds + 1, ptr, additionalSize =>
      let prop := apmPropData mem ptr
      if prop.propId = ctrlLinkIntentListId then
        -- the property must hold `num_intents`, else the size found so far is returned
        if prop.propSize < 4 then additionalSize
        else additionalSizeFrom mem rounds prop.next
          (additionalSize + (4 + 4 * numIntents mem prop.payload))
      else additionalSizeFrom mem rounds prop.next additionalSize

/-- `gu_get_required_ctrl_port_additional_size`. -/
def guGetRequiredCtrlPortAdditionalSize (link : CtrlLinkCfgBytes) : UInt32 :=
  additionalSizeFrom link.mem link.numProps.toNat link.firstProp 0

/-! ## The copying pass -/

/-- What the copying pass does to a `gu_ctrl_port_t`. -/
structure GuCtrlPortIntents where
  /-- `intent_info_ptr`, as an offset into the object. -/
  intentInfo : Option ℕ
  words : ℕ → UInt32
  /-- The offsets of the words written through `intent_info_ptr`, in order. -/
  written : List ℕ

namespace GuCtrlPortIntents

/-- A port just allocated: zero everywhere. -/
def fresh : GuCtrlPortIntents := ⟨none, fun _ => 0, []⟩

/-- Write one word through `intent_info_ptr`. -/
def writeWord (port : GuCtrlPortIntents) (offset : ℕ) (v : UInt32) : GuCtrlPortIntents :=
  { port with
    words := Function.update port.words offset v
    written := port.written ++ [offset] }

/-- One intent list is copied to an offset: the number of intents, then the intents. -/
def copyIntents (mem : ℕ → UInt8) (payload offset : ℕ) (port : GuCtrlPortIntents) :
    GuCtrlPortIntents :=
  (range (numIntents mem payload).toNat).foldl
    (fun port i => port.writeWord (offset + 4 + 4 * i) (intentId mem payload i))
    ({ port with intentInfo := some offset }.writeWord offset (numIntents mem payload))

/-- What the port's users read through `intent_info_ptr`. -/
def intents? (port : GuCtrlPortIntents) : Option (List UInt32) :=
  port.intentInfo.map fun offset =>
    (range (port.words offset).toNat).map fun i => port.words (offset + 4 + 4 * i)

end GuCtrlPortIntents

/-- The loop of `gu_parse_ctrl_port_props` from one property on. -/
def parseCtrlPortPropsFrom (mem : ℕ → UInt8) (maxCtrlPortSize : UInt32) :
    ℕ → ℕ → UInt32 → GuCtrlPortIntents → ArResult × GuCtrlPortIntents
  | 0, _, _, port => (.eok, port)
  | rounds + 1, ptr, curMemoryOffset, port =>
      let prop := apmPropData mem ptr
      if prop.propId = ctrlLinkIntentListId then
        if maxCtrlPortSize ≤ curMemoryOffset then (.efailed, port)
        else if prop.propSize < 4 then (.efailed, port)
        else parseCtrlPortPropsFrom mem maxCtrlPortSize rounds prop.next
          (curMemoryOffset + (4 + 4 * numIntents mem prop.payload))
          (port.copyIntents mem prop.payload curMemoryOffset.toNat)
      else parseCtrlPortPropsFrom mem maxCtrlPortSize rounds prop.next curMemoryOffset port

/-- `gu_parse_ctrl_port_props`. -/
def guParseCtrlPortProps (link : CtrlLinkCfgBytes) (port : GuCtrlPortIntents)
    (maxCtrlPortSize propMemOffset : UInt32) : ArResult × GuCtrlPortIntents :=
  parseCtrlPortPropsFrom link.mem maxCtrlPortSize link.numProps.toNat link.firstProp
    propMemOffset port

/-- The part of `gu_create_control_link` about one of the two ports: its size and what it holds
after the copying pass.  The result of that pass is not looked at. -/
def guCreateControlLinkPort (link : CtrlLinkCfgBytes) (baseCtrlPortSize : UInt32) :
    UInt32 × GuCtrlPortIntents :=
  let size := baseCtrlPortSize + guGetRequiredCtrlPortAdditionalSize link
  (size, (guParseCtrlPortProps link .fresh size baseCtrlPortSize).2)

/-! ## The properties as a list -/

/-- The properties from an address on. -/
def apmProps (mem : ℕ → UInt8) : ℕ → ℕ → List ApmPropData
  | 0, _ => []
  | rounds + 1, ptr => apmPropData mem ptr :: apmProps mem rounds (apmPropData mem ptr).next

/-- The intent lists in front of the first one whose property is too small. -/
def acceptedLists (props : List ApmPropData) : List ApmPropData :=
  (props.filter (fun p => p.propId = ctrlLinkIntentListId)).takeWhile (fun p => 4 ≤ p.propSize)

/-- The bytes an intent list takes in the port. -/
def listBytes (mem : ℕ → UInt8) (p : ApmPropData) : ℕ := 4 + 4 * (numIntents mem p.payload).toNat

/-- The bytes of several intent lists. -/
def listsBytes (mem : ℕ → UInt8) (ps : List ApmPropData) : ℕ := (ps.map (listBytes mem)).sum

/-- The intents of an intent list. -/
def listIds (mem : ℕ → UInt8) (p : ApmPropData) : List UInt32 :=
  (range (numIntents mem p.payload).toNat).map (intentId mem p.payload)

/-- What should be found: the intents of the last intent list, which must be well formed. -/
def IsLastList (mem : ℕ → UInt8) (props : List ApmPropData) (found : Option (List UInt32)) : Prop :=
  match (props.filter (fun p => p.propId = ctrlLinkIntentListId)).getLast? with
  | none => found = none
  | some p => 4 ≤ p.propSize ∧ found = some (listIds mem p)

namespace CtrlLinkCfgBytes

/-- The properties of the link. -/
def props (link : CtrlLinkCfgBytes) : List ApmPropData :=
  apmProps link.mem link.numProps.toNat link.firstProp

/-- The two passes agree: every word is written inside the object, and the intents of the last
list are found. -/
structure CopiesIntents (link : CtrlLinkCfgBytes) (base : UInt32) : Prop where
  inside : ∀ offset ∈ (guCreateControlLinkPort link base).2.written,
    offset + 4 ≤ (guCreateControlLinkPort link base).1.toNat
  last : IsLastList link.mem link.props (guCreateControlLinkPort link base).2.intents?

/-- Some of the leading lists fill the object exactly, and the last of these is the last list of
the link.  If the sizes do not overflow and no list is malformed, these are all of them. -/
def ListsFill (link : CtrlLinkCfgBytes) (base : UInt32) : Prop :=
  ∃ copied rest, acceptedLists link.props = copied ++ rest ∧
    base.toNat + listsBytes link.mem copied =
      (base.toNat + listsBytes link.mem (acceptedLists link.props)) % 2 ^ 32 ∧
    IsLastList link.mem link.props (copied.getLast?.map (listIds link.mem))

end CtrlLinkCfgBytes

/-! ## What the passes compute -/

variable {mem : ℕ → UInt8}

/-- No lists have no bytes. -/
@[simp] lemma listsBytes_nil : listsBytes mem [] = 0 := rfl

/-- The bytes of the lists add up. -/
@[simp] lemma listsBytes_cons (p : ApmPropData) (ps : List ApmPropData) :
    listsBytes mem (p :: ps) = listBytes mem p + listsBytes mem ps := by
  simp [listsBytes]

/-- The size of a list, in 32 bits. -/
lemma toNat_listSize (p : ApmPropData) :
    (4 + 4 * numIntents mem p.payload).toNat = listBytes mem p % 2 ^ 32 := by
  rw [UInt32.toNat_add, UInt32.toNat_mul, listBytes]
  simp

variable {p : ApmPropData}

/-- Other properties are skipped. -/
lemma acceptedLists_skip (ps : List ApmPropData)
    (h : p.propId ≠ ctrlLinkIntentListId) : acceptedLists (p :: ps) = acceptedLists ps := by
  simp [acceptedLists, h]

section

variable (ps : List ApmPropData) (h : p.propId = ctrlLinkIntentListId)
include h

/-- A list that is too small ends the walk. -/
lemma acceptedLists_reject (hsize : p.propSize < 4) : acceptedLists (p :: ps) = [] := by
  have hnot : ¬ 4 ≤ p.propSize := UInt32.not_le.mpr hsize
  simp [acceptedLists, h, hnot]

/-- A list that is large enough is accepted. -/
lemma acceptedLists_accept (hsize : ¬ p.propSize < 4) :
    acceptedLists (p :: ps) = p :: acceptedLists ps := by
  have hle : 4 ≤ p.propSize := UInt32.not_lt.mp hsize
  simp [acceptedLists, h, hle]

end

/-- The sizing pass adds up the accepted lists, modulo `2 ^ 32`. -/
lemma toNat_additionalSizeFrom (rounds ptr : ℕ) (additionalSize : UInt32) :
    (additionalSizeFrom mem rounds ptr additionalSize).toNat =
      (additionalSize.toNat + listsBytes mem (acceptedLists (apmProps mem rounds ptr))) %
        2 ^ 32 := by
  induction rounds generalizing ptr additionalSize with
  | zero =>
    have hlt := additionalSize.toNat_lt
    simp only [additionalSizeFrom, apmProps, acceptedLists, filter_nil, takeWhile_nil,
      listsBytes_nil]
    omega
  | succ rounds ih =>
    unfold additionalSizeFrom apmProps
    dsimp only
    split_ifs with hid hsize
    · have hlt := additionalSize.toNat_lt
      rw [acceptedLists_reject _ hid hsize, listsBytes_nil]
      omega
    · rw [ih, acceptedLists_accept _ hid hsize, listsBytes_cons, UInt32.toNat_add, toNat_listSize]
      omega
    · rw [ih, acceptedLists_skip _ hid]

/-- The copying pass on the list of accepted lists. -/
def copyLists (mem : ℕ → UInt8) (maxCtrlPortSize : UInt32) :
    List ApmPropData → UInt32 → GuCtrlPortIntents → GuCtrlPortIntents
  | [], _, port => port
  | p :: ps, offset, port =>
      if maxCtrlPortSize ≤ offset then port
      else copyLists mem maxCtrlPortSize ps (offset + (4 + 4 * numIntents mem p.payload))
        (port.copyIntents mem p.payload offset.toNat)

/-- The second pass copies the accepted lists. -/
lemma parseCtrlPortPropsFrom_snd (maxCtrlPortSize : UInt32) (rounds ptr : ℕ) (offset : UInt32)
    (port : GuCtrlPortIntents) :
    (parseCtrlPortPropsFrom mem maxCtrlPortSize rounds ptr offset port).2 =
      copyLists mem maxCtrlPortSize (acceptedLists (apmProps mem rounds ptr)) offset port := by
  induction rounds generalizing ptr offset port with
  | zero => rfl
  | succ rounds ih =>
    unfold parseCtrlPortPropsFrom apmProps
    dsimp only
    split_ifs with hid hend hsize
    · by_cases hsize : (apmPropData mem ptr).propSize < 4
      · rw [acceptedLists_reject _ hid hsize]
        rfl
      · rw [acceptedLists_accept _ hid hsize, copyLists, if_pos hend]
    · rw [acceptedLists_reject _ hid hsize]
      rfl
    · rw [ih, acceptedLists_accept _ hid hsize, copyLists, if_neg hend]
    · rw [ih, acceptedLists_skip _ hid]

/-! ## Copying one list -/

/-- A loop that writes consecutive words. -/
lemma writeWord_loop (f : ℕ → UInt32) (start n : ℕ) (port : GuCtrlPortIntents) :
    let port' := (range n).foldl (fun port i => port.writeWord (start + 4 * i) (f i)) port
    port'.intentInfo = port.intentInfo ∧
      port'.written = port.written ++ (range n).map (fun i => start + 4 * i) ∧
      (∀ i < n, port'.words (start + 4 * i) = f i) ∧
      ∀ x < start, port'.words x = port.words x := by
  induction n with
  | zero => simp
  | succ n ih =>
    obtain ⟨hinfo, hwritten, hnew, hold⟩ := ih
    simp only [range_succ, foldl_append, foldl_cons, foldl_nil]
    refine ⟨hinfo, ?_, fun i hi => ?_, fun x hx => ?_⟩
    · rw [GuCtrlPortIntents.writeWord]
      rw [hwritten]
      simp
    · by_cases hlast : i = n
      · simp [GuCtrlPortIntents.writeWord, hlast]
      · rw [GuCtrlPortIntents.writeWord]
        dsimp only
        rw [Function.update_of_ne (by omega)]
        exact hnew i (by omega)
    · rw [GuCtrlPortIntents.writeWord]
      dsimp only
      rw [Function.update_of_ne (by omega)]
      exact hold x hx

/-- A copy stores the intents one after the other. -/
lemma copyIntents_spec (p : ApmPropData) (offset : ℕ) (port : GuCtrlPortIntents) :
    (port.copyIntents mem p.payload offset).intents? = some (listIds mem p) ∧
      (port.copyIntents mem p.payload offset).written =
        port.written ++ offset :: (range (numIntents mem p.payload).toNat).map
          (fun i => offset + 4 + 4 * i) := by
  obtain ⟨hinfo, hwritten, hnew, hold⟩ := writeWord_loop (intentId mem p.payload) (offset + 4)
    (numIntents mem p.payload).toNat
    ({ port with intentInfo := some offset }.writeWord offset (numIntents mem p.payload))
  change (port.copyIntents mem p.payload offset).intentInfo = _ at hinfo
  change (port.copyIntents mem p.payload offset).written = _ at hwritten
  have hcount : (port.copyIntents mem p.payload offset).words offset = numIntents mem p.payload :=
    (hold offset (by omega)).trans (by simp [GuCtrlPortIntents.writeWord])
  refine ⟨?_, ?_⟩
  · unfold GuCtrlPortIntents.intents?
    rw [hinfo]
    simp only [GuCtrlPortIntents.writeWord, Option.map_some, hcount, listIds, Option.some.injEq]
    exact map_congr_left fun i hi => hnew i (mem_range.mp hi)
  · rw [hwritten]
    simp [GuCtrlPortIntents.writeWord]

/-- A copy stays inside exactly if the list fits. -/
lemma copyIntents_inside_iff (p : ApmPropData) (offset bound : ℕ) (port : GuCtrlPortIntents) :
    (∀ x ∈ (port.copyIntents mem p.payload offset).written, x + 4 ≤ bound) ↔
      (∀ x ∈ port.written, x + 4 ≤ bound) ∧ offset + listBytes mem p ≤ bound := by
  rw [(copyIntents_spec p offset port).2, listBytes]
  simp only [mem_append, mem_cons, mem_map, mem_range]
  constructor
  · intro h
    refine ⟨fun x hx => h x (.inl hx), ?_⟩
    by_cases hzero : (numIntents mem p.payload).toNat = 0
    · have := h offset (.inr (.inl rfl))
      omega
    · have := h _ (.inr (.inr ⟨(numIntents mem p.payload).toNat - 1, by omega, rfl⟩))
      omega
  · rintro ⟨hold, hend⟩ x (hx | rfl | ⟨i, hi, rfl⟩)
    · exact hold x hx
    · omega
    · omega

/-! ## Copying all lists -/

section

variable (maxCtrlPortSize : UInt32) (ps : List ApmPropData) (offset : UInt32)
  (port : GuCtrlPortIntents)

/-- What was written stays written. -/
lemma written_copyLists :
    ∀ x ∈ port.written, x ∈ (copyLists mem maxCtrlPortSize ps offset port).written := by
  induction ps generalizing offset port with
  | nil => exact fun x hx => hx
  | cons p ps ih =>
    intro x hx
    unfold copyLists
    split
    · exact hx
    · refine ih _ _ x ?_
      rw [(copyIntents_spec p _ port).2]
      exact mem_append_left _ hx

/-- The copying pass inside an object of `maxCtrlPortSize` bytes, when the lists reach at least
to its end: it stays inside exactly when some of the leading lists end there, and it then ends
with the last of these. -/
lemma copyLists_cases (hinside : ∀ x ∈ port.written, x + 4 ≤ maxCtrlPortSize.toNat)
    (hstart : offset.toNat ≤ maxCtrlPortSize.toNat)
    (hend : maxCtrlPortSize.toNat ≤ offset.toNat + listsBytes mem ps) :
    (∃ copied rest, ps = copied ++ rest ∧
        offset.toNat + listsBytes mem copied = maxCtrlPortSize.toNat ∧
        (∀ x ∈ (copyLists mem maxCtrlPortSize ps offset port).written,
          x + 4 ≤ maxCtrlPortSize.toNat) ∧
        (copyLists mem maxCtrlPortSize ps offset port).intents? =
          (copied.getLast?.map (listIds mem)).or port.intents?) ∨
      ((¬ ∃ copied rest, ps = copied ++ rest ∧
          offset.toNat + listsBytes mem copied = maxCtrlPortSize.toNat) ∧
        ¬ ∀ x ∈ (copyLists mem maxCtrlPortSize ps offset port).written,
          x + 4 ≤ maxCtrlPortSize.toNat) := by
  induction ps generalizing offset port with
  | nil =>
    rw [listsBytes_nil] at hend
    exact .inl ⟨[], [], rfl, by rw [listsBytes_nil]; omega, hinside, rfl⟩
  | cons p ps ih =>
    by_cases hfull : maxCtrlPortSize ≤ offset
    · -- nothing fits any more
      have hle := UInt32.le_iff_toNat_le.mp hfull
      rw [copyLists, if_pos hfull]
      exact .inl ⟨[], p :: ps, rfl, by rw [listsBytes_nil]; omega, hinside, rfl⟩
    · have hlt : offset.toNat < maxCtrlPortSize.toNat := by
        rw [UInt32.le_iff_toNat_le] at hfull
        omega
      rw [copyLists, if_neg hfull]
      by_cases hfits : offset.toNat + listBytes mem p ≤ maxCtrlPortSize.toNat
      · -- the list fits, and the offset behind it is computed without overflow
        have hmax := maxCtrlPortSize.toNat_lt
        have hnext : (offset + (4 + 4 * numIntents mem p.payload)).toNat =
            offset.toNat + listBytes mem p := by
          rw [UInt32.toNat_add, toNat_listSize]
          omega
        have hinside' := (copyIntents_inside_iff p offset.toNat maxCtrlPortSize.toNat port).mpr
          ⟨hinside, hfits⟩
        rw [listsBytes_cons] at hend
        rcases ih (offset + (4 + 4 * numIntents mem p.payload)) _ hinside' (by omega) (by omega)
          with ⟨copied, rest, rfl, hbytes, hall, hfound⟩ | ⟨hnone, hout⟩
        · refine .inl ⟨p :: copied, rest, rfl, ?_, hall, ?_⟩
          · rw [listsBytes_cons]
            omega
          · rw [hfound, (copyIntents_spec p _ port).1]
            cases copied with
            | nil => rfl
            | cons q qs => simp [getLast?_cons]
        · refine .inr ⟨?_, hout⟩
          rintro ⟨copied, rest, hsplit, hbytes⟩
          cases copied with
          | nil =>
            rw [listsBytes_nil] at hbytes
            omega
          | cons q qs =>
            obtain ⟨rfl, rfl⟩ := List.cons.inj hsplit
            rw [listsBytes_cons] at hbytes
            exact hnone ⟨qs, rest, rfl, by omega⟩
      · -- the list runs over the end
        refine .inr ⟨?_, fun hall => hfits ?_⟩
        · rintro ⟨copied, rest, hsplit, hbytes⟩
          cases copied with
          | nil =>
            rw [listsBytes_nil] at hbytes
            omega
          | cons q qs =>
            obtain ⟨rfl, rfl⟩ := List.cons.inj hsplit
            rw [listsBytes_cons] at hbytes
            omega
        · exact ((copyIntents_inside_iff p offset.toNat maxCtrlPortSize.toNat port).mp
            fun x hx => hall x (written_copyLists _ ps _ _ x hx)).2

end

/-! ## When the passes agree -/

namespace CtrlLinkCfgBytes

variable (link : CtrlLinkCfgBytes) (base : UInt32)

/-- The size of the object, in 32 bits. -/
lemma toNat_portSize : (guCreateControlLinkPort link base).1.toNat =
    (base.toNat + listsBytes link.mem (acceptedLists link.props)) % 2 ^ 32 := by
  change (base + additionalSizeFrom link.mem link.numProps.toNat link.firstProp 0).toNat = _
  rw [UInt32.toNat_add, toNat_additionalSizeFrom]
  change _ = (base.toNat + listsBytes link.mem (acceptedLists (apmProps _ _ _))) % 2 ^ 32
  simp

/-- The port after the second pass. -/
lemma port_eq : (guCreateControlLinkPort link base).2 =
    copyLists link.mem (guCreateControlLinkPort link base).1 (acceptedLists link.props) base
      .fresh :=
  parseCtrlPortPropsFrom_snd _ _ _ _ _

/-- Leading lists that end at the same place are the same lists. -/
lemma eq_of_listsBytes_eq {ps qs rest rest' : List ApmPropData} (hsplit : ps ++ rest = qs ++ rest')
    (hbytes : listsBytes mem ps = listsBytes mem qs) : ps = qs := by
  have hpos : ∀ p, 0 < listBytes mem p := fun p => by rw [listBytes]; omega
  induction ps generalizing qs with
  | nil =>
    cases qs with
    | nil => rfl
    | cons q qs =>
      rw [listsBytes_nil, listsBytes_cons] at hbytes
      have := hpos q
      omega
  | cons p ps ih =>
    cases qs with
    | nil =>
      rw [listsBytes_nil, listsBytes_cons] at hbytes
      have := hpos p
      omega
    | cons q qs =>
      obtain ⟨rfl, htail⟩ := List.cons.inj hsplit
      rw [listsBytes_cons, listsBytes_cons] at hbytes
      rw [ih htail (by omega)]

/-- If some list is accepted there is a last one. -/
lemma exists_last_of_accepted {props : List ApmPropData} (h : acceptedLists props ≠ []) :
    (props.filter (fun p => p.propId = ctrlLinkIntentListId)).getLast? ≠ none := by
  intro hnone
  rw [getLast?_eq_none_iff] at hnone
  rw [acceptedLists, hnone] at h
  exact h rfl

/-- If no intent list is malformed and the sizes do not overflow, all lists fill the object. -/
lemma listsFill_of_lt
    (hgood : ∀ p ∈ link.props, p.propId = ctrlLinkIntentListId → 4 ≤ p.propSize)
    (hlt : base.toNat + listsBytes link.mem (acceptedLists link.props) < 2 ^ 32) :
    link.ListsFill base := by
  have hall : acceptedLists link.props =
      link.props.filter fun p => p.propId = ctrlLinkIntentListId := by
    refine takeWhile_eq_self_iff.mpr fun p hp => ?_
    obtain ⟨hmem, hid⟩ := mem_filter.mp hp
    exact decide_eq_true (hgood p hmem (of_decide_eq_true hid))
  refine ⟨acceptedLists link.props, [], (append_nil _).symm, (Nat.mod_eq_of_lt hlt).symm, ?_⟩
  rw [hall, IsLastList]
  cases hlast : (link.props.filter fun p => p.propId = ctrlLinkIntentListId).getLast? with
  | none => rfl
  | some p =>
    obtain ⟨hmem, hid⟩ := mem_filter.mp (mem_of_getLast? hlast)
    exact ⟨hgood p hmem (of_decide_eq_true hid), rfl⟩

/-- **Intent lists.**  Every word is written inside the port object, and the port ends up with
the intents of the last list, exactly when some of the leading lists fill the object exactly and
end with the intents of the last one. -/
theorem copiesIntents_iff : link.CopiesIntents base ↔ link.ListsFill base := by
  have hsize := toNat_portSize link base
  have hport := port_eq link base
  by_cases hstart : base.toNat ≤ (guCreateControlLinkPort link base).1.toNat
  · have hend : (guCreateControlLinkPort link base).1.toNat ≤
        base.toNat + listsBytes link.mem (acceptedLists link.props) := by
      rw [hsize]
      exact Nat.mod_le _ _
    rcases copyLists_cases (guCreateControlLinkPort link base).1 (acceptedLists link.props) base
        .fresh (fun x hx => by cases hx) hstart hend with
      ⟨copied, rest, hsplit, hbytes, hinside, hfound⟩ | ⟨hnone, hout⟩
    · rw [← hport] at hinside hfound
      replace hfound : (guCreateControlLinkPort link base).2.intents? =
          copied.getLast?.map (listIds link.mem) := hfound.trans (Option.or_none ..)
      constructor
      · rintro ⟨-, hlast⟩
        rw [hfound] at hlast
        exact ⟨copied, rest, hsplit, hbytes.trans hsize, hlast⟩
      · rintro ⟨copied', rest', hsplit', hbytes', hlast⟩
        have hsame : listsBytes link.mem copied = listsBytes link.mem copied' := by omega
        obtain rfl := eq_of_listsBytes_eq (hsplit.symm.trans hsplit') hsame
        exact ⟨hinside, hfound ▸ hlast⟩
    · rw [← hport] at hout
      constructor
      · exact fun h => absurd h.inside hout
      · rintro ⟨copied, rest, hsplit, hbytes, -⟩
        exact absurd ⟨copied, rest, hsplit, hbytes.trans hsize.symm⟩ hnone
  · -- the wrapped size is below the base size: not even the first list is copied
    constructor
    · rintro ⟨-, hlast⟩
      have hne : acceptedLists link.props ≠ [] := by
        intro hnil
        have hlt := base.toNat_lt
        rw [hnil, listsBytes_nil] at hsize
        omega
      obtain ⟨p, ps, hcons⟩ := exists_cons_of_ne_nil hne
      have hfull : (guCreateControlLinkPort link base).1 ≤ base := by
        rw [UInt32.le_iff_toNat_le]
        omega
      rw [hport, hcons, copyLists, if_pos hfull] at hlast
      obtain ⟨q, hq⟩ := Option.ne_none_iff_exists'.mp (exists_last_of_accepted hne)
      rw [IsLastList, hq] at hlast
      cases hlast.2
    · rintro ⟨copied, rest, -, hbytes, -⟩
      omega

/-- One intent list that claims `2 ^ 30` intents: its size wraps to four bytes. -/
def wrappingLink : CtrlLinkCfgBytes where
  mem := fun p => ([1, 0, 0, 0, 1, 0, 0, 0x80, 2, 0, 0, 0, 2, 0, 0, 0x80, 1, 0, 0, 0,
    0x62, 0x10, 0, 8, 8, 0, 0, 0, 0, 0, 0, 0x40] : List UInt8).getD p 0
  addr := 0

/-- Behind a base of 64 bytes the object has room for the number of intents only. -/
theorem not_copiesIntents : ¬ ∀ (link : CtrlLinkCfgBytes) (base : UInt32),
    link.CopiesIntents base := by
  intro h
  have hinside := (h wrappingLink 64).inside
  have hlists : acceptedLists wrappingLink.props = [⟨ctrlLinkIntentListId, 8, 28⟩] := by decide
  have hsize : (guCreateControlLinkPort wrappingLink 64).1 = 68 := by decide
  rw [port_eq, hlists, hsize, copyLists, if_neg (by decide), copyLists] at hinside
  have hfits := ((copyIntents_inside_iff ⟨ctrlLinkIntentListId, 8, 28⟩ _ _ _).mp hinside).2
  exact absurd hfits (by decide)

end CtrlLinkCfgBytes

end AudioReach
