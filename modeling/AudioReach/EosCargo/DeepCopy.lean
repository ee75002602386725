import AudioReach.ArResult
import AudioReach.Library.Words

/-!
# Cloning of metadata

Where a stream splits, `gen_topo_capi_metadata_clone` puts a copy of a metadata object into the
list of the other path.  The payload of in-band metadata is part of the object, from
`metadata_buf` on; out-of-band metadata has the address of its payload there, in `metadata_ptr`.
A copy shares the tracking payload and the cargo of an end-of-stream marker, both of which count
their references.

Addresses have 32 bits, and memory is seen as its objects.  What the allocations give is a
parameter.  In-band metadata lies in memory with its payload, so the size of a copy does not wrap.
-/

namespace AudioReach.MdClone

open Function (update update_eq_self update_idem update_of_ne update_self)
open Library Option

/-- `module_cmn_md_flags_t`. -/
structure MdFlags where
  isOutOfBand : Bool
  trackingMode : UInt32
  others : UInt32
  deriving DecidableEq

/-- `module_cmn_md_t`. -/
structure MdObj where
  metadataId : UInt32
  metadataFlag : MdFlags
  actualSize : UInt32
  maxSize : UInt32
  offset : UInt32
  trackingPtr : UInt32
  /-- The bytes from the union of `metadata_buf` and `metadata_ptr` on, and those behind it. -/
  buf : ℕ → UInt8

/-- `metadata_ptr`. -/
def MdObj.metadataPtr (md : MdObj) : UInt32 := wordAt md.buf 0

/-- What a clone sees of memory. -/
structure CloneWorld where
  objs : UInt32 → Option MdObj
  blocks : UInt32 → Option (List UInt8)
  trackRefs : UInt32 → ℕ
  /-- `flags.enable_cloning_event` of a tracking payload. -/
  enableCloningEvent : UInt32 → Bool
  /-- `ref_count` of a cargo. -/
  cargoRefs : UInt32 → ℕ
  /-- The objects of the list that the copy goes to. -/
  outList : List UInt32
  /-- The cloning events: tracking payload and metadata id. -/
  events : List (UInt32 × UInt32)

/-- What the allocations of a clone give. -/
structure CloneMem where
  isIslandHeap : Bool
  payload : Option UInt32
  obj : Option UInt32
  /-- The bytes that lie behind the object, counted from its union on. -/
  behind : ℕ → UInt8
  node : Bool

/-- `MODULE_CMN_MD_ID_EOS`. -/
def moduleCmnMdIdEos : UInt32 := 0x0A00100C

/-- The object as `memset` leaves it. -/
def zeroObj (buf : ℕ → UInt8) : MdObj := ⟨0, ⟨false, 0, 0⟩, 0, 0, 0, 0, buf⟩

/-- The copy of an object: its fields, and from the union on either the address of the new payload
or the payload itself. -/
def MdObj.copy (md : MdObj) (newPayload : UInt32) (behind : ℕ → UInt8)
    (disabledTracking : Bool) : MdObj :=
  let size := md.maxSize.toNat
  -- the first eight bytes are part of the structure, which is copied as a whole
  let copied := fun k => if k < 8 then md.buf k
    else if md.metadataFlag.isOutOfBand = false ∧ k < 8 + size then 0 else behind k
  { md with
    buf := putAt copied 0
      (if md.metadataFlag.isOutOfBand then wordBytes newPayload else getAt md.buf 0 size)
    trackingPtr := if disabledTracking then 0 else md.trackingPtr
    metadataFlag := if disabledTracking then { md.metadataFlag with trackingMode := 0 }
      else md.metadataFlag }

/-- One more reference, unless the pointer is NULL. -/
def addRef (refs : UInt32 → ℕ) (p : UInt32) : UInt32 → ℕ :=
  if p = 0 then refs else update refs p (refs p + 1)

namespace CloneWorld

/-- `gen_topo_check_free_md_ptr` of the payload of a failed clone. -/
def freeNewPayload (w : CloneWorld) (md : MdObj) (p : UInt32) : CloneWorld :=
  if md.metadataFlag.isOutOfBand then { w with blocks := update w.blocks p none } else w

/-- `gen_topo_clone_md`. -/
def cloneMd (w : CloneWorld) (md : MdObj) (mem : CloneMem) (disabledTracking : Bool) :
    ArResult × CloneWorld :=
  let isOutBand := md.metadataFlag.isOutOfBand
  let size := md.maxSize.toNat
  let failed : ArResult := if mem.isIslandHeap then .efailed else .enomemory
  match if isOutBand then mem.payload else some 0 with
  | none => (failed, w)
  | some newPayload =>
    let w := if isOutBand then
      { w with blocks := update w.blocks newPayload (some (List.replicate size 0)) } else w
    match mem.obj with
    | none => (failed, w.freeNewPayload md newPayload)
    | some newMd =>
      let w := { w with objs := update w.objs newMd (some (zeroObj mem.behind)) }
      if mem.node = false then
        let w := w.freeNewPayload md newPayload
        (.enomemory, { w with objs := update w.objs newMd none })
      else
        let copy := md.copy newPayload mem.behind disabledTracking
        -- in both cases the payload is read from the union of the object on
        let w := { w with
          outList := w.outList ++ [newMd]
          objs := update w.objs newMd (some copy)
          blocks := if isOutBand then update w.blocks newPayload (some (getAt md.buf 0 size))
            else w.blocks }
        (.eok, { w with
          trackRefs := addRef w.trackRefs copy.trackingPtr
          events := if copy.trackingPtr ≠ 0 ∧ w.enableCloningEvent copy.trackingPtr then
            w.events ++ [(copy.trackingPtr, md.metadataId)] else w.events })

/-- The bytes of a `module_cmn_md_eos_t`. -/
def eosPayload (w : CloneWorld) (md : MdObj) : ℕ → UInt8 :=
  if md.metadataFlag.isOutOfBand then fun k => ((w.blocks md.metadataPtr).getD []).getD k 0
  else md.buf

/-- `flags.is_internal_eos`. -/
def isInternalEos (w : CloneWorld) (md : MdObj) : Bool :=
  (wordAt (w.eosPayload md) 0 >>> 1) &&& 1 = 1

/-- `cntr_ref_ptr`. -/
def cntrRefPtr (w : CloneWorld) (md : MdObj) : UInt32 := wordAt (w.eosPayload md) 4

/-- `gen_topo_clone_eos`. -/
def cloneEos (w : CloneWorld) (md : MdObj) (mem : CloneMem) : ArResult × CloneWorld :=
  let r := w.cloneMd md mem (w.isInternalEos md)
  if r.1 ≠ .eok then r
  else (r.1, { r.2 with cargoRefs := addRef r.2.cargoRefs (r.2.cntrRefPtr md) })

end CloneWorld

/-- The `capi_err_t` codes of a clone. -/
inductive CapiErr
  | eok
  | efailed
  deriving DecidableEq

namespace CloneWorld

/-- `gen_topo_capi_metadata_clone`; `none` where the pointer leads to no metadata. -/
def capiMetadataClone (w : CloneWorld) (contextPtr mdPtr outMdListPptr : UInt32)
    (mem : CloneMem) : Option (CapiErr × CloneWorld) :=
  if mdPtr = 0 ∨ contextPtr = 0 then some (.efailed, w)
  else if outMdListPptr = 0 then some (.efailed, w)
  else (w.objs mdPtr).map fun md =>
    let r := if md.metadataId = moduleCmnMdIdEos then w.cloneEos md mem
      else w.cloneMd md mem false
    -- the `ar_result_t` of the clone only goes to the log
    (.eok, r.2)

/-! ## Deep copies -/

/-- The payload of an object. -/
def payloadOf (w : CloneWorld) (md : MdObj) : Option (List UInt8) :=
  if md.metadataFlag.isOutOfBand then w.blocks md.metadataPtr
  else some (getAt md.buf 0 md.maxSize.toNat)

/-- The payload of the object at an address. -/
def payloadAt (w : CloneWorld) (p : UInt32) : Option (List UInt8) :=
  (w.objs p).bind w.payloadOf

/-- Somebody writes to the payload of the object at an address. -/
def writePayload (w : CloneWorld) (p : UInt32) (xs : List UInt8) : CloneWorld :=
  match w.objs p with
  | none => w
  | some md =>
    if md.metadataFlag.isOutOfBand then
      { w with blocks := update w.blocks md.metadataPtr (some xs) }
    else { w with objs := update w.objs p (some { md with buf := putAt md.buf 0 xs }) }

/-- `gen_topo_free_md`: the payload and the object are freed. -/
def freeMd (w : CloneWorld) (p : UInt32) : CloneWorld :=
  match w.objs p with
  | none => w
  | some md =>
    let w := if md.metadataFlag.isOutOfBand then
      { w with blocks := update w.blocks md.metadataPtr none } else w
    { w with objs := update w.objs p none }

/-- Neither the object at `p` nor its payload shares memory with those at `q`. -/
structure Apart (w : CloneWorld) (p q : UInt32) : Prop where
  /-- What is written to the payload at `p` does not show at `q`. -/
  written : ∀ xs, (w.writePayload p xs).payloadAt q = w.payloadAt q
  /-- When the metadata at `p` is freed, that at `q` is still there. -/
  freed : (w.freeMd p).objs q = w.objs q ∧ (w.freeMd p).payloadAt q = w.payloadAt q

/-- The clone at `q` is a deep copy of the object `md` at `p`. -/
structure Copied (w : CloneWorld) (p : UInt32) (md : MdObj) (w' : CloneWorld) (q : UInt32)
    (md' : MdObj) : Prop where
  /-- It is new, at the end of the list, and nothing else is. -/
  appended : w'.outList = w.outList ++ [q] ∧ w.objs q = none ∧ w'.objs = update w.objs q (some md')
  same : md'.metadataId = md.metadataId ∧ md'.offset = md.offset ∧
    md'.metadataFlag = md.metadataFlag ∧ md'.actualSize = md.actualSize ∧
    md'.maxSize = md.maxSize
  payload : w'.payloadAt q = w.payloadAt p ∧ w'.payloadAt p = w.payloadAt p
  apart : w'.Apart p q ∧ w'.Apart q p
  /-- The copy has one reference to the tracking payload, if it kept it. -/
  tracking : (md'.trackingPtr = md.trackingPtr ∨ md'.trackingPtr = 0) ∧
    w'.trackRefs = addRef w.trackRefs md'.trackingPtr
  /-- An end-of-stream marker has one more reference to its cargo. -/
  cargo : w'.cargoRefs = if md.metadataId = moduleCmnMdIdEos then
    addRef w.cargoRefs (w.cntrRefPtr md) else w.cargoRefs

/-- A clone succeeds with a deep copy, or changes no list and no count. -/
structure CloneRight (w : CloneWorld) (p : UInt32) (md : MdObj) (r : CapiErr × CloneWorld) :
    Prop where
  success : r.1 = .eok → ∃ q md', w.Copied p md r.2 q md'
  failure : r.1 ≠ .eok →
    r.2.outList = w.outList ∧ r.2.trackRefs = w.trackRefs ∧ r.2.cargoRefs = w.cargoRefs

/-- There is metadata at `p`, and memory that is allocated is not in use. -/
structure Clonable (w : CloneWorld) (p : UInt32) (md : MdObj) (mem : CloneMem) : Prop where
  ptr_ne_zero : p ≠ 0
  obj : w.objs p = some md
  payload : md.metadataFlag.isOutOfBand → w.blocks md.metadataPtr ≠ none
  obj_fresh : ∀ q ∈ mem.obj, w.objs q = none
  payload_fresh : ∀ q ∈ mem.payload, w.blocks q = none

/-- All allocations of a clone succeed. -/
def Suffices (mem : CloneMem) (md : MdObj) : Prop :=
  (md.metadataFlag.isOutOfBand → mem.payload ≠ none) ∧ mem.obj ≠ none ∧ mem.node = true

/-- The bytes of out-of-band metadata from its pointer on, the pointer itself and what lies behind
it, happen to be those of the payload. -/
def ShowsPayload (w : CloneWorld) (md : MdObj) : Prop :=
  md.metadataFlag.isOutOfBand → w.blocks md.metadataPtr = some (getAt md.buf 0 md.maxSize.toNat)

/-- The copy of the metadata is not tracked. -/
def dropsTracking (w : CloneWorld) (md : MdObj) : Bool :=
  md.metadataId = moduleCmnMdIdEos ∧ w.isInternalEos md

variable {w : CloneWorld} {p q newPayload : UInt32} {md : MdObj} {mem : CloneMem} {d : Bool}

/-! ## What a clone does -/

/-- The memory after a clone whose allocations gave `q` and `newPayload`. -/
def withCopy (w : CloneWorld) (md : MdObj) (q newPayload : UInt32) (behind : ℕ → UInt8)
    (disabledTracking : Bool) : CloneWorld :=
  let copy := md.copy newPayload behind disabledTracking
  { w with
    outList := w.outList ++ [q]
    objs := update w.objs q (some copy)
    blocks := if md.metadataFlag.isOutOfBand then
      update w.blocks newPayload (some (getAt md.buf 0 md.maxSize.toNat)) else w.blocks
    trackRefs := addRef w.trackRefs copy.trackingPtr
    events := if copy.trackingPtr ≠ 0 ∧ w.enableCloningEvent copy.trackingPtr then
      w.events ++ [(copy.trackingPtr, md.metadataId)] else w.events }

/-- The memory after a call whose allocations gave `q` and `newPayload`. -/
def afterCall (w : CloneWorld) (md : MdObj) (mem : CloneMem) (q newPayload : UInt32) : CloneWorld :=
  { w.withCopy md q newPayload mem.behind (w.dropsTracking md) with
    cargoRefs := if md.metadataId = moduleCmnMdIdEos then addRef w.cargoRefs (w.cntrRefPtr md)
      else w.cargoRefs }

lemma update_none {α : Type*} {f : UInt32 → Option α} (h : f p = none) (x : Option α) :
    update (update f p x) p none = f := by
  rw [update_idem, ← h, update_eq_self]

/-- A clone whose allocations fail gives back what it had. -/
lemma cloneMd_of_not_suffices (h : w.Clonable p md mem) (hmem : ¬ Suffices mem md) :
    (w.cloneMd md mem d).1 ≠ .eok ∧ (w.cloneMd md mem d).2 = w := by
  have hfailed : (if mem.isIslandHeap then ArResult.efailed else .enomemory) ≠ .eok := by
    split <;> decide
  unfold cloneMd
  cases hband : md.metadataFlag.isOutOfBand with
  | false =>
    cases hobj : mem.obj with
    | none => simpa [freeNewPayload, hband] using hfailed
    | some q =>
      have hnode : mem.node = false := by simpa [Suffices, hband, hobj] using hmem
      simp [freeNewPayload, hband, hnode, update_none (h.obj_fresh q hobj)]
  | true =>
    cases hpay : mem.payload with
    | none => simpa using hfailed
    | some b =>
      have hb := update_none (h.payload_fresh b hpay)
      cases hobj : mem.obj with
      | none => simpa [freeNewPayload, hband, hb] using hfailed
      | some q =>
        have hnode : mem.node = false := by simpa [Suffices, hband, hobj, hpay] using hmem
        simp [freeNewPayload, hband, hnode, hb, update_none (h.obj_fresh q hobj)]

lemma cloneMd_of_suffices (hmem : Suffices mem md) :
    ∃ q ∈ mem.obj, ∃ b, (md.metadataFlag.isOutOfBand → b ∈ mem.payload) ∧
      ∀ d, w.cloneMd md mem d = (.eok, w.withCopy md q b mem.behind d) := by
  obtain ⟨hpay, hobj, hnode⟩ := hmem
  obtain ⟨q, hq⟩ := ne_none_iff_exists'.mp hobj
  unfold cloneMd withCopy
  cases hband : md.metadataFlag.isOutOfBand with
  | false => exact ⟨q, hq, 0, nofun, fun d => by simp [hq, hnode]⟩
  | true =>
    obtain ⟨b, hb⟩ := ne_none_iff_exists'.mp (hpay hband)
    exact ⟨q, hq, b, fun _ => hb, fun d => by simp [hb, hq, hnode]⟩

lemma payloadOf_withCopy (h : w.Clonable p md mem)
    (hb : md.metadataFlag.isOutOfBand → newPayload ∈ mem.payload) :
    (w.withCopy md q newPayload mem.behind d).payloadOf md = w.payloadOf md ∧
      (w.withCopy md q newPayload mem.behind d).eosPayload md = w.eosPayload md := by
  unfold payloadOf eosPayload withCopy
  cases hband : md.metadataFlag.isOutOfBand with
  | false => exact ⟨rfl, rfl⟩
  | true =>
    have hne : md.metadataPtr ≠ newPayload := by
      rintro heq
      exact h.payload hband (heq ▸ h.payload_fresh newPayload (hb hband))
    simp [update_of_ne hne]

lemma metadataPtr_copy (hband : md.metadataFlag.isOutOfBand = true) (behind : ℕ → UInt8) :
    (md.copy newPayload behind d).metadataPtr = newPayload := by
  simp only [MdObj.metadataPtr, MdObj.copy, hband, if_true]
  exact wordAt_putAt _ 0 _

lemma isOutOfBand_copy (behind : ℕ → UInt8) :
    (md.copy newPayload behind d).metadataFlag.isOutOfBand = md.metadataFlag.isOutOfBand := by
  cases d <;> rfl

lemma payloadOf_copy (behind : ℕ → UInt8) :
    (w.withCopy md q newPayload behind d).payloadOf (md.copy newPayload behind d) =
      some (getAt md.buf 0 md.maxSize.toNat) := by
  unfold payloadOf
  rw [isOutOfBand_copy]
  cases hband : md.metadataFlag.isOutOfBand with
  | false =>
    have hlen : (getAt md.buf 0 md.maxSize.toNat).length = md.maxSize.toNat := length_getAt _ _ _
    have hput := getAt_putAt (fun k => if k < 8 then md.buf k else
      if md.metadataFlag.isOutOfBand = false ∧ k < 8 + md.maxSize.toNat then 0 else behind k) 0
      (getAt md.buf 0 md.maxSize.toNat)
    simpa [MdObj.copy, hband] using hput
  | true =>
    rw [if_pos rfl, metadataPtr_copy hband]
    simp [withCopy, hband]

/-! ## The copy is deep -/

/-- Two objects at different addresses, with payloads at different addresses, are apart. -/
lemma apart_of_ne {mp mq : MdObj} (hp : w.objs p = some mp) (hq : w.objs q = some mq) (hne : q ≠ p)
    (hblock : mp.metadataFlag.isOutOfBand → mq.metadataFlag.isOutOfBand →
      mq.metadataPtr ≠ mp.metadataPtr) : w.Apart p q := by
  have hkept : ∀ (x : Option (List UInt8)), mp.metadataFlag.isOutOfBand = true →
      ∀ objs, objs q = some mq → ({ w with
        objs := objs
        blocks := update w.blocks mp.metadataPtr x } : CloneWorld).payloadAt q = w.payloadAt q := by
    intro x hband objs hobjs
    simp only [payloadAt, hobjs, hq, bind_some, payloadOf]
    cases hband' : mq.metadataFlag.isOutOfBand with
    | false => rfl
    | true => rw [if_pos rfl, if_pos rfl, update_of_ne (hblock hband hband')]
  have hsame : ∀ x, ({ w with objs := update w.objs p x } : CloneWorld).payloadAt q =
      w.payloadAt q := by
    intro x
    simp only [payloadAt, update_of_ne hne, hq]
    rfl
  refine ⟨fun xs => ?_, ?_⟩
  · cases hband : mp.metadataFlag.isOutOfBand with
    | false => simpa [writePayload, hp, hband] using hsame _
    | true => simpa [writePayload, hp, hband] using hkept _ hband w.objs hq
  · cases hband : mp.metadataFlag.isOutOfBand with
    | false =>
      exact ⟨by simp [freeMd, hp, hband, hne], by simpa [freeMd, hp, hband] using hsame none⟩
    | true =>
      refine ⟨by simp [freeMd, hp, hband, hne], ?_⟩
      have h := hkept none hband (update w.objs p none) ((update_of_ne hne _ _).trans hq)
      simpa [freeMd, hp, hband] using h

section

variable {contextPtr outMdListPptr : UInt32} (h : w.Clonable p md mem)
include h

lemma capiMetadataClone_of_suffices (hmem : Suffices mem md) (hc : contextPtr ≠ 0)
    (ho : outMdListPptr ≠ 0) :
    ∃ q ∈ mem.obj, ∃ b, (md.metadataFlag.isOutOfBand → b ∈ mem.payload) ∧
      w.capiMetadataClone contextPtr p outMdListPptr mem = some (.eok, w.afterCall md mem q b) := by
  obtain ⟨q, hq, b, hb, hrun⟩ := @cloneMd_of_suffices w md mem hmem
  refine ⟨q, hq, b, hb, ?_⟩
  unfold capiMetadataClone
  rw [if_neg (not_or.mpr ⟨h.ptr_ne_zero, hc⟩), if_neg ho, h.obj, map_some]
  by_cases hid : md.metadataId = moduleCmnMdIdEos
  · have heos := (@payloadOf_withCopy w p q b md mem (w.isInternalEos md) h hb).2
    simp [afterCall, hid, cloneEos, hrun, dropsTracking, cntrRefPtr, heos]
    rfl
  · simp [afterCall, hid, hrun, dropsTracking]
    rfl

lemma capiMetadataClone_of_not_suffices (hmem : ¬ Suffices mem md) (hc : contextPtr ≠ 0)
    (ho : outMdListPptr ≠ 0) :
    w.capiMetadataClone contextPtr p outMdListPptr mem = some (.eok, w) := by
  unfold capiMetadataClone
  rw [if_neg (not_or.mpr ⟨h.ptr_ne_zero, hc⟩), if_neg ho, h.obj, map_some]
  have hfail : ∀ d, (w.cloneMd md mem d).1 ≠ .eok ∧ (w.cloneMd md mem d).2 = w :=
    fun d => cloneMd_of_not_suffices h hmem
  by_cases hid : md.metadataId = moduleCmnMdIdEos
  · simp [hid, cloneEos, (hfail _).1, (hfail _).2]
  · simp [hid, (hfail _).2]

/-- A copy is deep if and only if its payload and its flags are those of the original. -/
lemma copied_iff (hq : q ∈ mem.obj) (hb : md.metadataFlag.isOutOfBand → newPayload ∈ mem.payload) :
    (∃ q' md', w.Copied p md (w.afterCall md mem q newPayload) q' md') ↔ w.ShowsPayload md ∧
      (w.dropsTracking md → md.metadataFlag.trackingMode = 0) := by
  let w' := w.afterCall md mem q newPayload
  have hqp : q ≠ p := by
    rintro rfl
    exact some_ne_none md (h.obj.symm.trans (h.obj_fresh q hq))
  have hobjq : w'.objs q = some (md.copy newPayload mem.behind (w.dropsTracking md)) :=
    update_self _ _ _
  have hobjp : w'.objs p = some md := (update_of_ne hqp.symm _ _).trans h.obj
  have hatq : w'.payloadAt q = some (getAt md.buf 0 md.maxSize.toNat) := by
    rw [payloadAt, hobjq]
    exact @payloadOf_copy w q newPayload md (w.dropsTracking md) mem.behind
  have hatp : w'.payloadAt p = w.payloadAt p := by
    rw [payloadAt, hobjp, payloadAt, h.obj]
    exact (@payloadOf_withCopy w p q newPayload md mem (w.dropsTracking md) h hb).1
  have hshows : w'.payloadAt q = w.payloadAt p ↔ w.ShowsPayload md := by
    rw [hatq, payloadAt, h.obj, bind_some, payloadOf, ShowsPayload]
    cases md.metadataFlag.isOutOfBand with
    | false => simp
    | true => simpa using eq_comm
  have hflag : (md.copy newPayload mem.behind (w.dropsTracking md)).metadataFlag =
      md.metadataFlag ↔ (w.dropsTracking md → md.metadataFlag.trackingMode = 0) := by
    cases w.dropsTracking md with
    | false => simp [MdObj.copy]
    | true =>
      refine ⟨fun heq _ => (congrArg MdFlags.trackingMode heq).symm, fun hzero => ?_⟩
      change ({ md.metadataFlag with trackingMode := 0 } : MdFlags) = _
      rw [← hzero rfl]
  constructor
  · rintro ⟨q', md', hcopy⟩
    obtain rfl : q = q' := by
      simpa [afterCall, withCopy] using hcopy.appended.1
    obtain rfl : md.copy newPayload mem.behind (w.dropsTracking md) = md' := by
      have hobj := congrFun hcopy.appended.2.2 q
      rw [hobjq, update_self] at hobj
      exact Option.some.inj hobj
    exact ⟨hshows.mp hcopy.payload.1, hflag.mp hcopy.same.2.2.1⟩
  · rintro ⟨hshow, hzero⟩
    have hblock : md.metadataFlag.isOutOfBand →
        (md.copy newPayload mem.behind (w.dropsTracking md)).metadataPtr ≠ md.metadataPtr := by
      intro hband heq
      rw [metadataPtr_copy hband] at heq
      exact h.payload hband (heq ▸ h.payload_fresh newPayload (hb hband))
    refine ⟨q, _, ⟨rfl, h.obj_fresh q hq, rfl⟩, ⟨rfl, rfl, hflag.mpr hzero, rfl, rfl⟩,
      ⟨hshows.mpr hshow, hatp⟩, ⟨?_, ?_⟩, ⟨?_, rfl⟩, rfl⟩
    · exact apart_of_ne hobjp hobjq hqp fun hband _ => hblock hband
    · exact apart_of_ne hobjq hobjp hqp.symm fun _ hband => (hblock hband).symm
    · cases hd : w.dropsTracking md with
      | false => exact Or.inl rfl
      | true => exact Or.inr rfl

end

end CloneWorld

/-- A call of `gen_topo_capi_metadata_clone` for metadata that is there. -/
structure CloneCall where
  world : CloneWorld
  mdPtr : UInt32
  md : MdObj
  mem : CloneMem
  clonable : world.Clonable mdPtr md mem

/-- **Cloning is a deep copy or fails** if and only if all allocations succeed, out-of-band metadata
happens to show its payload from its pointer on, and no internal end-of-stream marker has a
tracking mode. -/
theorem capiMetadataClone_right_iff (c : CloneCall) (contextPtr outMdListPptr : UInt32) :
    ∃ r, c.world.capiMetadataClone contextPtr c.mdPtr outMdListPptr c.mem = some r ∧
      (c.world.CloneRight c.mdPtr c.md r ↔ contextPtr = 0 ∨ outMdListPptr = 0 ∨
        (CloneWorld.Suffices c.mem c.md ∧ c.world.ShowsPayload c.md ∧
          (c.world.dropsTracking c.md → c.md.metadataFlag.trackingMode = 0))) := by
  have hunchanged : c.world.CloneRight c.mdPtr c.md (.efailed, c.world) :=
    ⟨nofun, fun _ => ⟨rfl, rfl, rfl⟩⟩
  by_cases hc : contextPtr = 0
  · refine ⟨_, if_pos (Or.inr hc), iff_of_true hunchanged (Or.inl hc)⟩
  by_cases ho : outMdListPptr = 0
  · refine ⟨(.efailed, c.world), ?_, iff_of_true hunchanged (Or.inr (Or.inl ho))⟩
    rw [CloneWorld.capiMetadataClone, if_neg (not_or.mpr ⟨c.clonable.ptr_ne_zero, hc⟩), if_pos ho]
  rw [or_iff_right hc, or_iff_right ho]
  by_cases hmem : CloneWorld.Suffices c.mem c.md
  · obtain ⟨q, hq, b, hb, hrun⟩ :=
      CloneWorld.capiMetadataClone_of_suffices c.clonable hmem hc ho
    refine ⟨_, hrun, ?_⟩
    rw [and_iff_right hmem, ← CloneWorld.copied_iff c.clonable hq hb]
    exact ⟨fun h => h.success rfl, fun h => ⟨fun _ => h, fun hne => absurd rfl hne⟩⟩
  · -- the list is as it was, and success is reported
    refine ⟨_, CloneWorld.capiMetadataClone_of_not_suffices c.clonable hmem hc ho, ?_⟩
    refine iff_of_false (fun h => ?_) fun h => hmem h.1
    obtain ⟨q, md', hcopy⟩ := h.success rfl
    simpa using hcopy.appended.1

/-- Out-of-band metadata with four bytes of payload at address 64. -/
def outOfBandCall : CloneCall where
  world :=
    { objs := fun p => if p = 32 then
        some ⟨1, ⟨true, 0, 0⟩, 4, 4, 0, 0, putAt (fun _ => 0) 0 (wordBytes 64)⟩ else none
      blocks := fun p => if p = 64 then some [1, 2, 3, 4] else none
      trackRefs := fun _ => 0
      enableCloningEvent := fun _ => false
      cargoRefs := fun _ => 0
      outList := []
      events := [] }
  mdPtr := 32
  md := ⟨1, ⟨true, 0, 0⟩, 4, 4, 0, 0, putAt (fun _ => 0) 0 (wordBytes 64)⟩
  mem := ⟨false, some 128, some 96, fun _ => 0, true⟩
  clonable :=
    { ptr_ne_zero := by decide
      obj := rfl
      payload := fun _ => by decide
      obj_fresh := by rintro q ⟨⟩; rfl
      payload_fresh := by rintro q ⟨⟩; rfl }

/-- **The copy of out-of-band metadata has the bytes of the pointer** and not those of the
payload. -/
theorem outOfBand_not_copied :
    ¬ ∀ (c : CloneCall) (contextPtr outMdListPptr : UInt32) (r : CapiErr × CloneWorld),
      c.world.capiMetadataClone contextPtr c.mdPtr outMdListPptr c.mem = some r →
        c.world.CloneRight c.mdPtr c.md r := by
  intro h
  obtain ⟨q, md', hcopy⟩ := (h outOfBandCall 1 1 _ rfl).success rfl
  obtain rfl : (96 : UInt32) = q := (List.singleton_inj.mp hcopy.appended.1)
  exact absurd hcopy.payload.1 (by decide)

end AudioReach.MdClone
