import AudioReach.ApmCmd.SubGraphParser

/-!
# Where the sub-graph parser reads

A payload lays its entries out one behind the other: `entrySize` is the real size of an entry, the
sum of the headers and sizes of its properties, and `entryFrom` the place of each entry.  The
parser is right when it reads inside the payload only, looks for every entry at its place, and
succeeds only on a payload that holds all of them.

It checks sizes at two places, both times the least size of the entries to come.  So nothing stops
it inside a list of properties, and an entry that already exists is not counted at all.  What is
asked of the payload is told entry by entry: the bytes that are looked at up to the first error are
inside, an entry that is accepted is whole, and a sub-graph that is skipped by the size of its
earlier properties has properties of that size.

Offsets are natural numbers: a pointer past the address space is past the payload.
-/

namespace AudioReach.SgParser

open Library (wordAt)

/-! ## The layout of a payload -/

/-- The size of `numProps` properties from `off` on. -/
def propsSize (payload : ℕ → UInt8) : ℕ → ℕ → ℕ
  | 0, _ => 0
  | numProps + 1, off =>
    let propSize := 8 + (wordAt payload (off + 4)).toNat
    propSize + propsSize payload numProps (off + propSize)

/-- The size of the entry at `off`. -/
def entrySize (payload : ℕ → UInt8) (off : ℕ) : ℕ :=
  8 + propsSize payload (wordAt payload (off + 4)).toNat (off + 8)

/-- The place of the `i`-th entry behind the one at `off`. -/
def entryFrom (payload : ℕ → UInt8) : ℕ → ℕ → ℕ
  | off, 0 => off
  | off, i + 1 => entryFrom payload (off + entrySize payload off) i

/-- The bytes are inside a payload of `limit` bytes. -/
def Inside (limit : ℕ) (reads : Reads) : Prop := ∀ r ∈ reads, r.1 + r.2 ≤ limit

/-- The parser reads inside the payload, looks for each entry at the sum of the sizes of the
entries before it, and when it succeeds the payload holds all entries and all were parsed. -/
structure ParsesInside (payload : ℕ → UInt8) (limit off numEntries : ℕ) (o : ParseOutcome) :
    Prop where
  inside : Inside limit o.reads
  positions : ∀ (i : ℕ) (h : i < o.entries.length), o.entries[i] = entryFrom payload off i
  complete : o.result = .eok →
    o.entries.length = numEntries ∧ entryFrom payload off numEntries ≤ limit

/-! ## The condition -/

/-- The bytes that `apm_cfg_sub_graph_prop` looks at are inside, up to the property that it
refuses. -/
def PropsLookInside (c : Command) (limit : ℕ) : ℕ → ℕ → Prop
  | 0, _ => True
  | numProps + 1, off => off + 4 ≤ limit ∧
    match SgPropKind.ofPropId (wordAt c.payload off) with
    | none => True
    | some kind => off + 8 ≤ limit ∧ (¬ (kind.checksSize ∧ wordAt c.payload (off + 4) < 4) →
        off + 8 + kind.dataRead ≤ limit ∧ PropsLookInside c limit numProps (nextProp c off))

/-- The bytes that `apm_get_prop_data_size` looks at are inside, up to the size that it
refuses. -/
def SizesLookInside (c : Command) (limit : ℕ) : ℕ → ℕ → Prop
  | 0, _ => True
  | numProp + 1, off => off + 8 ≤ limit ∧ (¬ BadPropSize c (wordAt c.payload (off + 4)) →
      SizesLookInside c limit numProp (off + (8 + wordAt c.payload (off + 4)).toNat))

/-- The bytes that are looked at for the entry at `off` are inside. -/
def EntryLooksInside (c : Command) (limit : ℕ) (s : ApmInfo) (off : ℕ) : Prop :=
  let numProp := (wordAt c.payload (off + 4)).toNat
  off + 4 ≤ limit ∧ (¬ BadSgId (wordAt c.payload off) →
      match s.getSubGraphNode (wordAt c.payload off) with
      | some _ => c.isAdsp = false → off + 8 ≤ limit ∧
          ((c.payloadAddr + (off + 8)) % 4 = 0 → SizesLookInside c limit numProp (off + 8))
      | none => c.alloc s.numAllocs = true → off + 8 ≤ limit ∧
          PropsLookInside c limit numProp (off + 8))

/-- A sub-graph that is skipped by the size that is stored in its node has properties of that
size in this payload. -/
def StoredSizeRight (c : Command) (s : ApmInfo) (off : ℕ) : Prop :=
  ∀ sg, s.getSubGraphNode (wordAt c.payload off) = some sg → c.isAdsp = true →
    8 + sg.prop.payloadSize.toNat = entrySize c.payload off

/-- `apm_cfg_sub_graph_prop` knows all properties, and none is smaller than its data. -/
def PropsAccepted (c : Command) : ℕ → ℕ → Prop
  | 0, _ => True
  | numProps + 1, off => (∃ kind, SgPropKind.ofPropId (wordAt c.payload off) = some kind ∧
      ¬ (kind.checksSize ∧ wordAt c.payload (off + 4) < 4)) ∧
    PropsAccepted c numProps (nextProp c off)

/-- The 32-bit sum of the sizes of the properties. -/
def propPayloadSize (c : Command) : ℕ → ℕ → UInt32
  | 0, _ => 0
  | numProps + 1, off =>
    8 + wordAt c.payload (off + 4) + propPayloadSize c numProps (nextProp c off)

/-- `apm_get_prop_data_size` refuses none of the sizes. -/
def SizesAccepted (c : Command) : ℕ → ℕ → Prop
  | 0, _ => True
  | numProp + 1, off => ¬ BadPropSize c (wordAt c.payload (off + 4)) ∧
    SizesAccepted c numProp (off + (8 + wordAt c.payload (off + 4)).toNat)

/-- The next `n` allocations succeed. -/
def Allocates (c : Command) (s : ApmInfo) (n : ℕ) : Prop :=
  ∀ i < n, c.alloc (s.numAllocs + i) = true

/-- No error is returned for the entry at `off`.  A sub-graph that exists on the ADSP needs the
multi-client extension, another client and three allocations; in a satellite domain its list must
be aligned and its sizes good.  A new sub-graph needs good properties, its allocations, and a rest
of the payload that has the least size of the entries to come. -/
def EntryAccepted (c : Command) (s : ApmInfo) (off : ℕ) (size cntr : UInt32) : Prop :=
  let numProp := (wordAt c.payload (off + 4)).toNat
  ¬ BadSgId (wordAt c.payload off) ∧
    match s.getSubGraphNode (wordAt c.payload off) with
    | some sg =>
      if c.isAdsp then c.hasMultiClient = true ∧
        sg.clients.checkDuplicateClient c.sim c.client = .eok ∧ Allocates c s 3
      else (c.payloadAddr + (off + 8)) % 4 = 0 ∧ SizesAccepted c numProp (off + 8)
    | none => PropsAccepted c numProp (off + 8) ∧
        Allocates c s (if c.hasMultiClient then 5 else 3) ∧
        ¬ (cntr - 1 ≠ 0 ∧ (size - (8 + propPayloadSize c numProp (off + 8))).toNat <
          sizeT c.abi ((cntr - 1).toNat * 8))

/-- The condition on the `idx` entries from `off` on.  The bytes that are looked at for an entry
are inside.  An entry that is accepted is whole, and if others follow, the size by which it is
skipped is right, and the others fit in what the round leaves. -/
def EntriesFit (c : Command) (limit : ℕ) : ℕ → ApmInfo → ℕ → UInt32 → UInt32 → Prop
  | 0, _, _, _, _ => True
  | idx + 1, s, off, size, cntr => EntryLooksInside c limit s off ∧
    (EntryAccepted c s off size cntr → off + entrySize c.payload off ≤ limit ∧
      (idx ≠ 0 → StoredSizeRight c s off) ∧
      let entry := parseSubgraph c s off size cntr
      EntriesFit c limit idx entry.info entry.off entry.size entry.cntr)

/-- The condition on a payload: it has room for the number of sub-graphs, and if the parser gets
past the first check of the size, the entries fit. -/
def PayloadFits (c : Command) (s : ApmInfo) (payloadSize : UInt32) : Prop :=
  payloadSize ≠ 0 → 4 ≤ payloadSize ∧
    (numSubGraphs c.payload ≠ 0 → ¬ payloadSize < 4 + numSubGraphs c.payload * 8 →
      EntriesFit c payloadSize.toNat (numSubGraphs c.payload).toNat s 4 (payloadSize - 4)
        (numSubGraphs c.payload))

/-! ## The bytes that are looked at -/

section

variable {c : Command} {limit : ℕ}

lemma inside_nil : Inside limit [] := fun _ hr => absurd hr List.not_mem_nil

lemma inside_cons {r : ℕ × ℕ} {reads : Reads} :
    Inside limit (r :: reads) ↔ r.1 + r.2 ≤ limit ∧ Inside limit reads :=
  List.forall_mem_cons

lemma inside_append {reads reads' : Reads} :
    Inside limit (reads ++ reads') ↔ Inside limit reads ∧ Inside limit reads' :=
  List.forall_mem_append

/-- The reads of a list of properties. -/
lemma cfgSubGraphPropLoop_inside (numProps off : ℕ) (size : UInt32) (prop : SgProp) :
    Inside limit (cfgSubGraphPropLoop c numProps off size prop).reads ↔
      PropsLookInside c limit numProps off := by
  induction numProps generalizing off size prop with
  | zero => exact ⟨fun _ => trivial, fun _ => inside_nil⟩
  | succ numProps ih =>
    unfold cfgSubGraphPropLoop PropsLookInside
    cases hkind : SgPropKind.ofPropId (wordAt c.payload off) with
    | none =>
      rw [inside_cons]
      exact and_congr_right fun _ => ⟨fun _ => trivial, fun _ => inside_nil⟩
    | some kind =>
      dsimp only
      by_cases hbad : kind.checksSize ∧ wordAt c.payload (off + 4) < 4
      · rw [if_pos hbad, inside_cons, inside_cons]
        refine and_congr_right fun _ => ⟨fun h => ⟨?_, fun hgood => absurd hbad hgood⟩,
          fun h => ⟨?_, inside_nil⟩⟩
        · have := h.1
          omega
        · omega
      · rw [if_neg hbad]
        rw [inside_cons, inside_cons, inside_cons, ih]
        refine and_congr_right fun _ => ?_
        constructor
        · rintro ⟨hhead, hdata, hrest⟩
          exact ⟨by omega, fun _ => ⟨hdata, hrest⟩⟩
        · rintro ⟨hhead, hgood⟩
          obtain ⟨hdata, hrest⟩ := hgood hbad
          exact ⟨by omega, hdata, hrest⟩

lemma getPropDataSizeLoop_inside (numProp off : ℕ) (size : UInt32) :
    Inside limit (getPropDataSizeLoop c numProp off size).reads ↔
      SizesLookInside c limit numProp off := by
  induction numProp generalizing off size with
  | zero => exact ⟨fun _ => trivial, fun _ => inside_nil⟩
  | succ numProp ih =>
    have hread : off + 4 + 4 ≤ limit ↔ off + 8 ≤ limit := by omega
    unfold getPropDataSizeLoop SizesLookInside
    by_cases hbad : BadPropSize c (wordAt c.payload (off + 4))
    · rw [if_pos hbad, inside_cons, hread]
      exact and_congr_right fun _ => ⟨fun _ hgood => absurd hbad hgood, fun _ => inside_nil⟩
    · rw [if_neg hbad, inside_cons, hread, ih]
      exact and_congr_right fun _ => ⟨fun h _ => h, fun h => h hbad⟩

/-- The reads of a round for a new sub-graph. -/
lemma parseNewSubgraph_reads (s : ApmInfo) (off : ℕ) (size cntr : UInt32) :
    (parseNewSubgraph c s off size cntr).reads =
      if c.alloc s.numAllocs then (off, 4) :: (off + 4, 4) ::
        (cfgSubGraphProp c (off + 8) (wordAt c.payload (off + 4)).toNat).reads
      else [(off, 4)] := by
  unfold parseNewSubgraph allocate
  cases halloc : c.alloc s.numAllocs with
  | false => rfl
  | true =>
    dsimp only
    generalize (if c.hasMultiClient then _ else _ : ArResult × ClientList × ApmInfo) = added
    split
    · rfl
    · split
      · rfl
      · split
        · rfl
        · split
          · rfl
          · rfl

/-- The reads of a round. -/
lemma parseSubgraph_inside (s : ApmInfo) (off : ℕ) (size cntr : UInt32) :
    Inside limit (parseSubgraph c s off size cntr).reads ↔ EntryLooksInside c limit s off := by
  have hword : off + 4 + 4 ≤ limit ↔ off + 8 ≤ limit := by omega
  unfold parseSubgraph EntryLooksInside
  by_cases hbad : BadSgId (wordAt c.payload off)
  · rw [if_pos hbad, inside_cons]
    exact and_congr_right fun _ => ⟨fun _ hgood => absurd hbad hgood, fun _ => inside_nil⟩
  rw [if_neg hbad]
  cases hnode : s.getSubGraphNode (wordAt c.payload off) with
  | some sg =>
    dsimp only
    cases hadsp : c.isAdsp with
    | true =>
      have hreads : ∀ o : EntryOutcome, o.reads = [(off, 4)] → (Inside limit o.reads ↔
          off + 4 ≤ limit ∧ (¬ BadSgId (wordAt c.payload off) → true = false → off + 8 ≤ limit ∧
            ((c.payloadAddr + (off + 8)) % 4 = 0 →
              SizesLookInside c limit (wordAt c.payload (off + 4)).toNat (off + 8)))) := by
        intro o ho
        rw [ho, inside_cons]
        exact and_congr_right fun _ => ⟨fun _ _ hc => Bool.noConfusion hc, fun _ => inside_nil⟩
      rw [if_pos rfl]
      split
      · exact hreads _ rfl
      · exact hreads _ rfl
    | false =>
      rw [if_neg Bool.false_ne_true]
      rw [inside_cons, inside_cons, hword]
      unfold getPropDataSize
      refine and_congr_right fun _ => ?_
      by_cases halign : (c.payloadAddr + (off + 8)) % 4 = 0
      · rw [if_neg (not_not.mpr halign), getPropDataSizeLoop_inside]
        exact ⟨fun h _ _ => ⟨h.1, fun _ => h.2⟩, fun h => ⟨(h hbad rfl).1, (h hbad rfl).2 halign⟩⟩
      · rw [if_pos halign]
        exact ⟨fun h _ _ => ⟨h.1, fun hc => absurd hc halign⟩,
          fun h => ⟨(h hbad rfl).1, inside_nil⟩⟩
  | none =>
    rw [parseNewSubgraph_reads]
    cases halloc : c.alloc s.numAllocs with
    | true =>
      rw [if_pos rfl, inside_cons, inside_cons, hword]
      unfold cfgSubGraphProp
      rw [cfgSubGraphPropLoop_inside]
      exact and_congr_right fun _ => ⟨fun h _ _ => h, fun h => h hbad rfl⟩
    | false =>
      rw [if_neg Bool.false_ne_true, inside_cons]
      exact and_congr_right fun _ => ⟨fun _ _ hc => Bool.noConfusion hc, fun _ => inside_nil⟩

/-! ## Entries that are accepted -/

lemma cfgSubGraphPropLoop_ok_iff (numProps off : ℕ) (size : UInt32) (prop : SgProp) :
    (cfgSubGraphPropLoop c numProps off size prop).result = .eok ↔
      PropsAccepted c numProps off := by
  induction numProps generalizing off size prop with
  | zero => exact iff_of_true rfl trivial
  | succ numProps ih =>
    unfold cfgSubGraphPropLoop PropsAccepted
    cases hkind : SgPropKind.ofPropId (wordAt c.payload off) with
    | none => simp
    | some kind =>
      dsimp only
      by_cases hbad : kind.checksSize ∧ wordAt c.payload (off + 4) < 4
      · rw [if_pos hbad]
        refine iff_of_false nofun fun h => ?_
        obtain ⟨⟨kind', hkind', hgood⟩, -⟩ := h
        rw [Option.some.injEq] at hkind'
        exact hgood (hkind' ▸ hbad)
      · rw [if_neg hbad, ih]
        exact ⟨fun h => ⟨⟨kind, rfl, hbad⟩, h⟩, fun h => h.2⟩

lemma cfgSubGraphPropLoop_payloadSize (numProps off : ℕ) (size : UInt32) (prop : SgProp)
    (hok : PropsAccepted c numProps off) :
    (cfgSubGraphPropLoop c numProps off size prop).prop.payloadSize =
      size + propPayloadSize c numProps off := by
  induction numProps generalizing off size prop with
  | zero => exact (UInt32.add_zero size).symm
  | succ numProps ih =>
    obtain ⟨⟨kind, hkind, hgood⟩, hrest⟩ := hok
    unfold cfgSubGraphPropLoop propPayloadSize
    rw [hkind]
    dsimp only
    rw [if_neg hgood]
    dsimp only
    rw [ih _ _ _ hrest, UInt32.add_assoc]

lemma getPropDataSizeLoop_ok_iff (numProp off : ℕ) (size : UInt32) :
    (getPropDataSizeLoop c numProp off size).result = .eok ↔ SizesAccepted c numProp off := by
  induction numProp generalizing off size with
  | zero => exact iff_of_true rfl trivial
  | succ numProp ih =>
    unfold getPropDataSizeLoop SizesAccepted
    by_cases hbad : BadPropSize c (wordAt c.payload (off + 4))
    · rw [if_pos hbad]
      exact iff_of_false nofun fun h => h.1 hbad
    · rw [if_neg hbad, ih]
      exact (and_iff_right hbad).symm

/-- Allocations, and those after them. -/
lemma allocates_add (s : ApmInfo) (m n : ℕ) : Allocates c s (m + n) ↔
    Allocates c s m ∧ Allocates c { s with numAllocs := s.numAllocs + m } n := by
  unfold Allocates
  constructor
  · intro h
    refine ⟨fun i hi => h i (by omega), fun i hi => ?_⟩
    have := h (m + i) (by omega)
    rwa [← Nat.add_assoc] at this
  · rintro ⟨hfirst, hthen⟩ i hi
    by_cases him : i < m
    · exact hfirst i him
    · have := hthen (i - m) (by omega)
      rwa [Nat.add_assoc, Nat.add_sub_cancel' (Nat.le_of_not_lt him)] at this

lemma allocates_one (s : ApmInfo) : Allocates c s 1 ↔ c.alloc s.numAllocs = true := by
  simp [Allocates]

lemma allocates_two (s : ApmInfo) : Allocates c s 2 ↔
    c.alloc s.numAllocs = true ∧ c.alloc (s.numAllocs + 1) = true := by
  rw [allocates_add s 1 1, allocates_one, allocates_one]

lemma addSgClientContext_ok_iff (clients : ClientList) (s : ApmInfo) :
    (addSgClientContext c clients s).1 = .eok ↔ Allocates c s 2 := by
  rw [allocates_two]
  unfold addSgClientContext allocate
  cases hfirst : c.alloc s.numAllocs with
  | false => simp
  | true => cases hsecond : c.alloc (s.numAllocs + 1) <;> simp [hsecond]

/-- The allocations of `apm_multi_client_add_sg_client_context` are counted. -/
lemma addSgClientContext_info {clients : ClientList} {s : ApmInfo}
    (hok : (addSgClientContext c clients s).1 = .eok) :
    (addSgClientContext c clients s).2.2 = { s with numAllocs := s.numAllocs + 2 } := by
  obtain ⟨hfirst, hsecond⟩ := (allocates_two s).mp ((addSgClientContext_ok_iff clients s).mp hok)
  unfold addSgClientContext allocate
  rw [hfirst]
  dsimp only
  rw [hsecond]

/-- The multi-client shortcut needs another client and three allocations. -/
lemma multiClientParseSgList_ok_iff (sg : SgNode) (off : ℕ) (s : ApmInfo) :
    (multiClientParseSgList c sg off s).1 = .eok ↔
      sg.clients.checkDuplicateClient c.sim c.client = .eok ∧ Allocates c s 3 := by
  rw [allocates_add s 1 2, allocates_one]
  unfold multiClientParseSgList allocate
  by_cases hdup : sg.clients.checkDuplicateClient c.sim c.client = .eok
  · rw [if_neg (not_not.mpr hdup), and_iff_right hdup]
    cases hfirst : c.alloc s.numAllocs with
    | false => simp
    | true =>
      dsimp only
      rw [and_iff_right rfl]
      have hcontext := addSgClientContext_ok_iff (c := c) sg.clients
        ⟨s.subGraphs, s.sgIdList, s.skipSgIdList ++ [sg.subGraphId], s.numAllocs + 1⟩
      split
      · rename_i hadded
        exact iff_of_false nofun fun h => hadded (hcontext.mpr h)
      · rename_i hadded
        exact iff_of_true rfl (hcontext.mp (not_not.mp hadded))
  · rw [if_pos hdup]
    exact iff_of_false nofun fun h => hdup h.1

/-- The round for a new sub-graph returns no error exactly when its properties are accepted, its
allocations succeed, and there is room for the entries to come. -/
lemma parseNewSubgraph_ok_iff (s : ApmInfo) (off : ℕ) (size cntr : UInt32) :
    (parseNewSubgraph c s off size cntr).result = .eok ↔
      PropsAccepted c (wordAt c.payload (off + 4)).toNat (off + 8) ∧
        Allocates c s (if c.hasMultiClient then 5 else 3) ∧
        ¬ (cntr - 1 ≠ 0 ∧
          (size - (8 + propPayloadSize c (wordAt c.payload (off + 4)).toNat (off + 8))).toNat <
            sizeT c.abi ((cntr - 1).toNat * 8)) := by
  have hprops := cfgSubGraphPropLoop_ok_iff (c := c) (wordAt c.payload (off + 4)).toNat (off + 8) 0
    SgProp.zero
  have hmeasured := cfgSubGraphPropLoop_payloadSize (c := c) (wordAt c.payload (off + 4)).toNat
    (off + 8) 0 SgProp.zero
  -- the allocations of the client context, between those of the node and of the two list nodes
  obtain ⟨k, hk⟩ : ∃ k, k = if c.hasMultiClient then 2 else 0 := ⟨_, rfl⟩
  have hsplit : (if c.hasMultiClient then 5 else 3) = 1 + (k + 2) := by
    rw [hk]
    cases c.hasMultiClient <;> rfl
  rw [hsplit, allocates_add, allocates_one, allocates_add, allocates_two]
  unfold parseNewSubgraph allocate cfgSubGraphProp
  cases hfirst : c.alloc s.numAllocs with
  | false => exact iff_of_false nofun fun h => Bool.false_ne_true h.2.1.1
  | true =>
    dsimp only
    rw [and_iff_right rfl]
    generalize hadded :
      (if c.hasMultiClient then _ else _ : ArResult × ClientList × ApmInfo) = added
    have hcontext : (added.1 = .eok ↔ Allocates c { s with numAllocs := s.numAllocs + 1 } k) ∧
        (added.1 = .eok → added.2.2.numAllocs = s.numAllocs + 1 + k) := by
      rw [← hadded, hk]
      cases c.hasMultiClient with
      | true => exact ⟨addSgClientContext_ok_iff _ _, fun hok => by
          rw [if_pos rfl] at hok ⊢
          rw [addSgClientContext_info hok]
          rfl⟩
      | false => exact ⟨iff_of_true rfl fun i hi => absurd hi (Nat.not_lt_zero i), fun _ => rfl⟩
    by_cases hcfg : PropsAccepted c (wordAt c.payload (off + 4)).toNat (off + 8)
    · rw [if_neg (not_not.mpr (hprops.mpr hcfg)), and_iff_right hcfg]
      by_cases hok : added.1 = .eok
      · rw [if_neg (not_not.mpr hok), and_iff_right (hcontext.1.mp hok), ← hcontext.2 hok]
        cases hthen : c.alloc added.2.2.numAllocs with
        | false => exact iff_of_false nofun fun h => Bool.false_ne_true h.1.1
        | true =>
          dsimp only
          rw [and_iff_right rfl]
          cases hlast : c.alloc (added.2.2.numAllocs + 1) with
          | false => exact iff_of_false nofun fun h => Bool.false_ne_true h.1
          | true =>
            dsimp only
            rw [and_iff_right rfl, hmeasured hcfg, UInt32.zero_add]
            split
            · rename_i hshort
              exact iff_of_false nofun fun h => h hshort
            · rename_i henough
              exact iff_of_true rfl henough
      · rw [if_pos hok]
        exact iff_of_false hok fun h => hok (hcontext.1.mpr h.1.1)
    · rw [if_pos fun hc => hcfg (hprops.mp hc)]
      exact iff_of_false (fun hc => hcfg (hprops.mp hc)) fun h => hcfg h.1

/-- **Accepted entries.** A round returns no error exactly when its entry is accepted. -/
lemma parseSubgraph_ok_iff (s : ApmInfo) (off : ℕ) (size cntr : UInt32) :
    (parseSubgraph c s off size cntr).result = .eok ↔ EntryAccepted c s off size cntr := by
  unfold parseSubgraph EntryAccepted
  by_cases hbad : BadSgId (wordAt c.payload off)
  · rw [if_pos hbad]
    exact iff_of_false nofun fun h => h.1 hbad
  rw [if_neg hbad, and_iff_right hbad]
  cases hnode : s.getSubGraphNode (wordAt c.payload off) with
  | some sg =>
    dsimp only
    cases hadsp : c.isAdsp with
    | true =>
      rw [if_pos rfl, if_pos rfl]
      cases hclients : c.hasMultiClient with
      | true =>
        rw [if_pos rfl, and_iff_right rfl]
        exact multiClientParseSgList_ok_iff sg off s
      | false =>
        rw [if_neg Bool.false_ne_true]
        exact iff_of_false nofun fun h => Bool.false_ne_true h.1
    | false =>
      rw [if_neg Bool.false_ne_true, if_neg Bool.false_ne_true]
      unfold getPropDataSize
      by_cases halign : (c.payloadAddr + (off + 8)) % 4 = 0
      · rw [if_neg (not_not.mpr halign), and_iff_right halign]
        exact getPropDataSizeLoop_ok_iff _ _ _
      · rw [if_pos halign]
        exact iff_of_false nofun fun h => halign h.1
  | none => exact parseNewSubgraph_ok_iff s off size cntr

/-! ## Entries that are whole -/

/-- Below 4 GiB a `size_t` holds the number. -/
lemma sizeT_eq {abi : Abi} {n : ℕ} (h : n < 4294967296) : sizeT abi n = n := by
  cases abi with
  | bits32 => exact Nat.mod_eq_of_lt h
  | bits64 => exact Nat.mod_eq_of_lt (Nat.lt_trans h (by decide))

lemma toNat_eight_add {v : UInt32} (h : 8 + v.toNat < 4294967296) :
    (8 + v).toNat = 8 + v.toNat := by
  exact Nat.mod_eq_of_lt h

/-- A list of properties of less than 4 GiB is measured right. -/
lemma cfgSubGraphPropLoop_size (numProps off : ℕ) (size : UInt32) (prop : SgProp)
    (hok : (cfgSubGraphPropLoop c numProps off size prop).result = .eok)
    (hfit : size.toNat + propsSize c.payload numProps off < 4294967296) :
    (cfgSubGraphPropLoop c numProps off size prop).prop.payloadSize.toNat =
      size.toNat + propsSize c.payload numProps off := by
  induction numProps generalizing off size prop with
  | zero => rfl
  | succ numProps ih =>
    unfold propsSize at hfit ⊢
    unfold cfgSubGraphPropLoop at hok ⊢
    dsimp only at hok hfit ⊢
    cases hkind : SgPropKind.ofPropId (wordAt c.payload off) with
    | none =>
      rw [hkind] at hok
      cases hok
    | some kind =>
      rw [hkind] at hok
      dsimp only at hok ⊢
      by_cases hbad : kind.checksSize ∧ wordAt c.payload (off + 4) < 4
      · rw [if_pos hbad] at hok
        cases hok
      · rw [if_neg hbad] at hok ⊢
        have hprop := toNat_eight_add (v := wordAt c.payload (off + 4)) (by omega)
        have hnext : nextProp c off = off + (8 + (wordAt c.payload (off + 4)).toNat) := by
          rw [nextProp, sizeT_eq (by omega)]
        have hsize : (size + (8 + wordAt c.payload (off + 4))).toNat =
            size.toNat + (8 + (wordAt c.payload (off + 4)).toNat) := by
          rw [UInt32.toNat_add, hprop]
          exact Nat.mod_eq_of_lt (by omega)
        rw [hnext] at hok ⊢
        rw [ih _ _ _ hok (by rw [hsize]; omega), hsize]
        omega

/-- A list of sizes of less than 4 GiB is added up right. -/
lemma getPropDataSizeLoop_size (numProp off : ℕ) (size : UInt32)
    (hok : (getPropDataSizeLoop c numProp off size).result = .eok)
    (hfit : size.toNat + propsSize c.payload numProp off < 4294967296) :
    (getPropDataSizeLoop c numProp off size).size.toNat =
      size.toNat + propsSize c.payload numProp off := by
  induction numProp generalizing off size with
  | zero => rfl
  | succ numProp ih =>
    unfold propsSize at hfit ⊢
    unfold getPropDataSizeLoop at hok ⊢
    dsimp only at hok hfit ⊢
    by_cases hbad : BadPropSize c (wordAt c.payload (off + 4))
    · rw [if_pos hbad] at hok
      cases hok
    · rw [if_neg hbad] at hok ⊢
      have hprop := toNat_eight_add (v := wordAt c.payload (off + 4)) (by omega)
      have hsize : (size + (8 + wordAt c.payload (off + 4))).toNat =
          size.toNat + (8 + (wordAt c.payload (off + 4)).toNat) := by
        rw [UInt32.toNat_add, hprop]
        exact Nat.mod_eq_of_lt (by omega)
      rw [hprop] at hok ⊢
      rw [ih _ _ hok (by rw [hsize]; omega), hsize]
      omega

variable {s : ApmInfo} {off : ℕ}

/-- A round for a new sub-graph that succeeds has measured its properties. -/
lemma parseNewSubgraph_off {size cntr : UInt32}
    (hok : (parseNewSubgraph c s off size cntr).result = .eok) :
    let cfg := cfgSubGraphProp c (off + 8) (wordAt c.payload (off + 4)).toNat
    cfg.result = .eok ∧
      (parseNewSubgraph c s off size cntr).off = off + 8 + cfg.prop.payloadSize.toNat := by
  unfold parseNewSubgraph allocate at hok ⊢
  cases halloc : c.alloc s.numAllocs with
  | false =>
    rw [halloc] at hok
    cases hok
  | true =>
    rw [halloc] at hok
    dsimp only at hok ⊢
    generalize (if c.hasMultiClient then _ else _ : ArResult × ClientList × ApmInfo) = added
      at hok ⊢
    by_cases hcfg : (cfgSubGraphProp c (off + 8) (wordAt c.payload (off + 4)).toNat).result = .eok
    · refine ⟨hcfg, ?_⟩
      rw [if_neg (not_not.mpr hcfg)] at hok ⊢
      by_cases hadded : added.1 = .eok
      · rw [if_neg (not_not.mpr hadded)] at hok ⊢
        cases hfirst : c.alloc added.2.2.numAllocs with
        | false =>
          rw [hfirst] at hok
          cases hok
        | true =>
          rw [hfirst] at hok
          dsimp only at hok ⊢
          cases hsecond : c.alloc (added.2.2.numAllocs + 1) with
          | false =>
            rw [hsecond] at hok
            cases hok
          | true => rfl
      · rw [if_pos hadded] at hok
        exact absurd hok hadded
    · rw [if_pos hcfg] at hok
      exact absurd hok hcfg

/-- The multi-client shortcut goes on by the size that is stored in the node. -/
lemma multiClientParseSgList_off {sg : SgNode} (hok : (multiClientParseSgList c sg off s).1 = .eok)
    : (multiClientParseSgList c sg off s).2.2 = off + 8 + sg.prop.payloadSize.toNat := by
  unfold multiClientParseSgList allocate at hok ⊢
  split
  · rename_i hdup
    rw [if_pos hdup] at hok
    cases hok
  · rename_i hdup
    rw [if_neg hdup] at hok
    cases halloc : c.alloc s.numAllocs with
    | false =>
      rw [halloc] at hok
      cases hok
    | true =>
      rw [halloc] at hok
      dsimp only at hok ⊢
      split
      · rename_i hadded
        rw [if_pos hadded] at hok
        cases hok
      · rfl

/-- A round that accepts a whole entry goes on behind it, unless it skips a sub-graph by a stored
size that is wrong. -/
lemma parseSubgraph_off {size cntr : UInt32} (hlimit : limit < 4294967296)
    (hok : (parseSubgraph c s off size cntr).result = .eok)
    (hwhole : off + entrySize c.payload off ≤ limit) :
    (parseSubgraph c s off size cntr).off = off + entrySize c.payload off ↔
      StoredSizeRight c s off := by
  have hfit : propsSize c.payload (wordAt c.payload (off + 4)).toNat (off + 8) < 4294967296 := by
    unfold entrySize at hwhole
    omega
  unfold StoredSizeRight
  unfold parseSubgraph at hok ⊢
  by_cases hbad : BadSgId (wordAt c.payload off)
  · rw [if_pos hbad] at hok
    cases hok
  rw [if_neg hbad] at hok ⊢
  cases hnode : s.getSubGraphNode (wordAt c.payload off) with
  | some sg =>
    rw [hnode] at hok
    dsimp only at hok ⊢
    cases hadsp : c.isAdsp with
    | true =>
      rw [hadsp, if_pos rfl] at hok
      rw [if_pos rfl]
      cases hclients : c.hasMultiClient with
      | true =>
        rw [hclients, if_pos rfl] at hok
        rw [if_pos rfl, multiClientParseSgList_off hok]
        dsimp only
        constructor
        · intro hoff sg' hsg' _
          cases hsg'
          omega
        · intro hstored
          have := hstored sg rfl rfl
          omega
      | false =>
        rw [hclients, if_neg Bool.false_ne_true] at hok
        cases hok
    | false =>
      rw [hadsp, if_neg Bool.false_ne_true] at hok
      rw [if_neg Bool.false_ne_true]
      dsimp only at hok ⊢
      unfold getPropDataSize at hok ⊢
      refine ⟨fun _ _ _ hc => Bool.noConfusion hc, fun _ => ?_⟩
      split
      · rename_i halign
        rw [if_pos halign] at hok
        cases hok
      · rename_i halign
        rw [if_neg halign] at hok
        have hsize := getPropDataSizeLoop_size _ _ _ hok (by rw [UInt32.toNat_zero]; omega)
        rw [hsize, UInt32.toNat_zero, entrySize]
        omega
  | none =>
    rw [hnode] at hok
    obtain ⟨hcfg, hoff⟩ := parseNewSubgraph_off hok
    have hsize := cfgSubGraphPropLoop_size _ _ _ _ hcfg (by rw [UInt32.toNat_zero]; omega)
    refine ⟨fun _ sg hc => absurd hc.symm (Option.some_ne_none sg), fun _ => ?_⟩
    rw [hoff, cfgSubGraphProp, hsize, UInt32.toNat_zero, entrySize]
    omega

/-! ## The loop -/

lemma parseLoop_head (limit idx : ℕ) (s : ApmInfo) (off : ℕ) (size cntr : UInt32) :
    (parseLoop c (idx + 1) s off size cntr).entries.head? = some off ∧
      (Inside limit (parseLoop c (idx + 1) s off size cntr).reads → off + 4 ≤ limit) := by
  unfold parseLoop
  dsimp only
  split
  · exact ⟨rfl, fun h => ((parseSubgraph_inside s off size cntr).mp h).1⟩
  · exact ⟨rfl, fun h => ((parseSubgraph_inside s off size cntr).mp (inside_append.mp h).1).1⟩

lemma parsesInside_cons {o : ParseOutcome} {idx : ℕ} {reads : Reads} :
    ParsesInside c.payload limit off (idx + 1)
        { o with reads := reads ++ o.reads, entries := off :: o.entries } ↔
      Inside limit reads ∧ ParsesInside c.payload limit (off + entrySize c.payload off) idx o := by
  constructor
  · intro h
    have hreads := inside_append.mp h.inside
    refine ⟨hreads.1, hreads.2, fun i hi => ?_, fun hok => ?_⟩
    · exact h.positions (i + 1) (Nat.succ_lt_succ hi)
    · obtain ⟨hlength, hlast⟩ := h.complete hok
      exact ⟨Nat.succ.inj hlength, hlast⟩
  · rintro ⟨hreads, h⟩
    refine ⟨inside_append.mpr ⟨hreads, h.inside⟩, fun i hi => ?_, fun hok => ?_⟩
    · cases i with
      | zero => rfl
      | succ i => exact h.positions i (Nat.lt_of_succ_lt_succ hi)
    · obtain ⟨hlength, hlast⟩ := h.complete hok
      exact ⟨congrArg Nat.succ hlength, hlast⟩

/-- The loop is right on a list of entries exactly when they fit. -/
lemma parseLoop_inside (hlimit : limit < 4294967296) (idx : ℕ) (s : ApmInfo) (off : ℕ)
    (size cntr : UInt32) (hoff : off ≤ limit) :
    ParsesInside c.payload limit off idx (parseLoop c idx s off size cntr) ↔
      EntriesFit c limit idx s off size cntr := by
  induction idx generalizing s off size cntr with
  | zero =>
    refine ⟨fun _ => trivial, fun _ => ⟨inside_nil, fun i h => absurd h (Nat.not_lt_zero i), ?_⟩⟩
    exact fun _ => ⟨rfl, hoff⟩
  | succ idx ih =>
    unfold parseLoop EntriesFit
    rw [← parseSubgraph_inside s off size cntr, ← parseSubgraph_ok_iff]
    by_cases hok : (parseSubgraph c s off size cntr).result = .eok
    · rw [if_neg (not_not.mpr hok), parsesInside_cons]
      refine and_congr_right fun _ => ?_
      rw [forall_prop_of_true hok]
      cases idx with
      | zero =>
        constructor
        · exact fun h => ⟨(h.complete rfl).2, fun hc => absurd rfl hc, trivial⟩
        · rintro ⟨hwhole, -, -⟩
          refine ⟨inside_nil, fun i h => absurd h (Nat.not_lt_zero i), fun _ => ⟨rfl, hwhole⟩⟩
      | succ idx =>
        obtain ⟨hhead, hlook⟩ := parseLoop_head limit idx
          (parseSubgraph c s off size cntr).info (parseSubgraph c s off size cntr).off
          (parseSubgraph c s off size cntr).size (parseSubgraph c s off size cntr).cntr
        constructor
        · intro h
          -- the next entry is looked for at its place and inside
          have hnext : (parseSubgraph c s off size cntr).off = off + entrySize c.payload off := by
            obtain ⟨hlt, hget⟩ := List.getElem?_eq_some_iff.mp (List.head?_eq_getElem? ▸ hhead)
            rw [← hget]
            exact h.positions 0 hlt
          have hwhole : off + entrySize c.payload off ≤ limit := by
            have := hlook h.inside
            omega
          refine ⟨hwhole, fun _ => (parseSubgraph_off hlimit hok hwhole).mp hnext, ?_⟩
          rw [← hnext] at h
          exact (ih _ _ _ _ (by omega)).mp h
        · rintro ⟨hwhole, hstored, hfit⟩
          have hnext := (parseSubgraph_off hlimit hok hwhole).mpr (hstored (Nat.succ_ne_zero idx))
          rw [← hnext]
          exact (ih _ _ _ _ (by omega)).mpr hfit
    · -- the parser returns the error of this entry
      rw [if_pos hok]
      constructor
      · exact fun h => ⟨h.inside, fun hc => absurd hc hok⟩
      · rintro ⟨hinside, -⟩
        refine ⟨hinside, fun i h => ?_, fun hc => absurd hc hok⟩
        have hi : i = 0 := by
          change i < 1 at h
          omega
        subst hi
        rfl

end

/-- **Where the parser of the sub-graph list reads.** For every payload, every payload size and
every state of the data base, `apm_parse_subgraph_list` reads inside the payload, finds every entry
at the sum of the sizes of those before it, and succeeds only when it has parsed all of them,
exactly when the payload fits. -/
theorem apmParseSubgraphList_inside (c : Command) (s : ApmInfo) (payloadSize : UInt32) :
    ParsesInside c.payload payloadSize.toNat 4 (numSubGraphs c.payload).toNat
        (parseSubgraphList c s payloadSize) ↔ PayloadFits c s payloadSize := by
  have hlimit : payloadSize.toNat < 4294967296 := payloadSize.toNat_lt
  have hfour : 4 ≤ payloadSize ↔ 4 ≤ payloadSize.toNat := UInt32.le_iff_toNat_le
  unfold parseSubgraphList PayloadFits
  by_cases hzero : payloadSize = 0
  · rw [if_pos hzero]
    refine ⟨fun _ hc => absurd hzero hc, fun _ => ⟨inside_nil, ?_, fun hc => by cases hc⟩⟩
    exact fun i h => absurd h (Nat.not_lt_zero i)
  rw [if_neg hzero, forall_prop_of_true hzero, hfour]
  by_cases hnum : numSubGraphs c.payload = 0
  · rw [if_pos hnum]
    constructor
    · exact fun h => ⟨(inside_cons.mp h.inside).1, fun hc => absurd hnum hc⟩
    · rintro ⟨hle, -⟩
      refine ⟨inside_cons.mpr ⟨hle, inside_nil⟩, ?_, fun hc => by cases hc⟩
      exact fun i h => absurd h (Nat.not_lt_zero i)
  rw [if_neg hnum, forall_prop_of_true hnum]
  by_cases hsize : payloadSize < 4 + numSubGraphs c.payload * 8
  · rw [if_pos hsize]
    constructor
    · exact fun h => ⟨(inside_cons.mp h.inside).1, fun hc => absurd hsize hc⟩
    · rintro ⟨hle, -⟩
      refine ⟨inside_cons.mpr ⟨hle, inside_nil⟩, ?_, fun hc => by cases hc⟩
      exact fun i h => absurd h (Nat.not_lt_zero i)
  rw [if_neg hsize, forall_prop_of_true hsize]
  constructor
  · intro h
    obtain ⟨hle, hrest⟩ := inside_cons.mp h.inside
    exact ⟨hle, (parseLoop_inside hlimit _ _ _ _ _ hle).mp ⟨hrest, h.positions, h.complete⟩⟩
  · rintro ⟨hle, hfit⟩
    have h := (parseLoop_inside hlimit _ _ _ _ _ hle).mpr hfit
    exact ⟨inside_cons.mpr ⟨hle, h.inside⟩, h.positions, h.complete⟩

/-! ## A property list behind the payload -/

/-- Twelve bytes: one sub-graph with one property, which is not there. -/
def onePropertyMissing : ℕ → UInt8 := fun i =>
  [1, 0, 0, 0, 1, 64, 0, 0, 1, 0, 0, 0].getD i 0

/-- The payload comes to a process domain with an empty data base. -/
def missingPropertyCommand : Command :=
  { abi := .bits32, payload := onePropertyMissing, payloadAddr := 0, isAdsp := true,
    hasMultiClient := false, sim := false, client := ⟨8193, 2⟩, cmdPayloadSize := 28,
    alloc := fun _ => true }

/-- **A property list that is not in the payload is read.** The payload has the least size for one
sub-graph, and the sub-graph says that it has one property. -/
theorem not_apmParseSubgraphList_inside : ¬ ∀ (c : Command) (s : ApmInfo) (payloadSize : UInt32),
      ParsesInside c.payload payloadSize.toNat 4 (numSubGraphs c.payload).toNat
        (parseSubgraphList c s payloadSize) := by
  intro h
  have hinside := (h missingPropertyCommand ⟨[], [], [], 0⟩ 12).inside
  have hread : (12, 4) ∈ (parseSubgraphList missingPropertyCommand ⟨[], [], [], 0⟩ 12).reads := by
    decide
  exact absurd (hinside (12, 4) hread) (by decide)

end AudioReach.SgParser
