import AudioReach.Library.Assign
import AudioReach.Library.Owners
import AudioReach.MediaFmt.Model

/-!
# The blocks and the ports that refer to them

`SameFmt` is the equality of formats that the blocks are shared by.  `Counted` is what holds of
the blocks between the calls: the list has exactly the allocated blocks, each is counted by its
ports and has at least one, and no two have the same format.  One lemma says what each of the
three moves of the functions does: a port lets its block go, a port without a block refers to
one, and a new block is inserted.
-/

namespace AudioReach

open Function (forall_update_iff update update_eq_self update_of_ne update_self)
open Library List

namespace TopoMediaFmt

variable {maxCh : ℕ} {a b c : TopoMediaFmt maxCh}

/-- The formats are equal; of a PCM or packetized format only its fields count, and of its
channel map only the entries of its channels. -/
def SameFmt (a b : TopoMediaFmt maxCh) : Prop :=
  if a.dataFormat.isPacketizedOrPcm then
    a.dataFormat = b.dataFormat ∧ a.fmtId = b.fmtId ∧ a.sampleRate = b.sampleRate ∧
      a.bitWidth = b.bitWidth ∧ a.bitsPerSample = b.bitsPerSample ∧ a.qFactor = b.qFactor ∧
      a.numChannels = b.numChannels ∧ a.interleaving = b.interleaving ∧
      a.endianness = b.endianness ∧
      ∀ i < a.numChannels.toNat, a.chanMap[i]? = b.chanMap[i]?
  else a = b

lemma SameFmt.refl (a : TopoMediaFmt maxCh) : SameFmt a a := by
  unfold SameFmt
  split
  · exact ⟨rfl, rfl, rfl, rfl, rfl, rfl, rfl, rfl, rfl, fun _ _ => rfl⟩
  · rfl

lemma SameFmt.dataFormat (h : SameFmt a b) : a.dataFormat = b.dataFormat := by
  unfold SameFmt at h
  split at h
  · exact h.1
  · rw [h]

lemma SameFmt.eq (h : SameFmt a b) (hraw : a.dataFormat.isPacketizedOrPcm = false) : a = b := by
  unfold SameFmt at h
  rwa [if_neg (by rw [hraw]; exact Bool.false_ne_true)] at h

lemma SameFmt.symm (h : SameFmt a b) : SameFmt b a := by
  have hdf := h.dataFormat
  unfold SameFmt at h ⊢
  split at h
  · obtain ⟨_, h₂, h₃, h₄, h₅, h₆, h₇, h₈, h₉, hmap⟩ := h
    rw [if_pos (hdf ▸ ‹_›)]
    refine ⟨hdf.symm, h₂.symm, h₃.symm, h₄.symm, h₅.symm, h₆.symm, h₇.symm, h₈.symm, h₉.symm, ?_⟩
    intro i hi
    exact (hmap i (h₇ ▸ hi)).symm
  · rw [if_neg (hdf ▸ ‹_›)]
    exact h.symm

lemma SameFmt.trans (hab : SameFmt a b) (hbc : SameFmt b c) : SameFmt a c := by
  have hdf := hab.dataFormat
  unfold SameFmt at hab hbc ⊢
  rw [← hdf] at hbc
  split at hab
  · rw [if_pos ‹_›] at hbc
    rw [if_pos ‹_›]
    obtain ⟨_, h₂, h₃, h₄, h₅, h₆, h₇, h₈, h₉, hmap⟩ := hab
    obtain ⟨k₁, k₂, k₃, k₄, k₅, k₆, k₇, k₈, k₉, kmap⟩ := hbc
    refine ⟨k₁, h₂.trans k₂, h₃.trans k₃, h₄.trans k₄, h₅.trans k₅, h₆.trans k₆, h₇.trans k₇,
      h₈.trans k₈, h₉.trans k₉, ?_⟩
    intro i hi
    exact (hmap i hi).trans (kmap i (h₇ ▸ hi))
  · rw [if_neg ‹_›] at hbc
    rw [if_neg ‹_›]
    exact hab.trans hbc

/-- `is_mf_changed` says whether two formats are the same: it compares the fields and the bytes,
and takes either as enough. -/
lemma isMfChanged_eq_false_iff : a.isMfChanged b = false ↔ SameFmt a b := by
  unfold isMfChanged hasMediaFormatChanged SameFmt
  by_cases heq : a = b
  · subst heq
    simp
  · by_cases hdf : a.dataFormat = b.dataFormat
    · cases hpcm : a.dataFormat.isPacketizedOrPcm
      · simp [heq, hdf]
      · grind
    · simp [heq, hdf]

lemma SameFmt.numChs (h : SameFmt a b) : a.numChs = b.numChs := by
  have hdf := h.dataFormat
  unfold SameFmt at h
  split at h
  · obtain ⟨-, -, h₃, -, -, -, h₇, -⟩ := h
    unfold TopoMediaFmt.numChs
    rw [← hdf, h₃, h₇]
  · rw [h]

end TopoMediaFmt

namespace TopoMfUtils

open TopoMediaFmt

variable {maxCh : ℕ} {me : TopoMfUtils maxCh} {a : Addr}

/-- The format in the block at an address. -/
def fmtAt (me : TopoMfUtils maxCh) (a : Addr) : Option (TopoMediaFmt maxCh) :=
  (me.mem a).map MfUtilsNode.mf

/-- The raw buffers of the blocks in the list. -/
def ownedBufs (me : TopoMfUtils maxCh) : List Addr :=
  me.mfNodes.flatMap fun a => ((me.fmtAt a).map rawBufs).getD []

variable {node : MfUtilsNode maxCh}

lemma fmtAt_of_mem (h : me.mem a = some node) : me.fmtAt a = some node.mf := by
  rw [fmtAt, h]
  rfl

lemma exists_of_fmtAt {mf : TopoMediaFmt maxCh} (h : me.fmtAt a = some mf) :
    ∃ node, me.mem a = some node ∧ node.mf = mf :=
  Option.map_eq_some_iff.mp h

/-- What holds of the blocks, for ports whose pointers are `port`. -/
structure Counted {ι : Type*} (ports : List ι) (me : TopoMfUtils maxCh)
    (port : ι → Option Addr) : Prop where
  nodup : me.mfNodes.Nodup
  /-- The blocks in the list are the allocated ones. -/
  live : ∀ a, a ∈ me.mfNodes ↔ ∃ node, me.mem a = some node
  /-- The count of a block is the number of its ports. -/
  count : ∀ a node, me.mem a = some node → node.refCount = owners ports port a
  used : ∀ a ∈ me.mfNodes, owners ports port a ≠ 0
  /-- `num_nodes` is the length of the list. -/
  numNodes : me.numNodes = me.mfNodes.length
  distinct : ∀ a b f g, me.fmtAt a = some f → me.fmtAt b = some g → SameFmt f g → a = b
  pointed : ∀ p ∈ ports, ∀ a, port p = some a → a ∈ me.mfNodes

variable {ι : Type*} [DecidableEq ι] {ports : List ι} {port : ι → Option Addr} {p : ι}

omit [DecidableEq ι] in
lemma Counted.fmtAt_of_port (h : Counted ports me port) (hp : p ∈ ports) (ha : port p = some a) :
    ∃ f, me.fmtAt a = some f := by
  obtain ⟨node, hnode⟩ := (h.live a).mp (h.pointed p hp a ha)
  exact ⟨node.mf, fmtAt_of_mem hnode⟩

/-- What giving up the pointer of one port does: blocks only go, with their raw buffers. -/
structure Released (me me' : TopoMfUtils maxCh) : Prop where
  fmtAt : ∀ a f, me'.fmtAt a = some f → me.fmtAt a = some f
  bufs : ∃ gone, me'.freedBufs = me.freedBufs ++ gone ∧ me.ownedBufs.Perm (gone ++ me'.ownedBufs)

/-- The last port of a block lets it go. -/
lemma Counted.removeNode (hnodup : ports.Nodup) (h : Counted ports me port) (hp : p ∈ ports)
    (ha : port p = some a) (hnode : me.mem a = some node)
    (hone : owners ports port a = 1) {me' : TopoMfUtils maxCh}
    (hmem : me'.mem = update me.mem a none) (hnodes : me'.mfNodes = me.mfNodes.erase a)
    (hnum : me'.numNodes = me.numNodes - 1)
    (hfreed : me'.freedBufs = me.freedBufs ++ node.mf.rawBufs) :
    Counted ports me' (update port p none) ∧ Released me me' := by
  have hin : a ∈ me.mfNodes := (h.live a).mpr ⟨node, hnode⟩
  have hself : me'.mem a = none := by rw [hmem, update_self]
  have hother : ∀ b, b ≠ a → me'.mem b = me.mem b := by
    intro b hb
    rw [hmem, update_of_ne hb]
  have hfmt : ∀ b f, me'.fmtAt b = some f → b ≠ a ∧ me.fmtAt b = some f := by
    intro b f hf
    have hb : b ≠ a := by
      rintro rfl
      rw [TopoMfUtils.fmtAt, hself] at hf
      cases hf
    rw [TopoMfUtils.fmtAt, hother b hb] at hf
    exact ⟨hb, hf⟩
  refine ⟨⟨?_, fun b => ?_, fun b x hx => ?_, fun b hb => ?_, ?_, fun b c f g hf hg hsame => ?_,
    fun q hq b hb => ?_⟩, ⟨fun b f hf => (hfmt b f hf).2, ?_⟩⟩
  · rw [hnodes]
    exact h.nodup.erase a
  · rw [hnodes, h.nodup.mem_erase_iff, h.live b]
    by_cases hb : b = a
    · subst hb
      simp [hself]
    · rw [hother b hb]
      simp [hb]
  · have hb : b ≠ a := ne_of_apply_eq hx hself nofun
    rw [hother b hb] at hx
    rw [owners_drop_of_ne hnodup hp ha hb]
    exact h.count b x hx
  · rw [hnodes, h.nodup.mem_erase_iff] at hb
    rw [owners_drop_of_ne hnodup hp ha hb.1]
    exact h.used b hb.2
  · rw [hnum, hnodes, h.numNodes, length_erase_of_mem hin]
    have hpos := length_pos_of_mem hin
    omega
  · exact h.distinct b c f g (hfmt b f hf).2 (hfmt c g hg).2 hsame
  · -- no other port pointed to the block that goes
    have hqp : q ≠ p := ne_of_update_eq hb nofun
    rw [update_of_ne hqp] at hb
    rw [hnodes, h.nodup.mem_erase_iff]
    refine ⟨?_, h.pointed q hq b hb⟩
    rintro rfl
    exact hqp (eq_of_owners_eq_one hnodup hp ha hone hq hb)
  · have hrest : me'.ownedBufs =
        (me.mfNodes.erase a).flatMap fun b => ((me.fmtAt b).map rawBufs).getD [] := by
      unfold ownedBufs
      rw [hnodes]
      refine flatMap_congr fun b hb => ?_
      have hne := (h.nodup.mem_erase_iff.mp hb).1
      rw [TopoMfUtils.fmtAt, TopoMfUtils.fmtAt, hother b hne]
    have hsplit := flatMap_erase_perm (fun b => ((me.fmtAt b).map rawBufs).getD []) hin
    rw [fmtAt_of_mem hnode] at hsplit
    refine ⟨node.mf.rawBufs, hfreed, ?_⟩
    rw [hrest]
    exact hsplit

omit [DecidableEq ι] in
/-- A block is written, with the number of its ports. -/
lemma Counted.count_update (h : Counted ports me port) {port' : ι → Option Addr}
    (hn : node.refCount = owners ports port' a)
    (hcount : ∀ b, b ≠ a → owners ports port' b = owners ports port b) (b : Addr)
    (x : MfUtilsNode maxCh) (hx : update me.mem a (some node) b = some x) :
    x.refCount = owners ports port' b := by
  refine (forall_update_iff me.mem fun b o =>
    ∀ x, o = some x → x.refCount = owners ports port' b).mpr ⟨?_, ?_⟩ b x hx
  · exact fun x hx => Option.some.inj hx ▸ hn
  · exact fun b hb x hx => (hcount b hb).symm ▸ h.count b x hx

/-- The block at an address with another count. -/
def setRefCount (me : TopoMfUtils maxCh) (a : Addr) (node : MfUtilsNode maxCh) (n : ℕ) :
    TopoMfUtils maxCh :=
  { me with mem := update me.mem a (some { node with refCount := n }) }

omit [DecidableEq ι] in
/-- The count of a block changes with the number of its ports, and all else stays. -/
lemma Counted.setCount (h : Counted ports me port) (port' : ι → Option Addr)
    (hnode : me.mem a = some node) (n : ℕ) (hn : n = owners ports port' a) (hpos : n ≠ 0)
    (hcount : ∀ b, b ≠ a → owners ports port' b = owners ports port b)
    (hpointed : ∀ q ∈ ports, ∀ b, port' q = some b → port q = some b ∨ b = a) :
    Counted ports (me.setRefCount a node n) port' ∧ (me.setRefCount a node n).fmtAt = me.fmtAt := by
  have hfmt : (me.setRefCount a node n).fmtAt = me.fmtAt := by
    funext b
    exact apply_update_eq (p := Option.map MfUtilsNode.mf) (by rw [hnode]; rfl) b
  have hin : a ∈ me.mfNodes := (h.live a).mpr ⟨node, hnode⟩
  refine ⟨⟨h.nodup, ?_, h.count_update hn hcount, fun b hb => ?_, h.numNodes, ?_,
    fun q hq b hb => ?_⟩, hfmt⟩
  · exact forall_update (p := fun b o => b ∈ me.mfNodes ↔ ∃ node, o = some node) h.live
      ⟨fun _ => ⟨_, rfl⟩, fun _ => hin⟩
  · by_cases hba : b = a
    · subst hba
      rw [← hn]
      exact hpos
    · rw [hcount b hba]
      exact h.used b hb
  · rw [hfmt]
    exact h.distinct
  · rcases hpointed q hq b hb with hold | rfl
    · exact h.pointed q hq b hold
    · exact hin

lemma ownedBufs_congr {me' : TopoMfUtils maxCh} (hnodes : me'.mfNodes = me.mfNodes)
    (hfmt : me'.fmtAt = me.fmtAt) : me'.ownedBufs = me.ownedBufs := by
  unfold ownedBufs
  rw [hnodes, hfmt]

section

variable (hnodup : ports.Nodup) (h : Counted ports me port) (hp : p ∈ ports)
include hnodup h hp

/-- **Release.** A port gives up its pointer, and the block goes with its last port. -/
theorem Counted.releaseMediaFmt :
    ∃ me', me.releaseMediaFmt (port p) = some me' ∧ Counted ports me' (update port p none) ∧
      Released me me' := by
  unfold TopoMfUtils.releaseMediaFmt
  cases ha : port p with
  | none =>
    refine ⟨me, rfl, ?_, ⟨fun _ _ hf => hf, [], (append_nil _).symm, List.Perm.refl _⟩⟩
    rw [← ha, update_eq_self]
    exact h
  | some a =>
    obtain ⟨node, hnode⟩ := (h.live a).mp (h.pointed p hp a ha)
    have hcount := h.count a node hnode
    have hself := owners_drop_self hnodup hp ha
    have hless : (if 0 < node.refCount then node.refCount - 1 else 0) = node.refCount - 1 :=
      if_pos (by omega)
    simp only [hnode, Option.map_some, hless]
    split
    · exact ⟨_, rfl, h.removeNode hnodup hp ha hnode (by omega) rfl rfl rfl rfl⟩
    · have hset := h.setCount (update port p none) hnode (node.refCount - 1) (by omega) (by omega)
        (fun b hb => owners_drop_of_ne hnodup hp ha hb)
        (fun q _ => forall_update_none (p := fun q b => port q = some b ∨ b = a)
          (fun _ _ => Or.inl) q)
      have howned : (me.setRefCount a node (node.refCount - 1)).ownedBufs = me.ownedBufs :=
        ownedBufs_congr rfl hset.2
      refine ⟨me.setRefCount a node (node.refCount - 1), rfl, hset.1, ⟨fun b f hf => ?_, ?_⟩⟩
      · rwa [hset.2] at hf
      · refine ⟨[], (append_nil _).symm, ?_⟩
        rw [howned, nil_append]

/-- **Reference.** A port without a block refers to one of the list. -/
theorem Counted.addRef (hnone : port p = none) (ha : a ∈ me.mfNodes) :
    ∃ me', me.addRef a = some me' ∧ Counted ports me' (update port p (some a)) ∧
      me'.fmtAt = me.fmtAt ∧ me'.mfNodes = me.mfNodes ∧ me'.freedBufs = me.freedBufs := by
  obtain ⟨node, hnode⟩ := (h.live a).mp ha
  have hcount := h.count a node hnode
  have hself := owners_gain_self hnodup hp hnone a
  unfold TopoMfUtils.addRef
  simp only [hnode, Option.map_some]
  have hset := h.setCount (update port p (some a)) hnode (node.refCount + 1) (by omega) (by omega)
    (fun b hb => owners_gain_of_ne hnodup hp hnone hb)
    (fun q _ => forall_update_some (p := fun q b => port q = some b ∨ b = a)
      (fun _ _ => Or.inl) (Or.inr rfl) q)
  exact ⟨_, rfl, hset.1, hset.2, rfl, rfl⟩

/-- **Insertion.** A port without a block gets a new one, for a format that no block has. -/
theorem Counted.insertNode (hnone : port p = none) (hfresh : me.mem a = none)
    {mf : TopoMediaFmt maxCh} (hnew : ∀ b f, me.fmtAt b = some f → ¬ SameFmt f mf) :
    Counted ports (me.insertNode a mf) (update port p (some a)) ∧
      (me.insertNode a mf).fmtAt a = some mf ∧
      (∀ b, b ≠ a → (me.insertNode a mf).fmtAt b = me.fmtAt b) ∧
      (me.insertNode a mf).ownedBufs = me.ownedBufs ++ mf.rawBufs := by
  have hself : (me.insertNode a mf).mem a = some ⟨mf, 1⟩ := update_self ..
  have hother : ∀ b, b ≠ a → (me.insertNode a mf).mem b = me.mem b :=
    fun b hb => update_of_ne hb ..
  have hfmt : ∀ b, b ≠ a → (me.insertNode a mf).fmtAt b = me.fmtAt b := by
    intro b hb
    rw [fmtAt, fmtAt, hother b hb]
  have hout : a ∉ me.mfNodes := by
    intro hin
    obtain ⟨node, hnode⟩ := (h.live a).mp hin
    rw [hfresh] at hnode
    cases hnode
  have hzero : owners ports port a = 0 := by
    rw [owners_eq_zero_iff]
    intro q hq hqa
    exact hout (h.pointed q hq a hqa)
  have hone := owners_gain_self hnodup hp hnone a
  rw [hzero] at hone
  have hcount : ∀ b, b ≠ a → owners ports (update port p (some a)) b = owners ports port b :=
    fun b hb => owners_gain_of_ne hnodup hp hnone hb
  have hmem : ∀ b, b ∈ (me.insertNode a mf).mfNodes ↔ b ∈ me.mfNodes ∨ b = a := by
    intro b
    unfold TopoMfUtils.insertNode
    rw [mem_append, mem_singleton]
  refine ⟨⟨?_, fun b => ?_, h.count_update hone.symm hcount, fun b hb => ?_, ?_,
    fun b c f g hf hg hsame => ?_, fun q hq b hb => ?_⟩, fmtAt_of_mem hself, hfmt, ?_⟩
  · exact nodup_append.mpr ⟨h.nodup, nodup_singleton a, fun x hx y hy hxy =>
      hout (mem_singleton.mp hy ▸ hxy ▸ hx)⟩
  · rw [hmem, h.live b]
    by_cases hb : b = a
    · subst hb
      simp [hself]
    · rw [hother b hb]
      simp [hb]
  · by_cases hba : b = a
    · subst hba
      omega
    · rw [hcount b hba]
      exact h.used b (((hmem b).mp hb).resolve_right hba)
  · unfold TopoMfUtils.insertNode
    rw [h.numNodes, length_append, length_singleton]
    rfl
  · -- the new format is the format of no other block
    by_cases hb : b = a
    · subst hb
      rw [fmtAt_of_mem hself] at hf
      cases hf
      by_cases hc : c = b
      · exact hc.symm
      · rw [hfmt c hc] at hg
        exact absurd hsame.symm (hnew c g hg)
    · rw [hfmt b hb] at hf
      by_cases hc : c = a
      · subst hc
        rw [fmtAt_of_mem hself] at hg
        cases hg
        exact absurd hsame (hnew b f hf)
      · rw [hfmt c hc] at hg
        exact h.distinct b c f g hf hg hsame
  · rw [hmem]
    exact forall_update_some (p := fun q b => q ∈ ports → b ∈ me.mfNodes ∨ b = a)
      (fun q b hb hq => Or.inl (h.pointed q hq b hb)) (fun _ => Or.inr rfl) q b hb hq
  · change (me.mfNodes ++ [a]).flatMap _ = _
    rw [flatMap_append, flatMap_singleton, fmtAt_of_mem hself]
    congr 1
    refine flatMap_congr fun b hb => ?_
    rw [hfmt b (fun hba => hout (hba ▸ hb))]

end

/-- The walk along the list finds a block with the format, if there is one. -/
lemma findNode_spec (mf : TopoMediaFmt maxCh) {nodes : List Addr}
    (hlive : ∀ a ∈ nodes, ∃ node, me.mem a = some node) :
    (∃ a ∈ nodes, ∃ f, me.findNode mf nodes = some (some a) ∧ me.fmtAt a = some f ∧ SameFmt f mf) ∨
    (me.findNode mf nodes = some none ∧
      ∀ a ∈ nodes, ∀ f, me.fmtAt a = some f → ¬ SameFmt f mf) := by
  induction nodes with
  | nil => exact Or.inr ⟨rfl, fun a ha => absurd ha not_mem_nil⟩
  | cons a nodes ih =>
    obtain ⟨node, hnode⟩ := hlive a mem_cons_self
    have hfmt := fmtAt_of_mem hnode
    simp only [findNode, hnode, Option.bind_some]
    cases hchanged : node.mf.isMfChanged mf with
    | false =>
      exact Or.inl ⟨a, mem_cons_self, node.mf, rfl, hfmt, isMfChanged_eq_false_iff.mp hchanged⟩
    | true =>
      have hdiff : ¬ SameFmt node.mf mf := by
        intro hsame
        rw [isMfChanged_eq_false_iff.mpr hsame] at hchanged
        cases hchanged
      rcases ih (fun b hb => hlive b (mem_cons_of_mem a hb)) with
        ⟨b, hb, f, hfind, hf, hsame⟩ | ⟨hfind, hnone⟩
      · exact Or.inl ⟨b, mem_cons_of_mem a hb, f, hfind, hf, hsame⟩
      · refine Or.inr ⟨hfind, fun b hb f hf => ?_⟩
        rcases mem_cons.mp hb with rfl | hb
        · rw [hfmt] at hf
          cases hf
          exact hdiff
        · exact hnone b hb f hf

end TopoMfUtils

end AudioReach
