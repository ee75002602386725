import AudioReach.MultiClient.Validate

/-!
# Closing sub-graphs that are not there

`apm_gm_cmd_validate_sg_list` lets a GRAPH_CLOSE go on when a listed sub-graph does not exist.
Each test that would refuse such an id makes an exception for the close, but two do not: the
result of the last lookup is what the function returns, and the multi-client check fails on
the null pointer.  So without the extension a close succeeds only if the last listed sub-graph
exists, and with it only if all do.
-/

namespace AudioReach

open AudioReach.Library
open List

/-! ## The function in both builds -/

/-- The multi-client extension as the function finds it: `none` if there is no function table,
else the build flag of the client comparison and the sender of the command. -/
abbrev MultiClientVtbl := Option (Bool × Client)

namespace GmCmdState

/-- The loop of `apm_gm_cmd_validate_sg_list` over the remaining ids with the check after it,
when there is no multi-client extension.  `seq_entry_reqd` keeps its initial value, and
`found_sg_node` too. -/
def validateSgLoopAlone (op : GmOpcode) :
    List SgEntry → ArResult → GmCmdState → ArResult × GmCmdState
  | [], result, st =>
    if st.regSgList.length = 0 ∧ op = .close then (.efailed, st) else (result, st)
  | entry :: entries, _, st =>
    let node := st.info.getSubGraphNode entry.subGraphId
    let result := if node = none then ArResult.efailed else .eok
    if result ≠ .eok ∧ op ≠ .close then (result, st)
    else if node = none then validateSgLoopAlone op entries result st
    else
      match st.searchAndAddReg entry with
      | none => (.enomemory, st)
      | some listed => validateSgLoopAlone op entries .eok listed

/-- `apm_gm_cmd_validate_sg_list` with or without the extension; `none` is a null list
pointer. -/
def gmCmdValidateSgListWith (ext : MultiClientVtbl) (op : GmOpcode) (st : GmCmdState)
    (ids : Option (List SgEntry)) : ArResult × GmCmdState :=
  match ext with
  | some (sim, client) => gmCmdValidateSgList sim client op st ids
  | none =>
    match ids with
    | none => (.efailed, st)
    | some [] => (.efailed, st)
    | some (entry :: entries) => validateSgLoopAlone op (entry :: entries) .eok st

end GmCmdState

open GmCmdState

/-! ## The tolerant close -/

/-- The listed sub-graph exists. -/
def Exists (st : GmCmdState) (entry : SgEntry) : Prop :=
  (st.info.getSubGraphNode entry.subGraphId).isSome = true

instance (st : GmCmdState) (entry : SgEntry) : Decidable (Exists st entry) :=
  inferInstanceAs (Decidable (_ = _))

/-- The sub-graph must go to the sequencer: without the extension any, else unless another
client keeps it. -/
def MustGo (ext : MultiClientVtbl) (sg : SubGraph) : Prop :=
  ∀ sim client, ext = some (sim, client) → ToSequencer sim client .close sg

/-- The client opened the listed sub-graphs that exist. -/
def OpenedListed (ext : MultiClientVtbl) (st : GmCmdState) (entries : List SgEntry) : Prop :=
  ∀ sim client, ext = some (sim, client) → ∀ entry ∈ entries, ∀ sg,
    st.info.getSubGraphNode entry.subGraphId = some sg →
      (sg.clients.getClientNode sim client).isSome = true

/-- A close succeeds if and only if one of the listed sub-graphs exists, and then puts on the
process list, once each, those that exist and must go to the sequencer. -/
structure TolerantClose (ext : MultiClientVtbl) (st₀ : GmCmdState) (entries : List SgEntry)
    (out : ArResult × GmCmdState) : Prop where
  /-- Ids of sub-graphs that do not exist are ignored. -/
  succeeds : out.1 = .eok ↔ ∃ entry ∈ entries, Exists st₀ entry
  nodup : out.1 = .eok → out.2.regSgList.Nodup
  listed : out.1 = .eok → ∀ id, id ∈ out.2.regSgList ↔ ∃ entry ∈ entries, entry.subGraphId = id ∧
      ∃ sg, st₀.info.getSubGraphNode id = some sg ∧ MustGo ext sg

/-- There is a list node for each sub-graph that exists, where it is listed first. -/
def NodesFound (st : GmCmdState) (entries : List SgEntry) : Prop :=
  ∀ passed entry rest, entries = passed ++ entry :: rest → Exists st entry →
    entry.subGraphId ∈ passed.map SgEntry.subGraphId ∨ entry.nodeAllocated = true

/-- The close goes through.  Without the extension the last listed sub-graph exists and the
list nodes are there; with it every entry is admitted. -/
def ClosesAll (ext : MultiClientVtbl) (st : GmCmdState) (entries : List SgEntry) : Prop :=
  match ext with
  | none => (∀ entry ∈ entries.getLast?, Exists st entry) ∧ NodesFound st entries
  | some (sim, client) => AllAdmitted sim client .close st entries

/-! ## Without the extension -/

section

variable {st₀ st : GmCmdState} {entry : SgEntry} {passed : List SgEntry}

/-- The process list after the entries `passed`. -/
structure Gathered (st₀ : GmCmdState) (passed : List SgEntry) (st : GmCmdState) : Prop where
  info : st.info = st₀.info
  nodup : st.regSgList.Nodup
  listed : ∀ id, id ∈ st.regSgList ↔ ∃ entry ∈ passed, entry.subGraphId = id ∧ Exists st₀ entry

lemma nodup_searchAndAddReg {listed : GmCmdState} (h : st.regSgList.Nodup)
    (hadd : st.searchAndAddReg entry = some listed) : listed.regSgList.Nodup := by
  unfold searchAndAddReg at hadd
  split_ifs at hadd with hin halloc
  · obtain rfl := Option.some.inj hadd
    exact h
  · obtain rfl := Option.some.inj hadd
    refine nodup_append.mpr ⟨h, pairwise_singleton _ _, ?_⟩
    rintro a ha b hb rfl
    rw [mem_singleton.mp hb] at ha
    exact hin ha

section

variable (h : Gathered st₀ passed st)
include h

lemma Gathered.skip (hmissing : ¬ Exists st₀ entry) : Gathered st₀ (passed ++ [entry]) st := by
  refine ⟨h.info, h.nodup, fun id => ?_⟩
  rw [h.listed]
  constructor
  · rintro ⟨e, he, hid, hex⟩
    exact ⟨e, mem_append_left _ he, hid, hex⟩
  · rintro ⟨e, he, hid, hex⟩
    rcases mem_append.mp he with he | he
    · exact ⟨e, he, hid, hex⟩
    · rw [mem_singleton.mp he] at hex
      exact absurd hex hmissing

/-- A sub-graph that exists is listed, if it was before or a list node is there. -/
lemma Gathered.add (hexists : Exists st₀ entry)
    (hnode : entry.subGraphId ∈ passed.map SgEntry.subGraphId ∨ entry.nodeAllocated = true) :
    ∃ listed, st.searchAndAddReg entry = some listed ∧ Gathered st₀ (passed ++ [entry]) listed := by
  have hmem : ∀ id, (id ∈ st.regSgList ∨ id = entry.subGraphId) ↔
      ∃ e ∈ passed ++ [entry], e.subGraphId = id ∧ Exists st₀ e := by
    intro id
    rw [h.listed]
    constructor
    · rintro (⟨e, he, hid, hex⟩ | rfl)
      · exact ⟨e, mem_append_left _ he, hid, hex⟩
      · exact ⟨entry, by simp, rfl, hexists⟩
    · rintro ⟨e, he, hid, hex⟩
      rcases mem_append.mp he with he | he
      · exact .inl ⟨e, he, hid, hex⟩
      · exact .inr (by rw [← hid, mem_singleton.mp he])
  by_cases hin : entry.subGraphId ∈ st.regSgList
  · have hold : st.searchAndAddReg entry = some st := by
      rw [searchAndAddReg, if_pos hin]
    refine ⟨st, hold, h.info, h.nodup, fun id => ?_⟩
    rw [← hmem]
    exact ⟨.inl, fun hor => hor.elim (fun hold => hold) fun heq => heq ▸ hin⟩
  · have halloc : entry.nodeAllocated = true := by
      refine hnode.resolve_left fun hseen => hin ?_
      obtain ⟨e, he, hid⟩ := mem_map.mp hseen
      refine (h.listed _).mpr ⟨e, he, hid, ?_⟩
      unfold Exists
      rw [hid]
      exact hexists
    have hnew : st.searchAndAddReg entry =
        some { st with regSgList := st.regSgList ++ [entry.subGraphId] } := by
      rw [searchAndAddReg, if_neg hin, if_pos halloc]
    refine ⟨_, hnew, h.info, nodup_searchAndAddReg h.nodup hnew, fun id => ?_⟩
    rw [← hmem]
    simp

lemma Gathered.add_none
    (hnode : ¬ (entry.subGraphId ∈ passed.map SgEntry.subGraphId ∨ entry.nodeAllocated = true)) :
    st.searchAndAddReg entry = none := by
  push Not at hnode
  obtain ⟨hfirst, halloc⟩ := hnode
  have hin : entry.subGraphId ∉ st.regSgList := by
    intro hin
    obtain ⟨e, he, hid, -⟩ := (h.listed _).mp hin
    exact hfirst (mem_map.mpr ⟨e, he, hid⟩)
  rw [searchAndAddReg, if_neg hin, if_neg halloc]

end

lemma NodesFound.of_append {rest : List SgEntry} (h : NodesFound st (passed ++ rest)) :
    NodesFound st passed := by
  intro before e after hsplit
  refine h before e (after ++ rest) ?_
  rw [hsplit, append_assoc, cons_append]

/-- **The loop.**  It goes over the entries with the result of the last lookup. -/
lemma validateSgLoopAlone_append (hreg : st₀.regSgList = []) (passed : List SgEntry)
    (h : NodesFound st₀ passed) :
    ∃ result st, (∀ rest, validateSgLoopAlone .close (passed ++ rest) .eok st₀ =
        validateSgLoopAlone .close rest result st) ∧
      Gathered st₀ passed st ∧
      (result = .eok ↔ ∀ entry ∈ passed.getLast?, Exists st₀ entry) := by
  induction passed using reverseRecOn with
  | nil =>
    refine ⟨.eok, st₀, fun rest => rfl, ⟨rfl, by simp [hreg], by simp [hreg]⟩, by simp⟩
  | append_singleton passed entry ih =>
    obtain ⟨result, st, hloop, hgathered, -⟩ := ih h.of_append
    have hlast : (∀ e ∈ (passed ++ [entry]).getLast?, Exists st₀ e) ↔ Exists st₀ entry := by
      simp
    by_cases hexists : Exists st₀ entry
    · obtain ⟨listed, hadd, hgathered'⟩ := hgathered.add hexists (h passed entry [] rfl hexists)
      refine ⟨.eok, listed, fun rest => ?_, hgathered', iff_of_true rfl (hlast.mpr hexists)⟩
      have hsome : st.info.getSubGraphNode entry.subGraphId ≠ none := by
        rw [hgathered.info]
        exact Option.isSome_iff_ne_none.mp hexists
      rw [append_assoc, hloop, singleton_append, validateSgLoopAlone]
      simp only [if_neg hsome, ne_eq, not_true_eq_false, false_and, if_false, hadd]
    · refine ⟨.efailed, st, fun rest => ?_, hgathered.skip hexists,
        iff_of_false (by decide) fun hl => hexists (hlast.mp hl)⟩
      have hnone : st.info.getSubGraphNode entry.subGraphId = none := by
        rw [hgathered.info]
        exact Option.not_isSome_iff_eq_none.mp hexists
      rw [append_assoc, hloop, singleton_append, validateSgLoopAlone]
      simp only [if_pos hnone, ne_eq, not_true_eq_false, and_false, if_false]

/-- **Without the extension.** -/
lemma tolerantClose_alone_iff (hreg : st₀.regSgList = []) {entries : List SgEntry}
    (hne : entries ≠ []) :
    TolerantClose none st₀ entries (validateSgLoopAlone .close entries .eok st₀) ↔
      (∀ entry ∈ entries, ¬ Exists st₀ entry) ∨ ClosesAll none st₀ entries := by
  have hmust : ∀ sg, MustGo none sg := fun sg sim client h => by cases h
  by_cases hnodes : NodesFound st₀ entries
  · obtain ⟨result, st, hloop, hgathered, hlast⟩ := validateSgLoopAlone_append hreg entries hnodes
    have hend := hloop []
    rw [append_nil, validateSgLoopAlone] at hend
    by_cases hsome : ∃ entry ∈ entries, Exists st₀ entry
    · obtain ⟨entry, hentry, hexists⟩ := hsome
      have hmem : entry.subGraphId ∈ st.regSgList :=
        (hgathered.listed _).mpr ⟨entry, hentry, rfl, hexists⟩
      rw [if_neg fun h => (length_pos_of_mem hmem).ne' h.1] at hend
      rw [hend]
      constructor
      · intro h
        have hok : result = .eok := h.succeeds.mpr ⟨entry, hentry, hexists⟩
        exact .inr ⟨hlast.mp hok, hnodes⟩
      · intro h
        obtain ⟨hall, -⟩ := h.resolve_left fun hno => hno entry hentry hexists
        refine ⟨iff_of_true (hlast.mpr hall) ⟨entry, hentry, hexists⟩, fun _ => hgathered.nodup,
          fun _ id => ?_⟩
        rw [hgathered.listed]
        refine exists_congr fun e => and_congr_right fun _ => and_congr_right fun hid => ?_
        rw [Exists, hid, Option.isSome_iff_exists]
        exact exists_congr fun sg => (and_iff_left (hmust sg)).symm
    · have hempty : st.regSgList = [] := by
        refine eq_nil_iff_forall_not_mem.mpr fun id hid => hsome ?_
        obtain ⟨e, he, -, hex⟩ := (hgathered.listed id).mp hid
        exact ⟨e, he, hex⟩
      rw [if_pos ⟨by rw [hempty]; rfl, rfl⟩] at hend
      rw [hend]
      refine iff_of_true ⟨iff_of_false (by simp) hsome, by simp, by simp⟩ (.inl ?_)
      exact fun e he hex => hsome ⟨e, he, hex⟩
  · obtain ⟨passed, entry, rest, rfl, hpassed, hnot⟩ := exists_first_split entries hnodes
    obtain ⟨result, st, hloop, hgathered, -⟩ := validateSgLoopAlone_append hreg passed hpassed
    obtain ⟨hexists, hnot⟩ := Classical.not_imp.mp hnot
    have hsome : st.info.getSubGraphNode entry.subGraphId ≠ none := by
      rw [hgathered.info]
      exact Option.isSome_iff_ne_none.mp hexists
    have hend : validateSgLoopAlone .close (passed ++ entry :: rest) .eok st₀ =
        (.enomemory, st) := by
      rw [hloop, validateSgLoopAlone]
      simp only [if_neg hsome, ne_eq, not_true_eq_false, false_and, if_false,
        hgathered.add_none hnot]
    rw [hend]
    refine iff_of_false (fun h => ?_) ?_
    · have hok := h.succeeds.mpr ⟨entry, by simp, hexists⟩
      cases hok
    · rintro (hno | ⟨-, hall⟩)
      · exact hno entry (by simp) hexists
      · exact hnodes hall

end

/-! ## With the extension -/

section

variable {sim : Bool} {client : Client} {st₀ st : GmCmdState}

/-- No sub-graph is put on the process list twice. -/
lemma nodup_validateSgLoop (op : GmOpcode) (entries : List SgEntry) (found : Bool)
    (result : ArResult) (h : st.regSgList.Nodup) :
    (validateSgLoop sim client op entries found result st).2.regSgList.Nodup := by
  induction entries generalizing found result st with
  | nil =>
    rw [validateSgLoop]
    split_ifs <;> exact h
  | cons entry entries ih =>
    rw [validateSgLoop]
    by_cases hstop : (if st.info.getSubGraphNode entry.subGraphId = none then ArResult.efailed
        else .eok) ≠ .eok ∧ op ≠ .close
    · rw [if_pos hstop]
      exact h
    rw [if_neg hstop]
    cases checkSgStateAndUpdateSendToSeqncr sim client op
        (st.info.getSubGraphNode entry.subGraphId) with
    | error e => exact h
    | ok check =>
      have hchecked : (st.applyCheck sim client check).regSgList.Nodup := by
        rw [applyCheck_regSgList]
        exact h
      dsimp only
      split_ifs with hnone hseq
      · exact ih _ _ hchecked
      · cases hadd : (st.applyCheck sim client check).searchAndAddReg entry with
        | none => exact hchecked
        | some listed => exact ih _ _ (nodup_searchAndAddReg hchecked hadd)
      · exact ih _ _ hchecked

/-- **With the extension.** -/
lemma tolerantClose_multiClient_iff (hreg : st₀.regSgList = [])
    (hdistinct : ∀ sg ∈ st₀.info.subGraphs,
      AtMostOne (checkClientAndDomain sim client) sg.clients.contexts)
    {entries : List SgEntry} (hne : entries ≠ []) :
    TolerantClose (some (sim, client)) st₀ entries
        (validateSgLoop sim client .close entries false .eok st₀) ↔
      (∀ entry ∈ entries, ¬ Exists st₀ entry) ∨ ClosesAll (some (sim, client)) st₀ entries := by
  have hmust : ∀ sg, MustGo (some (sim, client)) sg ↔ ToSequencer sim client .close sg := by
    intro sg
    refine ⟨fun h => h sim client rfl, ?_⟩
    rintro h _ _ ⟨⟩
    exact h
  by_cases hall : AllAdmitted sim client .close st₀ entries
  · obtain ⟨found, result, st, hloop, -, hregistered, hdone, -⟩ := loop_of_allAdmitted entries hall
    obtain ⟨rfl, hany⟩ := hdone hne
    have hend := hloop []
    rw [append_nil, validateSgLoop] at hend
    have hgoes : ¬ (st.regSgList.length = 0 ∧ GmOpcode.close = .close ∧ found = false) := by
      rintro ⟨hlength, -, hfound⟩
      rcases hany with hany | hany
      · rw [hany] at hfound
        cases hfound
      · exact hany hlength
    rw [if_neg hgoes] at hend
    have hnodup : st.regSgList.Nodup := by
      have hnil : st₀.regSgList.Nodup := hreg ▸ nodup_nil
      have h := @nodup_validateSgLoop sim client st₀ .close entries false .eok hnil
      rwa [hend] at h
    obtain ⟨entry, others, rfl⟩ := exists_cons_of_ne_nil hne
    obtain ⟨sg, hget, -⟩ := (hall [] entry others rfl).1
    rw [hend]
    refine iff_of_true ⟨iff_of_true rfl ⟨entry, by simp, Option.isSome_of_eq_some hget⟩,
      fun _ => hnodup, fun _ id => ?_⟩ (.inr hall)
    rw [hregistered, hreg]
    simp only [not_mem_nil, false_or, hmust]
    constructor
    · rintro ⟨hid, hex⟩
      obtain ⟨e, he, heq⟩ := mem_map.mp hid
      exact ⟨e, he, heq, hex⟩
    · rintro ⟨e, he, heq, hex⟩
      exact ⟨mem_map.mpr ⟨e, he, heq⟩, hex⟩
  · obtain ⟨passed, entry, rest, rfl, hpassed, hnot⟩ := exists_first_split entries hall
    obtain ⟨found, result, st, hloop, hshift, hregistered, -, -⟩ :=
      loop_of_allAdmitted passed hpassed
    obtain ⟨r, st', hlast, hr, -, -⟩ :=
      loop_of_not_admits hshift hregistered hdistinct hnot rest found result
    rw [hloop, hlast]
    constructor
    · intro h
      exact .inl fun e he hex => hr (h.succeeds.mpr ⟨e, he, hex⟩)
    · intro h
      have hno := h.resolve_right hall
      refine ⟨iff_of_false hr ?_, fun hok => absurd hok hr, fun hok => absurd hok hr⟩
      rintro ⟨e, he, hex⟩
      exact hno e he hex

end

/-- **A close with missing sub-graphs.**  `apm_gm_cmd_validate_sg_list` treats a GRAPH_CLOSE as
it should exactly when none of the listed sub-graphs exists, or the last one exists (without
the multi-client extension), or every entry is admitted (with it). -/
theorem gmCmdValidateSgList_tolerates_iff (ext : MultiClientVtbl) (st₀ : GmCmdState)
    (hreg : st₀.regSgList = [])
    (hdistinct : ∀ sim client, ext = some (sim, client) → ∀ sg ∈ st₀.info.subGraphs,
      AtMostOne (checkClientAndDomain sim client) sg.clients.contexts)
    (entries : List SgEntry) :
    TolerantClose ext st₀ entries (gmCmdValidateSgListWith ext .close st₀ (some entries)) ↔
      (∀ entry ∈ entries, ¬ Exists st₀ entry) ∨ ClosesAll ext st₀ entries := by
  cases entries with
  | nil =>
    have hfails : (gmCmdValidateSgListWith ext .close st₀ (some [])).1 ≠ .eok := by
      rcases ext with _ | ⟨sim, client⟩ <;> exact fun h => by cases h
    refine iff_of_true ⟨iff_of_false hfails (by simp), fun h => absurd h hfails,
      fun h => absurd h hfails⟩ (.inl (by simp))
  | cons entry entries =>
    rcases ext with _ | ⟨sim, client⟩
    · exact tolerantClose_alone_iff hreg (cons_ne_nil entry entries)
    · exact tolerantClose_multiClient_iff hreg (hdistinct sim client rfl)
        (cons_ne_nil entry entries)

theorem gmCmdValidateSgList_tolerates_iff_missingFirst :
    TolerantClose (some (false, ⟨1, 1⟩)) oneSubGraph [⟨0xB2, true⟩, ⟨0xA1, true⟩]
        (gmCmdValidateSgListWith (some (false, ⟨1, 1⟩)) .close oneSubGraph
          (some [⟨0xB2, true⟩, ⟨0xA1, true⟩])) ↔
      (∀ entry ∈ [⟨0xB2, true⟩, ⟨0xA1, true⟩], ¬ Exists oneSubGraph entry) ∨
        ClosesAll (some (false, ⟨1, 1⟩)) oneSubGraph [⟨0xB2, true⟩, ⟨0xA1, true⟩] := by
  refine gmCmdValidateSgList_tolerates_iff _ oneSubGraph rfl ?_ _
  intro sim client _ sg hsg
  obtain rfl := mem_singleton.mp hsg
  exact pairwise_singleton _ _

/-- Without the extension a close of the sub-graph and of one that does not exist, in this
order, is refused, although it is accepted the other way around. -/
theorem not_gmCmdValidateSgList_tolerates :
    ¬ ∀ (ext : MultiClientVtbl) (st₀ : GmCmdState) (entries : List SgEntry),
      st₀.regSgList = [] → (∀ entry ∈ entries, entry.nodeAllocated = true) →
      OpenedListed ext st₀ entries →
      TolerantClose ext st₀ entries (gmCmdValidateSgListWith ext .close st₀ (some entries)) := by
  intro h
  have hclose := h none oneSubGraph [⟨0xA1, true⟩, ⟨0xB2, true⟩] rfl (by decide)
    (fun _ _ hext => by cases hext)
  have hok := hclose.succeeds.mpr ⟨⟨0xA1, true⟩, by simp, by decide⟩
  revert hok
  decide

end AudioReach
