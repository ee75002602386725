import AudioReach.DataArrival.NoStale

/-!
# What the queries find

The queries find out less than their names say.  They look at the first marker of the list, so
behind an end-of-stream marker that does not flush they miss one that does, or a data flow gap.
Such a list is what the framework itself makes of a flushing marker when new data with another one
arrives.
-/

namespace AudioReach.DataArrival

/-! ## The queries -/

/-- The queries tell whether some node of a list is of the kind. -/
structure QueriesRight (list : List MdNode) : Prop where
  dfg : mdListHasDfg list = true ↔ ∃ node ∈ list, isDfg node
  flushingEos : mdListHasFlushingEos list = true ↔ ∃ node ∈ list, isFlushingEos node
  flushingEosOrDfg : mdListHasFlushingEosOrDfg list = true ↔
    ∃ node ∈ list, isFlushingEos node ∨ isDfg node

/-- The first marker decides: behind an end-of-stream marker that does not flush there is none
that flushes, if there is none before it, and no data flow gap either, if there was none before
it. -/
structure FirstDecides (list : List MdNode) : Prop where
  eos : ∀ pre node post, list = pre ++ node :: post → isEos node → ¬ isFlushingEos node →
    (∀ x ∈ pre, ¬ isEos x) → ∀ x ∈ post, ¬ isFlushingEos x
  eosOrDfg : ∀ pre node post, list = pre ++ node :: post → isEos node → ¬ isFlushingEos node →
    (∀ x ∈ pre, ¬ isEos x ∧ ¬ isDfg x) → ∀ x ∈ post, ¬ isFlushingEos x ∧ ¬ isDfg x

lemma isEos_of_flushing {node : MdNode} (h : isFlushingEos node) : isEos node := by
  obtain ⟨ptr, body, offset, tracking⟩ := node
  cases body with
  | eos flags cntrRefPtr => rfl
  | dfg => exact absurd h (by simp [isFlushingEos])
  | other id => exact absurd h (by simp [isFlushingEos])

lemma not_isDfg_of_isEos {node : MdNode} (h : isEos node) : ¬ isDfg node := by
  obtain ⟨ptr, body, offset, tracking⟩ := node
  cases body with
  | eos flags cntrRefPtr => simp [isDfg]
  | dfg => exact absurd h (by simp [isEos])
  | other id => exact absurd h (by simp [isEos])

/-- **A query that looks at the first node of an id** finds a kind of that id exactly if no first
node of the id that is not of the kind is in front of one that is. -/
lemma first_match_iff (hasId isKind : MdNode → Bool) (hkind : ∀ node, isKind node → hasId node)
    (list : List MdNode) :
    ((list.find? hasId).any isKind = true ↔ ∃ node ∈ list, isKind node) ↔
      ∀ pre node post, list = pre ++ node :: post → hasId node → ¬ isKind node →
        (∀ x ∈ pre, ¬ hasId x) → ∀ x ∈ post, ¬ isKind x := by
  cases hfind : list.find? hasId with
  | none =>
    rw [List.find?_eq_none] at hfind
    constructor
    · intro _ pre node post hlist hid
      exact absurd hid (hfind node (by simp [hlist]))
    · intro _
      simp only [Option.any_none, Bool.false_eq_true, false_iff]
      rintro ⟨node, hmem, hk⟩
      exact hfind node hmem (hkind node hk)
  | some first =>
    obtain ⟨hid, pre, post, hlist, hpre⟩ := List.find?_eq_some_iff_append.mp hfind
    have hpre : ∀ x ∈ pre, ¬ hasId x := fun x hx => by simpa using hpre x hx
    constructor
    · intro hright pre' node post' hlist' hid' hnot hpre' x hx hk
      have hsame : first = node := by
        have hfind' : list.find? hasId = some node :=
          List.find?_eq_some_iff_append.mpr ⟨hid', pre', post', hlist',
            fun y hy => by simpa using hpre' y hy⟩
        exact Option.some.inj (hfind.symm.trans hfind')
      rw [hsame] at hright
      exact hnot (hright.mpr ⟨x, by simp [hlist', hx], hk⟩)
    · intro hdecides
      constructor
      · exact fun hk => ⟨first, by simp [hlist], hk⟩
      · rintro ⟨node, hmem, hk⟩
        by_contra hnot
        rw [hlist, List.mem_append, List.mem_cons] at hmem
        rcases hmem with hmem | rfl | hmem
        · exact hpre node hmem (hkind node hk)
        · exact hnot hk
        · exact hdecides pre first post hlist hid hnot hpre node hmem hk

/-- The query looks at the first EOS only. -/
lemma mdListHasFlushingEos_eq (list : List MdNode) :
    mdListHasFlushingEos list = (list.find? isEos).any isFlushingEos := by
  rw [mdListHasFlushingEos, findMdById]
  cases list.find? isEos <;> rfl

/-- The query looks at the first EOS or DFG only. -/
lemma mdListHasFlushingEosOrDfg_eq (list : List MdNode) :
    mdListHasFlushingEosOrDfg list = (list.find? fun node => isDfg node || isEos node).any
      fun node => isFlushingEos node || isDfg node := by
  rw [mdListHasFlushingEosOrDfg, findMdById]
  cases hfind : list.find? fun node => isDfg node || isEos node with
  | none => rfl
  | some node =>
    have hid := List.find?_some hfind
    cases he : isEos node with
    | true => simp [he, not_isDfg_of_isEos he]
    | false =>
      rw [he, Bool.or_false] at hid
      simp [he, hid]

/-- **When the queries are right.** -/
lemma queriesRight_iff (list : List MdNode) : QueriesRight list ↔ FirstDecides list := by
  have hflush := first_match_iff isEos isFlushingEos (fun _ => isEos_of_flushing) list
  have hboth := first_match_iff (fun node => isDfg node || isEos node)
    (fun node => isFlushingEos node || isDfg node) (fun node hk => by
      rcases Bool.or_eq_true_iff.mp hk with hk | hk
      · exact Bool.or_eq_true_iff.mpr (.inr (isEos_of_flushing hk))
      · exact Bool.or_eq_true_iff.mpr (.inl hk)) list
  rw [← mdListHasFlushingEos_eq] at hflush
  rw [← mdListHasFlushingEosOrDfg_eq] at hboth
  simp only [Bool.or_eq_true, not_or] at hboth
  constructor
  · rintro ⟨-, heos, hor⟩
    refine ⟨hflush.mp heos, fun pre node post hlist hid hnot hpre => ?_⟩
    exact hboth.mp hor pre node post hlist (.inr hid) ⟨hnot, not_isDfg_of_isEos hid⟩
      fun x hx => ⟨(hpre x hx).2, (hpre x hx).1⟩
  · rintro ⟨heos, hor⟩
    refine ⟨?_, hflush.mpr heos, hboth.mpr fun pre node post hlist hid hnot hpre => ?_⟩
    · simp [mdListHasDfg, findMdById]
    · exact hor pre node post hlist (hid.resolve_left hnot.2) hnot.1
        fun x hx => ⟨(hpre x hx).2, (hpre x hx).1⟩

/-! ## The theorem -/

/-- **No stale marker survives new data**, and the queries tell what is in a list exactly if its
first marker decides. -/
theorem newData_right_iff (a : Arrival) (list : List MdNode) :
    (a.NoStaleMarker ∧ QueriesRight list) ↔ FirstDecides list := by
  rw [queriesRight_iff]
  exact ⟨fun h => h.2, fun h => ⟨a.noStaleMarker, h⟩⟩

/-- An end-of-stream marker without a cargo. -/
def eosNode (flushing : Bool) : MdNode := ⟨0, .eos ⟨flushing, false⟩ none, 0, none⟩

/-- Eight bytes of two channels arrive behind a flushing marker. -/
def behindFlushing : Arrival where
  link :=
    { module := ⟨[eosNode true], 0, true, false, 0⟩
      next := ⟨[eosNode true], ⟨1, 2, 16, 48000⟩, true, false⟩
      prev := ⟨[], ⟨1, 2, 16, 48000⟩, false, false⟩ }
  bytesToCopy := 8
  bytesAlreadyInPrev := 8
  bytesAlreadyInNext := 0
  bytesToCopy_pos := by decide
  fits := by decide

theorem newData_right_iff_behindFlushing :
    (behindFlushing.NoStaleMarker ∧ QueriesRight [eosNode true, eosNode false]) ↔
      FirstDecides [eosNode true, eosNode false] :=
  newData_right_iff behindFlushing [eosNode true, eosNode false]

/-- **A flushing marker behind one that does not flush** is missed by both queries. -/
theorem flushing_behind_nonFlushing : ¬ ∀ list : List MdNode,
      (mdListHasFlushingEos list = true ↔ ∃ node ∈ list, isFlushingEos node) ∧
      (mdListHasFlushingEosOrDfg list = true ↔ ∃ node ∈ list, isFlushingEos node ∨ isDfg node) := by
  intro h
  have hright := (h [eosNode false, eosNode true]).1
  exact absurd (hright.mpr ⟨eosNode true, by simp, rfl⟩) (by decide)

end AudioReach.DataArrival
