import Mathlib.Data.Set.Finite.Lemmas

/-!
# Sorting a graph whose edges end in ports

The vertices of a `PortGraph` have input ports; a port may be fed from outside, or be linked to
an output port of another vertex.  The sort lists a vertex when all its input ports are marked: ports
fed from outside are marked from the start, a linked port when the vertex upstream has been
listed.  Vertices that are listed wait until their output ports have been followed.

`Sorting` is the invariant that relates the marks, the vertices that are done, those that wait
and the output ports followed so far.  Its rules are the steps of the sort: a waiting vertex is
done, a port is followed, and the downstream port is marked.  At the end nothing waits, and the
vertices listed are those that no cycle and no open port reaches (`Sorting.mem_iff_free`).
-/

namespace AudioReach.Library

open List

/-- A graph whose edges lead from output ports to input ports. -/
structure PortGraph (V P O : Type*) where
  verts : List V
  ins : V → List P
  outs : V → List O
  outVert : O → V
  up : P → Option O
  ext : P → Prop
  /-- An output port upstream belongs to a vertex of the graph. -/
  up_mem : ∀ v ∈ verts, ∀ p ∈ ins v, ∀ o, up p = some o → outVert o ∈ verts ∧ o ∈ outs (outVert o)
  ext_up : ∀ v ∈ verts, ∀ p ∈ ins v, ext p → up p = none
  ins_inj : ∀ v ∈ verts, ∀ u ∈ verts, ∀ p, p ∈ ins v → p ∈ ins u → v = u
  up_inj : ∀ v ∈ verts, ∀ u ∈ verts, ∀ p ∈ ins v, ∀ q ∈ ins u, ∀ o,
    up p = some o → up q = some o → p = q

namespace PortGraph

variable {V P O : Type*} (G : PortGraph V P O)

/-- An edge of the graph: an input port of `v` is linked to an output port of `u`. -/
def Link (u v : V) : Prop :=
  v ∈ G.verts ∧ ∃ p ∈ G.ins v, ∃ o, G.up p = some o ∧ G.outVert o = u

/-- The vertex has an input port that is neither fed from outside nor linked. -/
def IsOpen (v : V) : Prop :=
  ∃ p ∈ G.ins v, ¬ G.ext p ∧ G.up p = none

/-- A cycle reaches the vertex. -/
def OnCyclePath (v : V) : Prop :=
  ∃ c, Relation.TransGen G.Link c c ∧ Relation.ReflTransGen G.Link c v

/-- Neither a cycle nor an open port reaches the vertex. -/
def Free (v : V) : Prop :=
  ¬ G.OnCyclePath v ∧ ∀ u, Relation.ReflTransGen G.Link u v → ¬ G.IsOpen u

variable {G}

lemma Link.mem_left {u v : V} (h : G.Link u v) : u ∈ G.verts := by
  obtain ⟨hv, p, hp, o, hup, rfl⟩ := h
  exact (G.up_mem v hv p hp o hup).1

lemma free_of_links {v : V} (hopen : ¬ G.IsOpen v) (h : ∀ u, G.Link u v → G.Free u) : G.Free v := by
  constructor
  · rintro ⟨c, hcycle, hpath⟩
    rcases Relation.ReflTransGen.cases_tail hpath with rfl | ⟨u, hpath, hlink⟩
    · obtain ⟨u, hpath, hlink⟩ := Relation.TransGen.tail'_iff.mp hcycle
      exact (h u hlink).1 ⟨v, hcycle, hpath⟩
    · exact (h u hlink).1 ⟨c, hcycle, hpath⟩
  · intro x hpath
    rcases Relation.ReflTransGen.cases_tail hpath with rfl | ⟨u, hpath, hlink⟩
    · exact hopen
    · exact (h u hlink).2 x hpath

lemma free_of_ext {v : V} (hv : v ∈ G.verts) (hext : ∀ p ∈ G.ins v, G.ext p) : G.Free v := by
  refine free_of_links ?_ ?_
  · rintro ⟨p, hp, hnot, -⟩
    exact hnot (hext p hp)
  · rintro u ⟨-, p, hp, o, hup, -⟩
    rw [G.ext_up v hv p hp (hext p hp)] at hup
    cases hup

/-- Among the vertices outside of `L`, if each one that has no open port has an edge from another
one, then a cycle or an open port reaches all of them. -/
lemma not_free_of_stuck {L : V → Prop}
    (hstuck : ∀ v ∈ G.verts, ¬ L v → G.IsOpen v ∨ ∃ u, G.Link u v ∧ ¬ L u) {v : V}
    (hv : v ∈ G.verts) (hL : ¬ L v) : ¬ G.Free v := by
  rintro ⟨hcycle, hopen⟩
  -- the vertices outside of `L` that lead to `v`
  let S : Set V := {u | u ∈ G.verts ∧ ¬ L u ∧ Relation.ReflTransGen G.Link u v}
  have hfinite : Finite S :=
    Set.Finite.subset (finite_toSet G.verts) (fun u hu => hu.1)
  let r : S → S → Prop := fun a b => Relation.TransGen G.Link a b
  have hirrefl : Std.Irrefl r := ⟨fun a ha => hcycle ⟨a, ha, a.2.2.2⟩⟩
  have hwf : WellFounded r := Finite.wellFounded_of_trans_of_irrefl r
  obtain ⟨a, -, hmin⟩ := hwf.has_min Set.univ ⟨⟨v, hv, hL, .refl⟩, trivial⟩
  obtain ⟨ha, haL, hpath⟩ := a.2
  rcases hstuck a ha haL with hop | ⟨u, hlink, huL⟩
  · exact hopen a hpath hop
  · exact hmin ⟨u, hlink.mem_left, huL, hpath.head hlink⟩ trivial (.single hlink)

end PortGraph

open PortGraph

variable {V P O : Type*} {G : PortGraph V P O}

/-! ## Finding the first vertices -/

/-- Some of the ports that are fed from outside were looked at.  The vertices in `work` have ports
and are only fed from outside; all their ports were marked when the first one was looked at. -/
structure Seeding (G : PortGraph V P O) (mark : P → Bool) (work : List V) : Prop where
  ext_of_mark : ∀ v ∈ G.verts, ∀ p ∈ G.ins v, mark p = true → G.ext p
  mem_iff : ∀ v, v ∈ work ↔ v ∈ G.verts ∧ G.ins v ≠ [] ∧ ∀ p ∈ G.ins v, mark p = true
  nodup : work.Nodup
  /-- The ports of a vertex that is only fed from outside are marked together. -/
  together : ∀ v ∈ G.verts, (∀ p ∈ G.ins v, G.ext p) → ∀ q ∈ G.ins v, mark q = true →
    ∀ p ∈ G.ins v, mark p = true

namespace Seeding

variable {mark mark' : P → Bool} {work : List V} {v : V} {p : P}

lemma start (hmark : ∀ v ∈ G.verts, ∀ p ∈ G.ins v, mark p = false) : Seeding G mark [] := by
  refine ⟨?_, ?_, nodup_nil, ?_⟩
  · intro v hv p hp h
    rw [hmark v hv p hp] at h
    cases h
  · intro v
    refine iff_of_false (by simp) ?_
    rintro ⟨hv, hne, hall⟩
    obtain ⟨p, hp⟩ := exists_mem_of_ne_nil _ hne
    have := hall p hp
    rw [hmark v hv p hp] at this
    cases this
  · intro v hv hext q hq h
    rw [hmark v hv q hq] at h
    cases h

section

variable (h : Seeding G mark work) (hv : v ∈ G.verts) (hp : p ∈ G.ins v)
include h hv hp

/-- A vertex that is only fed from outside and has no mark yet joins the work. -/
lemma all (hext : ∀ q ∈ G.ins v, G.ext q ∧ mark q = false)
    (hmark : ∀ q, mark' q = true ↔ mark q = true ∨ q ∈ G.ins v) :
    Seeding G mark' (work ++ [v]) := by
  have hother : ∀ u ∈ G.verts, u ≠ v → ∀ q ∈ G.ins u, mark' q = true ↔ mark q = true := by
    intro u hu huv q hq
    rw [hmark]
    exact ⟨fun h => h.elim id fun hq' => absurd (G.ins_inj u hu v hv q hq hq') huv, Or.inl⟩
  refine ⟨?_, ?_, ?_, ?_⟩
  · intro u hu q hq hq'
    rcases (hmark q).mp hq' with hq' | hq'
    · exact h.ext_of_mark u hu q hq hq'
    · exact (hext q hq').1
  · intro u
    rw [mem_append, mem_singleton, h.mem_iff]
    by_cases huv : u = v
    · subst huv
      refine iff_of_true (Or.inr rfl) ⟨hv, ne_nil_of_mem hp, fun q hq => ?_⟩
      exact (hmark q).mpr (Or.inr hq)
    · simp only [huv, or_false]
      refine and_congr_right fun hu => and_congr_right fun _ => ?_
      exact forall₂_congr fun q hq => (hother u hu huv q hq).symm
  · refine h.nodup.append (nodup_singleton v) ?_
    intro u hu hu'
    rw [mem_singleton.mp hu'] at hu
    have := ((h.mem_iff v).mp hu).2.2 p hp
    rw [(hext p hp).2] at this
    cases this
  · intro u hu hextu q hq hq' r hr
    by_cases huv : u = v
    · exact (hmark r).mpr (Or.inr (huv ▸ hr))
    · exact (hother u hu huv r hr).mpr
        (h.together u hu hextu q hq ((hother u hu huv q hq).mp hq') r hr)

/-- A port of a vertex that is also fed from inside, or that was looked at before, is marked. -/
lemma one (hext : G.ext p) (hsome : ∃ q ∈ G.ins v, ¬ G.ext q ∨ mark q = true)
    (hmark : ∀ q, mark' q = true ↔ mark q = true ∨ q = p) : Seeding G mark' work := by
  have hother : ∀ u ∈ G.verts, u ≠ v → ∀ q ∈ G.ins u, mark' q = true ↔ mark q = true := by
    intro u hu huv q hq
    rw [hmark]
    refine ⟨fun h => h.elim id fun hq' => ?_, Or.inl⟩
    exact absurd (G.ins_inj u hu v hv q hq (hq' ▸ hp)) huv
  -- if the vertex is only fed from outside, nothing changes
  have hsame : (∀ q ∈ G.ins v, G.ext q) → ∀ q ∈ G.ins v, mark q = true := by
    intro hall
    obtain ⟨q, hq, hq' | hq'⟩ := hsome
    · exact absurd (hall q hq) hq'
    · exact h.together v hv hall q hq hq'
  have hmarkv : (∀ q ∈ G.ins v, mark' q = true) ↔ ∀ q ∈ G.ins v, mark q = true := by
    refine ⟨fun hall => hsame fun q hq => ?_, fun hall q hq => (hmark q).mpr (Or.inl (hall q hq))⟩
    rcases (hmark q).mp (hall q hq) with hq' | rfl
    · exact h.ext_of_mark v hv q hq hq'
    · exact hext
  refine ⟨?_, ?_, h.nodup, ?_⟩
  · intro u hu q hq hq'
    rcases (hmark q).mp hq' with hq' | rfl
    · exact h.ext_of_mark u hu q hq hq'
    · exact hext
  · intro u
    rw [h.mem_iff]
    refine and_congr_right fun hu => and_congr_right fun _ => ?_
    by_cases huv : u = v
    · rw [huv]
      exact hmarkv.symm
    · exact forall₂_congr fun q hq => (hother u hu huv q hq).symm
  · intro u hu hextu q hq hq' r hr
    by_cases huv : u = v
    · subst huv
      exact hmarkv.mpr (hsame hextu) r hr
    · exact (hother u hu huv r hr).mpr
        (h.together u hu hextu q hq ((hother u hu huv q hq).mp hq') r hr)

end

lemma free_of_mem (h : Seeding G mark work) (hv : v ∈ work) : G.Free v := by
  obtain ⟨hverts, -, hmarked⟩ := (h.mem_iff v).mp hv
  exact free_of_ext hverts fun p hp => h.ext_of_mark v hverts p hp (hmarked p hp)

end Seeding

/-! ## The invariant of the sort -/

/-- The sort has followed the output ports in `F`, is done with the vertices in `done`, and the
vertices in `work` wait. -/
structure Sorting (G : PortGraph V P O) (mark : P → Bool) (F : List O) (done work : List V) :
    Prop where
  /-- A port is marked if it is fed from outside or its link was followed. -/
  mark_iff : ∀ v ∈ G.verts, ∀ p ∈ G.ins v, mark p = true ↔ G.ext p ∨ ∃ o ∈ F, G.up p = some o
  /-- A vertex is listed when all its ports are marked. -/
  mem_iff : ∀ v, v ∈ done ++ work ↔ v ∈ G.verts ∧ ∀ p ∈ G.ins v, mark p = true
  nodup : (done ++ work).Nodup
  /-- A vertex is listed behind everything upstream of it. -/
  before : ∀ pre v post, done ++ work = pre ++ v :: post → ∀ u, G.Link u v → u ∈ pre
  /-- Only output ports of vertices that are done have been followed. -/
  followed : ∀ o ∈ F, G.outVert o ∈ done

namespace Sorting

variable {mark mark' : P → Bool} {F : List O} {done work : List V} {v : V} {p : P} {o : O}

lemma start (hmark : ∀ v ∈ G.verts, ∀ p ∈ G.ins v, mark p = true ↔ G.ext p)
    (hmem : ∀ v, v ∈ work ↔ v ∈ G.verts ∧ ∀ p ∈ G.ins v, mark p = true) (hnodup : work.Nodup) :
    Sorting G mark [] [] work := by
  refine ⟨fun v hv p hp => ?_, hmem, hnodup, ?_, by simp⟩
  · simpa using hmark v hv p hp
  · rintro pre v post hsplit u ⟨hv, p, hp, o, hup, rfl⟩
    have hwork : v ∈ work := by
      rw [show work = pre ++ v :: post from hsplit]
      simp
    have hext := (hmark v hv p hp).mp (((hmem v).mp hwork).2 p hp)
    rw [G.ext_up v hv p hp hext] at hup
    cases hup

lemma of_seeding {sources : List V} (h : Seeding G mark work)
    (hall : ∀ v ∈ G.verts, ∀ p ∈ G.ins v, G.ext p → mark p = true) (hnodup : sources.Nodup)
    (hsources : ∀ v, v ∈ sources ↔ v ∈ G.verts ∧ G.ins v = []) :
    Sorting G mark [] [] (work ++ sources) := by
  refine start (fun v hv p hp => ⟨h.ext_of_mark v hv p hp, hall v hv p hp⟩) ?_ ?_
  · intro v
    rw [mem_append, h.mem_iff, hsources]
    constructor
    · rintro (⟨hv, -, hmarked⟩ | ⟨hv, hnil⟩)
      · exact ⟨hv, hmarked⟩
      · exact ⟨hv, by simp [hnil]⟩
    · rintro ⟨hv, hmarked⟩
      by_cases hnil : G.ins v = []
      · exact Or.inr ⟨hv, hnil⟩
      · exact Or.inl ⟨hv, hnil, hmarked⟩
  · refine h.nodup.append hnodup ?_
    intro v hv hv'
    exact ((h.mem_iff v).mp hv).2.1 ((hsources v).mp hv').2

lemma pop (h : Sorting G mark F done (v :: work)) : Sorting G mark F (done ++ [v]) work := by
  have happ : done ++ [v] ++ work = done ++ v :: work := by simp
  refine ⟨h.mark_iff, ?_, ?_, ?_, fun o ho => mem_append_left _ (h.followed o ho)⟩
  · rw [happ]
    exact h.mem_iff
  · rw [happ]
    exact h.nodup
  · rw [happ]
    exact h.before

section

variable (h : Sorting G mark F done work)
include h

lemma skip (ho : G.outVert o ∈ done) (hnone : ∀ v ∈ G.verts, ∀ p ∈ G.ins v, G.up p ≠ some o) :
    Sorting G mark (F ++ [o]) done work := by
  refine ⟨fun v hv p hp => ?_, h.mem_iff, h.nodup, h.before, ?_⟩
  · rw [h.mark_iff v hv p hp]
    constructor
    · rintro (hext | ⟨o', ho', hup⟩)
      · exact Or.inl hext
      · exact Or.inr ⟨o', mem_append_left _ ho', hup⟩
    · rintro (hext | ⟨o', ho', hup⟩)
      · exact Or.inl hext
      · rcases mem_append.mp ho' with ho' | ho'
        · exact Or.inr ⟨o', ho', hup⟩
        · rw [mem_singleton.mp ho'] at hup
          exact absurd hup (hnone v hv p hp)
  · intro o' ho'
    rcases mem_append.mp ho' with ho' | ho'
    · exact h.followed o' ho'
    · rw [mem_singleton.mp ho']
      exact ho

section

variable (hv : v ∈ G.verts) (hp : p ∈ G.ins v) (hup : G.up p = some o)
include hv hp hup

/-- The port downstream of `o` is not yet marked when `o` is followed for the first time. -/
lemma not_marked (ho : o ∉ F) : mark p = false := by
  by_contra hmark
  rcases (h.mark_iff v hv p hp).mp (by simpa using hmark) with hext | ⟨o', ho', hup'⟩
  · rw [G.ext_up v hv p hp hext] at hup
    cases hup
  · rw [hup] at hup'
    exact ho (Option.some.inj hup' ▸ ho')

/-- The marks after the port downstream of `o` has been marked. -/
lemma mark_iff_follow (hmark : ∀ q, mark' q = true ↔ mark q = true ∨ q = p) :
    ∀ u ∈ G.verts, ∀ q ∈ G.ins u, mark' q = true ↔ G.ext q ∨ ∃ o' ∈ F ++ [o], G.up q = some o' := by
  intro u hu q hq
  rw [hmark, h.mark_iff u hu q hq]
  constructor
  · rintro ((hext | ⟨o', ho', hup'⟩) | rfl)
    · exact Or.inl hext
    · exact Or.inr ⟨o', mem_append_left _ ho', hup'⟩
    · exact Or.inr ⟨o, by simp, hup⟩
  · rintro (hext | ⟨o', ho', hup'⟩)
    · exact Or.inl (Or.inl hext)
    · rcases mem_append.mp ho' with ho' | ho'
      · exact Or.inl (Or.inr ⟨o', ho', hup'⟩)
      · rw [mem_singleton.mp ho'] at hup'
        exact Or.inr (G.up_inj u hu v hv q hq p hp o hup' hup)

end

lemma followed_snoc (ho : G.outVert o ∈ done) : ∀ o' ∈ F ++ [o], G.outVert o' ∈ done := by
  intro o' ho'
  rcases mem_append.mp ho' with ho' | ho'
  · exact h.followed o' ho'
  · rw [mem_singleton.mp ho']
    exact ho

end

section

variable (h : Sorting G mark F done work) (ho : G.outVert o ∈ done) (hv : v ∈ G.verts)
  (hp : p ∈ G.ins v) (hup : G.up p = some o)
include h ho hv hp hup

lemma follow (hmark : ∀ q, mark' q = true ↔ mark q = true ∨ q = p)
    (hsome : ∃ q ∈ G.ins v, mark' q = false) : Sorting G mark' (F ++ [o]) done work := by
  refine ⟨h.mark_iff_follow hv hp hup hmark, fun u => ?_, h.nodup, h.before, h.followed_snoc ho⟩
  rw [h.mem_iff]
  constructor
  · rintro ⟨hu, hall⟩
    exact ⟨hu, fun q hq => (hmark q).mpr (Or.inl (hall q hq))⟩
  · rintro ⟨hu, hall⟩
    refine ⟨hu, fun q hq => ?_⟩
    rcases (hmark q).mp (hall q hq) with hq' | rfl
    · exact hq'
    · -- then `u` is the vertex of `p`, which has a port without mark
      obtain ⟨q', hq', hfalse⟩ := hsome
      rw [G.ins_inj v hv u hu q hp hq] at hq'
      rw [hall q' hq'] at hfalse
      cases hfalse

/-- An output port is followed, and the port downstream was the last one of its vertex. -/
lemma follow_last (hF : o ∉ F) (hmark : ∀ q, mark' q = true ↔ mark q = true ∨ q = p)
    (hall : ∀ q ∈ G.ins v, mark' q = true) : Sorting G mark' (F ++ [o]) done (work ++ [v]) := by
  have hiff := h.mark_iff_follow hv hp hup hmark
  have hnew : v ∉ done ++ work := by
    intro hmem
    have := ((h.mem_iff v).mp hmem).2 p hp
    rw [h.not_marked hv hp hup hF] at this
    cases this
  refine ⟨hiff, fun u => ?_, ?_, ?_, h.followed_snoc ho⟩
  · rw [← append_assoc, mem_append, mem_singleton, h.mem_iff]
    constructor
    · rintro (⟨hu, hmarked⟩ | rfl)
      · exact ⟨hu, fun q hq => (hmark q).mpr (Or.inl (hmarked q hq))⟩
      · exact ⟨hv, hall⟩
    · rintro ⟨hu, hmarked⟩
      by_cases huv : u = v
      · exact Or.inr huv
      · refine Or.inl ⟨hu, fun q hq => ?_⟩
        rcases (hmark q).mp (hmarked q hq) with hq' | rfl
        · exact hq'
        · exact absurd (G.ins_inj u hu v hv q hq hp) huv
  · rw [← append_assoc]
    refine h.nodup.append (nodup_singleton v) ?_
    intro u hu hu'
    rw [mem_singleton.mp hu'] at hu
    exact hnew hu
  · intro pre u post hsplit x hlink
    rw [← append_assoc] at hsplit
    rcases eq_nil_or_concat post with rfl | ⟨post', z, rfl⟩
    · -- the vertex just listed: its links were followed
      obtain ⟨hpre, hlast⟩ :=
        append_inj' (show done ++ work ++ [v] = pre ++ [u] from hsplit) rfl
      obtain ⟨hu, q, hq, o', hup', rfl⟩ := hlink
      have huv : u = v := by simpa using hlast.symm
      subst huv
      rw [← hpre]
      rcases (hiff u hu q hq).mp (hall q hq) with hext | ⟨o'', ho'', hup''⟩
      · rw [G.ext_up u hu q hq hext] at hup'
        cases hup'
      · rw [hup'] at hup''
        rw [Option.some.inj hup'']
        exact mem_append_left _ (h.followed_snoc ho o'' ho'')
    · have hsplit' : done ++ work ++ [v] = (pre ++ u :: post') ++ [z] := by
        simpa using hsplit
      exact h.before pre u post' (append_inj' hsplit' rfl).1 x hlink

end

/-! ### What is listed -/

section

variable (h : Sorting G mark F done work) (hv : v ∈ done ++ work)
include h hv

lemma mem_verts : v ∈ G.verts :=
  ((h.mem_iff v).mp hv).1

lemma not_open : ¬ G.IsOpen v := by
  rintro ⟨p, hp, hext, hup⟩
  obtain ⟨hverts, hmarked⟩ := (h.mem_iff v).mp hv
  rcases (h.mark_iff v hverts p hp).mp (hmarked p hp) with hext' | ⟨o, -, hup'⟩
  · exact hext hext'
  · rw [hup] at hup'
    cases hup'

lemma free_of_mem : G.Free v := by
  -- induction on the place of the vertex in the list
  suffices hplace : ∀ n pre v post, done ++ work = pre ++ v :: post → pre.length = n → G.Free v by
    obtain ⟨pre, post, hsplit⟩ := append_of_mem hv
    exact hplace _ pre v post hsplit rfl
  intro n
  induction n using Nat.strong_induction_on with
  | _ n ih =>
    intro pre v post hsplit hn
    have hv : v ∈ done ++ work := by
      rw [hsplit]
      simp
    refine free_of_links (h.not_open hv) fun u hlink => ?_
    obtain ⟨pre₁, pre₂, hpre⟩ := append_of_mem (h.before pre v post hsplit u hlink)
    refine ih pre₁.length ?_ pre₁ u (pre₂ ++ v :: post) (by rw [hsplit, hpre]; simp) rfl
    rw [← hn, hpre]
    simp

end

lemma length_le (h : Sorting G mark F done work) {L : List V}
    (hL : ∀ v, v ∈ L ↔ v ∈ G.verts ∧ G.Free v) : done.length + work.length ≤ L.length := by
  rw [← length_append]
  refine (subperm_of_subset h.nodup fun v hv => ?_).length_le
  exact (hL v).mpr ⟨h.mem_verts hv, h.free_of_mem hv⟩

section

variable (h : Sorting G mark F done []) (hF : ∀ u ∈ done, ∀ o ∈ G.outs u, o ∈ F)
include h hF

lemma mem_of_free (hv : v ∈ G.verts) (hfree : G.Free v) : v ∈ done := by
  by_contra hnot
  refine not_free_of_stuck ?_ hv hnot hfree
  intro u hu hnot
  have hsome : ∃ p ∈ G.ins u, ¬ mark p = true := by
    by_contra hall
    push Not at hall
    have := (h.mem_iff u).mpr ⟨hu, hall⟩
    rw [append_nil] at this
    exact hnot this
  obtain ⟨p, hp, hmark⟩ := hsome
  rw [h.mark_iff u hu p hp] at hmark
  push Not at hmark
  cases hup : G.up p with
  | none => exact Or.inl ⟨p, hp, hmark.1, hup⟩
  | some o =>
    refine Or.inr ⟨G.outVert o, ⟨hu, p, hp, o, hup, rfl⟩, fun hdone => ?_⟩
    exact hmark.2 o (hF _ hdone o (G.up_mem u hu p hp o hup).2) hup

/-- **What the sort lists.** When nothing waits any more, the vertices listed are those that no
cycle and no open port reaches. -/
theorem mem_iff_free : v ∈ done ↔ v ∈ G.verts ∧ G.Free v := by
  constructor
  · intro hv
    have hv' : v ∈ done ++ [] := by simpa using hv
    exact ⟨h.mem_verts hv', h.free_of_mem hv'⟩
  · rintro ⟨hv, hfree⟩
    exact h.mem_of_free hF hv hfree

lemma length_eq {L : List V} (hL : ∀ v, v ∈ L ↔ v ∈ G.verts ∧ G.Free v) (hnodup : L.Nodup) :
    done.length = L.length := by
  refine le_antisymm (by simpa using h.length_le hL) ?_
  refine (subperm_of_subset hnodup fun v hv => ?_).length_le
  exact (h.mem_iff_free hF).mpr ((hL v).mp hv)

end

end Sorting

end AudioReach.Library
