import AudioReach.GraphUtils.LinkCreate
import AudioReach.GraphUtils.PortCounts

/-!
# A successful open leaves a tidy graph

While a graph is created its links agree all the time: every step of the growth adds an
object nobody points at and ties it in at once.  Only the notes on the number of ports fall
behind, for the modules that were touched; `gu_query_for_module_static_prop` brings
them up to date before elementary modules are looked for.
-/

namespace AudioReach

open Function (update update_of_ne update_self)
open Library List

namespace LinkView

/-- The state during a creation.  `L` names the instances that may get links. -/
structure Building (L : List UInt32) (v : LinkView) : Prop where
  wired : v.Wired
  connected : Connected (· ∈ v.mods) v
  unhosted : ∀ m ∈ v.mods, v.iid m ∈ L → v.host m = none
  /-- The notes on modules that were not touched are right. -/
  siso : ∀ m ∈ v.mods, v.status m = .default → v.siso m = true →
    ∃ i o, v.ins m = [i] ∧ v.outs m = [o]

/-- A new subgraph has no modules. -/
lemma mods_addSg {v : LinkView} (h : ∀ sg ∈ v.sgs, sg < v.next) : v.addSg.mods = v.mods := by
  have hold : v.sgs.flatMap (update v.sgMods v.next []) = v.sgs.flatMap v.sgMods := by
    refine flatMap_congr fun sg hsg => ?_
    exact update_of_ne (Nat.ne_of_lt (h sg hsg)) _ _
  unfold mods
  change (v.sgs ++ [v.next]).flatMap (update v.sgMods v.next []) = _
  rw [flatMap_append, hold]
  simp

/-- A new module joins the modules. -/
lemma mem_mods_addMod {v : LinkView} {sg : Addr} (hsg : sg ∈ v.sgs) (iid : UInt32) (x : Addr) :
    x ∈ (v.addMod sg iid).mods ↔ x = v.next ∨ x ∈ v.mods := by
  unfold mods
  rw [mem_flatMap, mem_flatMap]
  constructor
  · rintro ⟨a, ha, hx⟩
    exact (mem_update_concat.mp hx).imp And.right fun hx => ⟨a, ha, hx⟩
  · rintro (rfl | ⟨a, ha, hx⟩)
    · exact ⟨sg, hsg, mem_update_concat.mpr (Or.inl ⟨rfl, rfl⟩)⟩
    · exact ⟨a, ha, mem_update_concat.mpr (Or.inr hx)⟩

namespace Wires

variable {M : Addr → Prop} {v : LinkView} {L : List UInt32} {ports : List Addr}
  {status : Addr → GuStatus}

/-- The next address is no output port. -/
lemma next_not_out (h : Wires M M v) : ∀ m, M m → v.next ∉ v.outs m :=
  fun m hm hmem => lt_irrefl _ (h.outs_own m hm _ hmem).2

/-- The next address is no input port. -/
lemma next_not_in (h : Wires M M v) : ∀ m, M m → v.next ∉ v.ins m :=
  fun m hm hmem => lt_irrefl _ (h.ins_own m hm _ hmem).2

/-- A new source end keeps the links right. -/
lemma withOut (h : Wires M M v) {s : Addr} (hs : M s) (src : SrcEnd L v s ports status)
    (hhost : v.host s = none) (boundary : Bool) : Wires M M (v.withOut s ports status boundary) :=
  h.alloc.addOut hs (Nat.lt_succ_self _) h.next_not_out src.ports src.room hhost

/-- A new destination end keeps the links right. -/
lemma withIn (h : Wires M M v) {d : Addr} (hd : M d) (dst : DstEnd L v d ports status)
    (hhost : v.host d = none) : Wires M M (v.withIn d ports status) :=
  h.alloc.addIn hd (Nat.lt_succ_self _) h.next_not_in dst.ports dst.room hhost

/-- The new output port is one of the graph. -/
lemma outLive_withOut {s : Addr} (hs : M s) (src : SrcEnd L v s ports status) (boundary : Bool) :
    (v.withOut s ports status boundary).OutLive M v.next := by
  exact (outLive_addOut (v := v.alloc) hs src.ports v.next).mpr (Or.inl rfl)

/-- The new input port is one of the graph. -/
lemma inLive_withIn {d : Addr} (hd : M d) (dst : DstEnd L v d ports status) :
    (v.withIn d ports status).InLive M v.next := by
  exact (inLive_addIn (v := v.alloc) hd dst.ports v.next).mpr (Or.inl rfl)

end Wires

/-- A port keeps its connections or has one anyway. -/
lemma Connected.mono {M : Addr → Prop} {v v' : LinkView} (h : Connected M v)
    (hhost : ∀ m, M m → v'.host m = none → v.host m = none)
    (houts : ∀ m, M m → ∀ o ∈ v'.outs m, v'.connIn o ≠ none ∨ v'.extOut o ≠ none ∨
      (o ∈ v.outs m ∧ v'.connIn o = v.connIn o ∧ v'.extOut o = v.extOut o))
    (hins : ∀ m, M m → ∀ i ∈ v'.ins m, v'.connOut i ≠ none ∨ v'.extIn i ≠ none ∨
      (i ∈ v.ins m ∧ v'.connOut i = v.connOut i ∧ v'.extIn i = v.extIn i)) : Connected M v' := by
  intro m hm hm'
  obtain ⟨hold, hold'⟩ := h m hm (hhost m hm hm')
  refine ⟨?_, ?_⟩
  · intro o ho
    rcases houts m hm o ho with hc | hc | ⟨hmem, hc, he⟩
    · exact Or.inl hc
    · exact Or.inr hc
    · rw [hc, he]
      exact hold o hmem
  · intro i hi
    rcases hins m hm i hi with hc | hc | ⟨hmem, hc, he⟩
    · exact Or.inl hc
    · exact Or.inr hc
    · rw [hc, he]
      exact hold' i hmem

namespace Building

variable {L : List UInt32} {v : LinkView}

/-- A subgraph without modules. -/
lemma addSg (h : v.Building L) : v.addSg.Building L := by
  have hmods := mods_addSg h.wired.sgs_lt
  have hcases : ∀ {q : Addr → List Addr → Prop}, (∀ sg ∈ v.sgs, q sg (v.sgMods sg)) →
      q v.next [] → ∀ sg ∈ v.addSg.sgs, q sg (v.addSg.sgMods sg) := by
    intro q hq hnew sg hsg
    change q sg (update v.sgMods v.next [] sg)
    rcases (mem_concat_iff _ _ _).mp hsg with rfl | hsg
    · rwa [update_self]
    · rw [update_of_ne (Nat.ne_of_lt (h.wired.sgs_lt sg hsg))]
      exact hq sg hsg
  refine ⟨⟨?_, ?_, ?_, ?_⟩, ?_, ?_, ?_⟩
  · exact hcases (q := fun sg _ => sg < v.next + 1)
      (fun sg hsg => Nat.lt_succ_of_lt (h.wired.sgs_lt sg hsg)) (Nat.lt_succ_self _)
  · exact hcases (q := fun sg mods => ∀ m ∈ mods, v.sg m = sg) h.wired.mod_sg nofun
  · exact hcases h.wired.mods_nodup nodup_nil
  · rw [hmods]
    exact { h.wired.wires.alloc with }
  · rw [hmods]
    exact h.connected
  · rw [hmods]
    exact h.unhosted
  · rw [hmods]
    exact h.siso

/-- A port of the new lists is the new one or an old one. -/
lemma mem_update_ports {f : Addr → List Addr} {s p : Addr} {ports : List Addr}
    (hports : ports.Perm (p :: f s)) {m x : Addr} (hx : x ∈ update f s ports m) :
    x = p ∨ x ∈ f m := by
  by_cases hms : m = s
  · subst hms
    rw [update_self] at hx
    exact mem_cons.mp (hports.mem_iff.mp hx)
  · rw [update_of_ne hms] at hx
    exact Or.inr hx

section

variable {s d : Addr} {outs ins : List Addr} {st : Addr → GuStatus} {b : Bool} (h : v.Building L)
include h

/-- A module without ports. -/
lemma addMod {sg : Addr} (hsg : sg ∈ v.sgs) (iid : UInt32) : (v.addMod sg iid).Building L := by
  have hmods := mem_mods_addMod hsg iid
  have hnew : v.next ∉ v.mods := fun hmem => lt_irrefl _ (h.wired.wires.mods_lt _ hmem)
  have hne : ∀ {m}, m ∈ v.mods → m ≠ v.next := by
    rintro m hm rfl
    exact hnew hm
  refine ⟨⟨fun a ha => Nat.lt_succ_of_lt (h.wired.sgs_lt a ha), ?_, ?_, ?_⟩, ?_, ?_, ?_⟩
  · intro a ha m hm
    change update v.sg v.next sg m = a
    rcases mem_update_concat.mp hm with ⟨rfl, rfl⟩ | hm
    · exact update_self _ _ _
    · rw [update_of_ne (hne (mem_flatMap.mpr ⟨a, ha, hm⟩))]
      exact h.wired.mod_sg a ha m hm
  · refine forall_update (p := fun a (mods : List Addr) => a ∈ v.sgs → mods.Nodup)
      h.wired.mods_nodup fun hsg => ?_
    have hfresh : v.next ∉ v.sgMods sg := fun hmem => hnew (mem_flatMap.mpr ⟨sg, hsg, hmem⟩)
    exact (perm_append_singleton _ _).nodup_iff.mpr
      (nodup_cons.mpr ⟨hfresh, h.wired.mods_nodup sg hsg⟩)
  · refine (h.wired.wires.alloc.blank hnew).adopt hmods hnew (Nat.lt_succ_self _) ?_ ?_ ?_ ?_ ?_
    · exact update_self _ _ _
    · exact update_self _ _ _
    · exact ⟨update_self _ _ _, update_self _ _ _⟩
    · simp [blank]
    · exact update_self _ _ _
  · intro m hm hhost
    rcases (hmods m).mp hm with rfl | hm
    · simp [LinkView.addMod, adopt, blank]
    · simp only [LinkView.addMod, adopt, blank, alloc, update_of_ne (hne hm)] at hhost ⊢
      exact h.connected m hm hhost
  · intro m hm hiid
    rcases (hmods m).mp hm with rfl | hm
    · simp [LinkView.addMod, adopt, blank]
    · simp only [LinkView.addMod, adopt, blank, alloc, update_of_ne (hne hm)] at hiid ⊢
      exact h.unhosted m hm hiid
  · intro m hm hstatus hsiso
    rcases (hmods m).mp hm with rfl | hm
    · simp [LinkView.addMod, adopt, blank] at hsiso
    · simp only [LinkView.addMod, adopt, blank, alloc, update_of_ne (hne hm)]
        at hstatus hsiso ⊢
      exact h.siso m hm hstatus hsiso

/-- A link between two modules of the graph. -/
lemma both {st' : Addr → GuStatus} (src : SrcEnd L v s outs st)
    (dst : DstEnd L (v.withOut s outs st b) d ins st') :
    (((v.withOut s outs st b).withIn d ins st').connect v.next (v.next + 1)).Building L := by
  have hs := h.unhosted s src.mem src.named
  have hd := h.unhosted d dst.mem dst.named
  have hsrc := h.wired.wires.withOut src.mem src hs b
  have hdst := hsrc.withIn dst.mem dst hd
  refine ⟨⟨?_, h.wired.mod_sg, h.wired.mods_nodup, ?_⟩, ?_, h.unhosted, ?_⟩
  · exact fun sg hsg => Nat.lt_succ_of_lt (Nat.lt_succ_of_lt (h.wired.sgs_lt sg hsg))
  · have ho := Wires.outLive_withOut src.mem src b
    have hi := Wires.inLive_withIn dst.mem dst
    refine hdst.connect ho hi ?_ ?_ ?_ ?_ ?_ ?_
    · exact update_self _ _ _
    · exact update_self _ _ _
    · exact update_self _ _ _
    · exact update_self _ _ _
    · simpa [withOut, withIn, addOut, addIn, alloc] using hs
    · simpa [withOut, withIn, addOut, addIn, alloc] using hd
  · refine h.connected.mono (fun m hm hm' => hm') ?_ ?_
    · intro m hm o ho
      rcases mem_update_ports src.ports ho with rfl | ho
      · left
        simp [connect]
      · have hne : o ≠ v.next := Nat.ne_of_lt (h.wired.wires.outs_own m hm o ho).2
        refine Or.inr (Or.inr ⟨ho, ?_, ?_⟩)
        · simp [connect, withIn, withOut, addOut, addIn, alloc, update_of_ne hne]
        · simp [connect, withIn, withOut, addOut, addIn, alloc, update_of_ne hne]
    · intro m hm i hi
      rcases mem_update_ports dst.ports hi with rfl | hi
      · left
        simp [connect, withOut, addOut, alloc]
      · have hlt := (h.wired.wires.ins_own m hm i hi).2
        have hne : i ≠ v.next + 1 := Nat.ne_of_lt (Nat.lt_succ_of_lt hlt)
        refine Or.inr (Or.inr ⟨hi, ?_, ?_⟩)
        · simp [connect, withIn, withOut, addOut, addIn, alloc, update_of_ne hne]
        · simp [connect, withIn, withOut, addOut, addIn, alloc, update_of_ne hne]
  · intro m hm hstatus hsiso
    obtain ⟨hmd, hst⟩ := dst.touched.kept hstatus
    obtain ⟨hms, hold⟩ := src.touched.kept hst
    simp only [connect, withIn, withOut, addOut, addIn, alloc, update_of_ne hmd, update_of_ne hms]
    exact h.siso m hm hold hsiso

/-- A link to another container. -/
lemma out (src : SrcEnd L v s outs st) :
    ((v.withOut s outs st b).alloc.extendOut v.next (v.next + 1)).Building L := by
  have hs := h.unhosted s src.mem src.named
  have hsrc := (h.wired.wires.withOut src.mem src hs b).alloc
  refine ⟨⟨?_, h.wired.mod_sg, h.wired.mods_nodup, ?_⟩, ?_, h.unhosted, ?_⟩
  · exact fun sg hsg => Nat.lt_succ_of_lt (Nat.lt_succ_of_lt (h.wired.sgs_lt sg hsg))
  · have ho := Wires.outLive_withOut src.mem src b
    refine hsrc.extendOut ho (Nat.lt_succ_self _) ?_ ?_ ?_ ?_
    · intro hmem
      have hlt := h.wired.wires.extOuts_lt _ hmem
      exact absurd (Nat.lt_succ_self _) (Nat.lt_asymm hlt)
    · exact update_self _ _ _
    · exact update_self _ _ _
    · simpa [withOut, addOut, alloc] using hs
  · refine h.connected.mono (fun m hm hm' => hm') ?_ ?_
    · intro m hm o ho
      rcases mem_update_ports src.ports ho with rfl | ho
      · right
        left
        simp [extendOut]
      · have hne : o ≠ v.next := Nat.ne_of_lt (h.wired.wires.outs_own m hm o ho).2
        refine Or.inr (Or.inr ⟨ho, ?_, ?_⟩)
        · simp [extendOut, withOut, addOut, alloc, update_of_ne hne]
        · simp [extendOut, withOut, addOut, alloc, update_of_ne hne]
    · intro m hm i hi
      exact Or.inr (Or.inr ⟨hi, rfl, rfl⟩)
  · intro m hm hstatus hsiso
    obtain ⟨hms, hold⟩ := src.touched.kept hstatus
    simp only [extendOut, withOut, addOut, alloc, update_of_ne hms]
    exact h.siso m hm hold hsiso

/-- A link from another container. -/
lemma inp (dst : DstEnd L v d ins st) :
    ((v.withIn d ins st).alloc.extendIn v.next (v.next + 1)).Building L := by
  have hd := h.unhosted d dst.mem dst.named
  have hdst := (h.wired.wires.withIn dst.mem dst hd).alloc
  refine ⟨⟨?_, h.wired.mod_sg, h.wired.mods_nodup, ?_⟩, ?_, h.unhosted, ?_⟩
  · exact fun sg hsg => Nat.lt_succ_of_lt (Nat.lt_succ_of_lt (h.wired.sgs_lt sg hsg))
  · have hi := Wires.inLive_withIn dst.mem dst
    refine hdst.extendIn hi (Nat.lt_succ_self _) ?_ ?_ ?_ ?_
    · intro hmem
      have hlt := h.wired.wires.extIns_lt _ hmem
      exact absurd (Nat.lt_succ_self _) (Nat.lt_asymm hlt)
    · exact update_self _ _ _
    · exact update_self _ _ _
    · simpa [withIn, addIn, alloc] using hd
  · refine h.connected.mono (fun m hm hm' => hm') ?_ ?_
    · intro m hm o ho
      exact Or.inr (Or.inr ⟨ho, rfl, rfl⟩)
    · intro m hm i hi
      rcases mem_update_ports dst.ports hi with rfl | hi
      · right
        left
        simp [extendIn]
      · have hne : i ≠ v.next := Nat.ne_of_lt (h.wired.wires.ins_own m hm i hi).2
        refine Or.inr (Or.inr ⟨hi, ?_, ?_⟩)
        · simp [extendIn, withIn, addIn, alloc, update_of_ne hne]
        · simp [extendIn, withIn, addIn, alloc, update_of_ne hne]
  · intro m hm hstatus hsiso
    obtain ⟨hmd, hold⟩ := dst.touched.kept hstatus
    simp only [extendIn, withIn, addIn, alloc, update_of_ne hmd]
    exact h.siso m hm hold hsiso

end

end Building

/-- A graph without subgraphs. -/
lemma Building.empty {L : List UInt32} {v : LinkView} (hsgs : v.sgs = []) (houts : v.extOuts = [])
    (hins : v.extIns = []) : v.Building L := by
  have hmods : ∀ m, m ∉ v.mods := by
    intro m
    unfold mods
    rw [hsgs]
    exact not_mem_nil
  have hno : ∀ {e : Addr}, e ∉ v.extOuts := by
    rw [houts]
    exact not_mem_nil
  have hni : ∀ {e : Addr}, e ∉ v.extIns := by
    rw [hins]
    exact not_mem_nil
  refine ⟨⟨?_, ?_, ?_, ?_⟩, fun m hm => absurd hm (hmods m), fun m hm => absurd hm (hmods m),
    fun m hm => absurd hm (hmods m)⟩
  · rw [hsgs]
    exact fun sg hsg => absurd hsg not_mem_nil
  · rw [hsgs]
    exact fun sg hsg => absurd hsg not_mem_nil
  · rw [hsgs]
    exact fun sg hsg => absurd hsg not_mem_nil
  · exact {
      mods_lt := fun m hm => absurd hm (hmods m)
      outs_own := fun m hm => absurd hm (hmods m)
      ins_own := fun m hm => absurd hm (hmods m)
      outs_nodup := fun m hm => absurd hm (hmods m)
      ins_nodup := fun m hm => absurd hm (hmods m)
      extOuts_lt := fun e he => absurd he hno
      extIns_lt := fun e he => absurd he hni
      num_out := fun m hm => absurd hm (hmods m)
      num_in := fun m hm => absurd hm (hmods m)
      max_le := fun m hm => absurd hm (hmods m)
      conn := ⟨fun o _ ho => absurd ho.1 (hmods _), fun i _ hi => absurd hi.1 (hmods _)⟩
      ext_out := ⟨fun o _ ho => absurd ho.1 (hmods _), fun e _ he => absurd he hno⟩
      ext_in := ⟨fun i _ hi => absurd hi.1 (hmods _), fun e _ he => absurd he hni⟩
      att := ⟨fun o _ ho => absurd ho.1 (hmods _), fun m _ hm => absurd hm (hmods m)⟩
      out_one := fun o ho => absurd ho.1 (hmods _)
      in_one := fun i hi => absurd hi.1 (hmods _)
      extOut_sg := fun e he => absurd he hno
      extIn_sg := fun e he => absurd he hni
      shape := fun m hm => absurd hm (hmods m) }

/-- **The links agree all through a creation.** -/
theorem building_growClosed (L : List UInt32) : GrowClosed L (Building L) := by
  intro v v' h hgrown
  cases hgrown with
  | alloc =>
    exact ⟨⟨fun sg hsg => Nat.lt_succ_of_lt (h.wired.sgs_lt sg hsg), h.wired.mod_sg,
      h.wired.mods_nodup, h.wired.wires.alloc⟩, h.connected, h.unhosted, h.siso⟩
  | status m status touched =>
    refine ⟨{ h.wired with wires := { h.wired.wires with } }, h.connected, h.unhosted, ?_⟩
    exact fun m' hm' hstatus => h.siso m' hm' (touched.kept hstatus).2
  | subgraph => exact h.addSg
  | module sg mem iid => exact h.addMod mem iid
  | limits m a b ha hb =>
    refine ⟨{ h.wired with wires := { h.wired.wires with max_le := ?_ } }, h.connected,
      h.unhosted, h.siso⟩
    exact forall_update₂ (p := fun m' a b => m' ∈ v.mods → a ≤ 100 ∧ b ≤ 100)
      h.wired.wires.max_le fun _ => ⟨ha, hb⟩
  | both s d outs ins st st' src dst => exact h.both src dst
  | out s outs st src => exact h.out src
  | inp d ins st dst => exact h.inp dst

/-! ## The notes on the number of ports -/

/-- `gu_query_for_module_static_prop` on one module. -/
def noteSiso (v : LinkView) (m : Addr) : LinkView :=
  if v.status m = .default then v else
    { v with
      siso := update v.siso m (v.numOut m = 1 ∧ v.maxOut m = 1 ∧ v.numIn m = 1 ∧ v.maxIn m = 1) }

/-- A creation in which the notes on the modules outside of `rest` are right. -/
def Noted (L : List UInt32) (rest : List Addr) (v : LinkView) : Prop :=
  v.Building L ∧ ∀ m ∈ v.mods, m ∉ rest → v.siso m = true → ∃ i o, v.ins m = [i] ∧ v.outs m = [o]

/-- One more note is right. -/
lemma noted_noteSiso {L : List UInt32} {m : Addr} {rest : List Addr} {v : LinkView}
    (h : Noted L (m :: rest) v) : Noted L rest (v.noteSiso m) := by
  obtain ⟨hb, hnotes⟩ := h
  unfold noteSiso
  split
  · rename_i hstatus
    refine ⟨hb, fun m' hm' hrest hsiso => ?_⟩
    by_cases hmm : m' = m
    · subst hmm
      exact hb.siso m' hm' hstatus hsiso
    · exact hnotes m' hm' (not_mem_cons_of_ne_of_not_mem hmm hrest) hsiso
  · rename_i hstatus
    refine ⟨⟨{ hb.wired with wires := { hb.wired.wires with } }, hb.connected, hb.unhosted, ?_⟩, ?_⟩
    · intro m' hm' hstatus' hsiso
      have hmm : m' ≠ m := by
        rintro rfl
        exact hstatus hstatus'
      simp only [update_of_ne hmm] at hsiso
      exact hb.siso m' hm' hstatus' hsiso
    · intro m' hm' hrest hsiso
      by_cases hmm : m' = m
      · subst hmm
        simp only [update_self, decide_eq_true_eq] at hsiso
        obtain ⟨hout, -, hin, -⟩ := hsiso
        rw [(hb.wired.wires.num_out m' hm').1] at hout
        rw [(hb.wired.wires.num_in m' hm').1] at hin
        obtain ⟨o, ho⟩ := length_eq_one_iff.mp hout
        obtain ⟨i, hi⟩ := length_eq_one_iff.mp hin
        exact ⟨i, o, hi, ho⟩
      · simp only [update_of_ne hmm] at hsiso
        exact hnotes m' hm' (not_mem_cons_of_ne_of_not_mem hmm hrest) hsiso

/-- When all notes are right the state is tidy. -/
lemma Noted.tidy {L : List UInt32} {v : LinkView} (h : Noted L [] v) : v.Tidy :=
  ⟨h.1.wired, h.1.connected, fun m hm hsiso => h.2 m hm not_mem_nil hsiso⟩

end LinkView

/-! ## The whole command -/

section Programs

open LinkView (GrowClosed Building Noted Tidy Parsed)

/-- The instances that an open command links. -/
def GraphOpenCmd.linkIids (cmd : GraphOpenCmd) : List UInt32 :=
  cmd.modConnList.flatMap fun conn => [conn.srcModInstId, conn.dstModInstId]

variable {P : LinkView → Prop} {L : List UInt32} {cmd : GraphOpenCmd}

/-- The objects of an open are steps of the creation. -/
lemma guCreateObjects_grows (hP : GrowClosed L P) (env : OpenEnv)
    (hnew : ∀ iid ∈ cmd.newIids, iid ∈ L) : Returns P (guCreateObjects env cmd) fun _ => P := by
  refine Triple.bind (Triple.forM fun cfg _ => guCreateSubgraph_grows hP cfg) fun _ =>
    Triple.bind (Triple.mapM fun l hl => guCreateModules_grows hP ?_) fun _ =>
      Triple.bind (Triple.forM fun cfg _ => guParseModuleProps_grows hP env cfg) fun _ =>
        Triple.bind (returns_of_leaves ?_) fun _ => Triple.pure fun _ h => h
  · intro cfg hcfg
    exact hnew _ (mem_map_of_mem (mem_flatMap.mpr ⟨l, hl, hcfg⟩))
  · exact Leaves.get_bind fun w => Leaves.forM fun sg => guSgAllocateResource_leaves_syncView _

section

variable (env : OpenEnv)

/-- Loading modules leaves the links alone. -/
lemma guHandleModuleLoading_leaves_syncView (handles : List Addr) :
    Leaves syncView (guHandleModuleLoading env handles) :=
  Leaves.bind (Leaves.forM fun _ => Leaves.get_bind fun _ => Leaves.ite
    (Leaves.bind (verify_leaves_syncView _) fun _ => Leaves.modify fun _ => rfl) (Leaves.pure _))
    fun _ => Leaves.get_bind fun _ => verify_leaves_syncView _

/-- The query of a module, on the view. -/
lemma queryModule_linkView (w : GuWorld) (m : Addr) :
    (w.queryModule env m).linkView = w.linkView.noteSiso m := by
  have hstatic : ∀ a, (w.queryStaticProp a m).linkView = w.linkView := fun _ => rfl
  unfold GuWorld.queryModule LinkView.noteSiso
  by_cases hstatus : w.moduleGuStatus m = .default
  · rw [if_pos (show w.linkView.status m = .default from hstatus), if_neg (not_not.mpr hstatus)]
    split
    · exact hstatic _
    · rfl
  · rw [if_neg (show ¬ w.linkView.status m = .default from hstatus), if_pos hstatus]
    split <;> rfl

/-- The query of a module does not touch the asynchronous graph. -/
lemma queryModule_asyncGu (w : GuWorld) (m : Addr) : (w.queryModule env m).asyncGu = w.asyncGu := by
  unfold GuWorld.queryModule
  split <;> split <;> rfl

/-- The notes are up to date after `gu_query_for_module_static_prop`. -/
lemma guQueryForModuleStaticProp_returns (hquery : ∀ v m, P v → P (v.noteSiso m)) :
    Returns (fun v => v.Building L ∧ P v) (guQueryForModuleStaticProp env)
      fun _ v => v.Tidy ∧ P v := by
  refine Triple.get_bind fun w hw => ?_
  have hmods : w.openModules = w.linkView.mods := by
    unfold GuWorld.openModules
    rw [hw.openGu]
    rfl
  refine (@Triple.forM_rest _ _ _ _ (fun rest => Sync fun v => Noted L rest v ∧ P v) _ _ ?_).conseq
    ?_ ?_ fun _ h => h
  · intro m rest
    refine Triple.modify ?_
    rintro w' ⟨hasync, hnoted, hp⟩
    refine ⟨(queryModule_asyncGu env w' m).trans hasync, ?_⟩
    rw [queryModule_linkView]
    exact ⟨LinkView.noted_noteSiso hnoted, hquery _ m hp⟩
  · rintro w' ⟨rfl, hasync, hb, hp⟩
    refine ⟨hasync, ⟨hb, fun m hm hrest => absurd ?_ hrest⟩, hp⟩
    rw [hmods]
    exact hm
  · rintro _ w' ⟨hasync, hnoted, hp⟩
    exact ⟨hasync, hnoted.tidy, hp⟩

end

/-- One link of `gu_parse_elementary_modules`. -/
lemma guParseElementaryLink_returns (hparse : ∀ v v', v.Tidy → P v → Parsed v v' → P v')
    (conn : ApmModuleConnCfg) :
    Returns (fun v => v.Tidy ∧ P v) (guParseElementaryLink conn) fun _ v => v.Tidy ∧ P v := by
  refine Triple.get_bind fun w hw => ?_
  obtain ⟨hasync, htidy, hp⟩ := hw
  have hfind : ∀ (iid : UInt32) m, (if iid = 0 then none else w.guFindModule w.openGu iid) = some m →
      m ∈ w.linkView.mods := by
    intro iid m hm
    rw [Sync.openGu (P := fun _ => True) ⟨hasync, trivial⟩] at hm
    split at hm
    · cases hm
    · exact mem_of_find?_eq_some hm
  have hspec := guParseAndAttach_spec htidy (hfind conn.srcModInstId) (hfind conn.dstModInstId)
  refine (hspec.and ((guParseAndAttach_leaves _ _).keeps fun v => v.async = none)).conseq ?_ ?_
    fun _ _ => trivial
  · rintro w' ⟨rfl, -⟩
    exact ⟨rfl, Option.map_eq_none_iff.mpr hasync⟩
  · rintro _ w' ⟨hparsed, hasync'⟩
    exact ⟨Option.map_eq_none_iff.mp hasync', hparsed.tidy htidy, hparse _ _ htidy hp hparsed⟩

/-- **A successful creation.** It grows the graph, brings the notes up to date and attaches
elementary modules; `Q` is what is followed from there on. -/
theorem guCreateGraph_returns {Q : LinkView → Prop} (hP : GrowClosed L fun v => v.Building L ∧ P v)
    (hquery : ∀ v m, P v → P (v.noteSiso m)) (hPQ : ∀ v, v.Tidy → P v → Q v)
    (hparse : ∀ v v', v.Tidy → Q v → Parsed v v' → Q v') (env : OpenEnv)
    (hnew : ∀ iid ∈ cmd.newIids, iid ∈ L) (hlinks : ∀ iid ∈ cmd.linkIids, iid ∈ L) :
    Returns (fun v => v.Building L ∧ P v) (guCreateGraph env cmd) fun _ v => v.Tidy ∧ Q v := by
  refine Triple.bind (guCreateObjects_grows hP env hnew) fun handles =>
    Triple.bind (Triple.forM fun conn hconn => guHandleConnection_grows hP true conn ?_ ?_) fun _ =>
      Triple.bind (Triple.forM fun link _ => guCreateControlLink_grows hP env cmd link) fun _ =>
        Triple.bind (returns_of_leaves (guHandleModuleLoading_leaves_syncView env handles)) fun _ =>
          Triple.bind ((guQueryForModuleStaticProp_returns env hquery).post
            (fun _ _ h => ⟨h.1, h.2.1, hPQ _ h.2.1 h.2.2⟩) fun _ h => h) fun _ =>
            Triple.bind (Triple.forM fun conn _ => guParseElementaryLink_returns hparse conn)
              fun _ => Triple.get_bind fun w _ => ?_
  · intro _
    exact hlinks _ (mem_flatMap.mpr ⟨conn, hconn, mem_cons_self⟩)
  · intro _
    exact hlinks _ (mem_flatMap.mpr ⟨conn, hconn, mem_cons_of_mem _ mem_cons_self⟩)
  · have hsort : Leaves syncView guUpdateSortedList :=
      guUpdateSortedList_leaves_unsorted.comp syncView
    refine (returns_of_leaves
      (Leaves.ite hsort (Leaves.pure _))).conseq ?_ (fun _ _ h => h) fun _ h => h
    exact fun _ h => h.2

end Programs

end AudioReach
