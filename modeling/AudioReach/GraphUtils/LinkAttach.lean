import AudioReach.GraphUtils.Links

/-!
# Attaching and detaching keep the links

An attachment takes a module out of a chain of links and ties it to the port before it;
a detachment puts it back.  Both keep the graph wired, and every port of a module that
is not attached keeps its connection.

`gu_parse_and_attach_elementary_module` checks what is needed, `Ready`, before it attaches.
-/

namespace AudioReach

open Function (update update_comm update_of_ne update_self)
open Library List Option

namespace LinkView

/-- The module `e` between its ports `i` and `o` can be attached to the port `op` before it. -/
structure Ready (M : Addr → Prop) (v : LinkView) (op e i o : Addr) : Prop where
  live : v.OutLive M op
  mod : M e
  conn : v.connIn op = some i
  ins : v.ins e = [i]
  outs : v.outs e = [o]
  unhosted : v.host e = none
  host_unhosted : v.host (v.outMod op) = none
  unattached : v.attached op = none
  out_unattached : v.attached o = none
  sameSg : v.sg (v.outMod op) = v.sg e
  apart : v.outMod op ≠ e

/-- An attachment in front of the port `next`. -/
def attachInt (v : LinkView) (op e i o next : Addr) : LinkView :=
  { v with
    connOut := update (update v.connOut i none) next (some op)
    connIn := update (update v.connIn o none) op (some next)
    attached := update v.attached op (some e)
    host := update v.host e (some op) }

/-- An attachment in front of the external port `ext`. -/
def attachExt (v : LinkView) (op e i o ext : Addr) : LinkView :=
  { v with
    connOut := update v.connOut i none
    connIn := update v.connIn op none
    extOut := update (update v.extOut o none) op (some ext)
    intOut := update v.intOut ext (some op)
    attached := update v.attached op (some e)
    host := update v.host e (some op) }

/-- A detachment in front of the port `next`. -/
def detachInt (v : LinkView) (op e i o next : Addr) : LinkView :=
  { v with
    connIn := update (update v.connIn op (some i)) o (some next)
    connOut := update (update v.connOut i (some op)) next (some o)
    attached := update v.attached op none
    host := update v.host e none }

/-- A detachment in front of the external port `ext`. -/
def detachExt (v : LinkView) (op e i o ext : Addr) : LinkView :=
  { v with
    connIn := update v.connIn op (some i)
    connOut := update v.connOut i (some op)
    extOut := update (update v.extOut o (some ext)) op none
    intOut := update v.intOut ext (some o)
    attached := update v.attached op none
    host := update v.host e none }

/-- The flag that moves from an attached module to its host. -/
def moveFlag (v : LinkView) (op e : Addr) : LinkView :=
  { v with
    pending := update v.pending op false
    flag := update (update v.flag (v.outMod op) (v.flag (v.outMod op) || v.flag e)) e false }

namespace Wires

variable {M : Addr → Prop} {v : LinkView} {op e i o : Addr}

section

variable (h : Wires M M v) (hr : Ready M v op e i o)
include h hr

/-- The input port leads back to the host's port. -/
lemma ready_in : v.InLive M i ∧ v.connOut i = some op ∧ v.extIn i = none := by
  obtain ⟨hi, hback⟩ := h.conn.right op i hr.live hr.conn
  exact ⟨hi, hback, h.extIn_none hi hback⟩

/-- The output port is one of the graph and not the host's. -/
lemma ready_out : v.OutLive M o ∧ o ≠ op := by
  have ho : o ∈ v.outs e := hr.outs ▸ mem_singleton.mpr rfl
  refine ⟨h.outLive hr.mod ho, ?_⟩
  rintro rfl
  exact hr.apart (h.outs_own e hr.mod o ho).1

/-- Other attached modules are not next to the one that is attached. -/
lemma shape_attach {e' op' : Addr} (he' : M e') (hop' : v.host e' = some op') :
    ∃ i' o', v.ins e' = [i'] ∧ v.outs e' = [o'] ∧ o' ≠ op ∧ v.connOut i' = none ∧
      v.extIn i' = none ∧ v.connIn o' = none ∧ v.extOut o' = none ∧ v.attached o' = none ∧
      v.sg (v.outMod op') = v.sg e' ∧ v.host (v.outMod op') = none ∧ v.outMod op' ≠ e := by
  obtain ⟨⟨i', o', hi', ho', hci, hei, hco, heo, hatt⟩, hsg, hunhosted⟩ := h.shape e' he' op' hop'
  have hmo : o' ∈ v.outs e' := ho' ▸ mem_singleton.mpr rfl
  refine ⟨i', o', hi', ho', ?_, hci, hei, hco, heo, hatt, hsg, hunhosted, ?_⟩
  · exact h.free_out_ne he' hop' hr.live hr.host_unhosted hmo
  · intro heq
    -- the module would host `e'` on its only output port
    obtain ⟨hlive, hback⟩ := h.att.left e' op' he' hop'
    have hmem := hlive.2
    rw [heq, hr.outs, mem_singleton] at hmem
    rw [hmem, hr.out_unattached] at hback
    cases hback

/-- **Attachment in front of a port.** -/
theorem attachInt {next : Addr} (hnext : v.connIn o = some next) :
    Wires M M (v.attachInt op e i o next) := by
  obtain ⟨hi, hci, hei⟩ := h.ready_in hr
  obtain ⟨ho, hoop⟩ := h.ready_out hr
  obtain ⟨hln, hback⟩ := h.conn.right o next ho hnext
  have hextop : v.extOut op = none := h.extOut_none hr.live hr.conn
  have hexto : v.extOut o = none := h.extOut_none ho hnext
  have hin : i ≠ next := by
    rintro rfl
    rw [hci] at hback
    exact hoop (Option.some.inj hback).symm
  refine { h with
    conn := h.conn.bypass hr.live ho hoop.symm hr.conn hnext
    att := h.att.link hr.live hr.mod hr.unattached hr.unhosted
    out_one := exclusive_update (exclusive_update h.out_one (Or.inl rfl)) (Or.inr hextop)
    in_one := exclusive_update (exclusive_update h.in_one (Or.inl rfl))
      (Or.inr (h.extIn_none hln hback))
    shape := ?_ }
  · intro e' he' op' hop'
    by_cases hee : e' = e
    · subst hee
      simp only [LinkView.attachInt, update_self, Option.some.injEq] at hop'
      subst hop'
      refine ⟨⟨i, o, hr.ins, hr.outs, ?_, hei, ?_, hexto, ?_⟩, hr.sameSg, ?_⟩
      · simp only [LinkView.attachInt, update_of_ne hin, update_self]
      · simp only [LinkView.attachInt, update_of_ne hoop, update_self]
      · exact (update_of_ne hoop _ _).trans hr.out_unattached
      · exact (update_of_ne hr.apart _ _).trans hr.host_unhosted
    · simp only [LinkView.attachInt, update_of_ne hee] at hop'
      obtain ⟨i', o', hi', ho', hoop', hci', hei', hco', heo', hatt', hsg', hun', hne'⟩ :=
        h.shape_attach hr he' hop'
      have hin' : i' ≠ next := ne_of_apply_eq hci' hback nofun
      exact ⟨⟨i', o', hi', ho', (update_of_ne hin' _ _).trans (update_none hci' i), hei',
        (update_of_ne hoop' _ _).trans (update_none hco' o), heo',
        (update_of_ne hoop' _ _).trans hatt'⟩, hsg', (update_of_ne hne' _ _).trans hun'⟩

/-- **Attachment in front of an external port.** -/
theorem attachExt {ext : Addr} (hext : v.extOut o = some ext) :
    Wires M M (v.attachExt op e i o ext) := by
  obtain ⟨hi, hci, hei⟩ := h.ready_in hr
  obtain ⟨ho, hoop⟩ := h.ready_out hr
  obtain ⟨hle, hback⟩ := h.ext_out.right o ext ho hext
  have hextop : v.extOut op = none := h.extOut_none hr.live hr.conn
  have howner : v.outMod o = e := (h.outs_own e hr.mod o (hr.outs ▸ mem_singleton.mpr rfl)).1
  refine { h with
    conn := h.conn.unlink hr.live hr.conn
    ext_out := h.ext_out.move hr.live ho hextop hext
    att := h.att.link hr.live hr.mod hr.unattached hr.unhosted
    out_one := exclusive_update'
      (exclusive_update' (exclusive_update h.out_one (Or.inl rfl)) (Or.inl rfl))
      (Or.inr (update_self _ _ _))
    in_one := exclusive_update h.in_one (Or.inl rfl)
    extOut_sg := ?_, shape := ?_ }
  · intro x hx o' ho'
    by_cases hxe : x = ext
    · subst hxe
      simp only [LinkView.attachExt, update_self, Option.some.injEq] at ho' ⊢
      rw [h.extOut_sg x hx o hback, howner, ← ho', hr.sameSg]
    · simp only [LinkView.attachExt, update_of_ne hxe] at ho' ⊢
      exact h.extOut_sg x hx o' ho'
  · intro e' he' op' hop'
    by_cases hee : e' = e
    · subst hee
      simp only [LinkView.attachExt, update_self, Option.some.injEq] at hop'
      subst hop'
      refine ⟨⟨i, o, hr.ins, hr.outs, update_self _ _ _, hei, ?_, ?_, ?_⟩, hr.sameSg, ?_⟩
      · exact (update_of_ne hoop _ _).trans (h.connIn_none ho hext)
      · simp only [LinkView.attachExt, update_of_ne hoop, update_self]
      · exact (update_of_ne hoop _ _).trans hr.out_unattached
      · exact (update_of_ne hr.apart _ _).trans hr.host_unhosted
    · simp only [LinkView.attachExt, update_of_ne hee] at hop'
      obtain ⟨i', o', hi', ho', hoop', hci', hei', hco', heo', hatt', hsg', hun', hne'⟩ :=
        h.shape_attach hr he' hop'
      exact ⟨⟨i', o', hi', ho', update_none hci' i, hei', update_none hco' op,
        (update_of_ne hoop' _ _).trans (update_none heo' o),
        (update_of_ne hoop' _ _).trans hatt'⟩, hsg', (update_of_ne hne' _ _).trans hun'⟩

end

/-- A flag that moves keeps the links. -/
lemma moveFlag (h : Wires M M v) (op e : Addr) : Wires M M (v.moveFlag op e) :=
  { h with }

/-! ### Detachment -/

/-- The other attached modules keep their shape. -/
lemma shape_detach (h : Wires M M v) (he : M e) (hop : v.host e = some op) {e' op' : Addr}
    (he' : M e') (hop' : v.host e' = some op') (hne : e' ≠ e) {x y : Addr} (hx : x ∈ v.ins e)
    (hy : y ∈ v.outs e) :
    ∃ i' o', v.ins e' = [i'] ∧ v.outs e' = [o'] ∧ i' ≠ x ∧ o' ≠ y ∧ o' ≠ op ∧ v.connOut i' = none ∧
      v.extIn i' = none ∧ v.connIn o' = none ∧ v.extOut o' = none ∧ v.attached o' = none ∧
      v.sg (v.outMod op') = v.sg e' ∧ v.host (v.outMod op') = none := by
  obtain ⟨⟨i', o', hi', ho', hci, hei, hco, heo, hatt⟩, hsg, hunhosted⟩ := h.shape e' he' op' hop'
  have hmi : i' ∈ v.ins e' := hi' ▸ mem_singleton.mpr rfl
  have hmo : o' ∈ v.outs e' := ho' ▸ mem_singleton.mpr rfl
  obtain ⟨hlive, -⟩ := h.att.left e op he hop
  have hhost := (h.shape e he op hop).2.2
  refine ⟨i', o', hi', ho', ?_, ?_, h.free_out_ne he' hop' hlive hhost hmo, hci, hei, hco, heo, hatt,
    hsg, hunhosted⟩
  · rintro rfl
    exact hne ((h.ins_own e' he' i' hmi).1.symm.trans (h.ins_own e he i' hx).1)
  · rintro rfl
    exact hne ((h.outs_own e' he' o' hmo).1.symm.trans (h.outs_own e he o' hy).1)

section

variable (h : Wires M M v) (he : M e) (hop : v.host e = some op) (hi : v.ins e = [i])
  (ho : v.outs e = [o])
include h he hop hi ho

/-- What is known about an attached module and its host. -/
lemma hosted :
    v.OutLive M op ∧ v.attached op = some e ∧ v.InLive M i ∧ v.OutLive M o ∧ v.connOut i = none ∧
      v.extIn i = none ∧ v.connIn o = none ∧ v.extOut o = none ∧ v.attached o = none ∧
      v.sg (v.outMod op) = v.sg e ∧ v.host (v.outMod op) = none := by
  obtain ⟨⟨i', o', hi', ho', hci, hei, hco, heo, hatt⟩, hsg, hunhosted⟩ := h.shape e he op hop
  obtain rfl : i' = i := by
    rw [hi] at hi'
    exact (singleton_inj.mp hi').symm
  obtain rfl : o' = o := by
    rw [ho] at ho'
    exact (singleton_inj.mp ho').symm
  obtain ⟨hlive, hback⟩ := h.att.left e op he hop
  exact ⟨hlive, hback, h.inLive he (hi ▸ mem_singleton.mpr rfl),
    h.outLive he (ho ▸ mem_singleton.mpr rfl), hci, hei, hco, heo, hatt, hsg, hunhosted⟩

/-- **Detachment in front of a port.** -/
theorem detachInt {next : Addr} (hnext : v.connIn op = some next) :
    Wires M M (v.detachInt op e i o next) := by
  obtain ⟨hlive, hatt, hli, hlo, hci, hei, hco, heo, hatto, hsg, hunhosted⟩ := h.hosted he hop hi ho
  obtain ⟨hln, hback⟩ := h.conn.right op next hlive hnext
  refine { h with
    conn := h.conn.splice hlive hlo hli hnext hco hci
    att := h.att.unlink hlive hatt
    out_one := exclusive_update
      (exclusive_update h.out_one (Or.inr (h.extOut_none hlive hnext))) (Or.inr heo)
    in_one := exclusive_update (exclusive_update h.in_one (Or.inr hei))
      (Or.inr (h.extIn_none hln hback))
    shape := ?_ }
  · intro e' he' op' hop'
    have hee : e' ≠ e := by
      rintro rfl
      simp [LinkView.detachInt] at hop'
    simp only [LinkView.detachInt, update_of_ne hee] at hop'
    obtain ⟨i', o', hi', ho', hii, hoo, hoop, hci', hei', hco', heo', hatt', hsg', hun'⟩ :=
      h.shape_detach he hop he' hop' hee (hi ▸ mem_singleton.mpr rfl) (ho ▸ mem_singleton.mpr rfl)
    have hin : i' ≠ next := ne_of_apply_eq hci' hback nofun
    exact ⟨⟨i', o', hi', ho', (update_of_ne hin _ _).trans ((update_of_ne hii _ _).trans hci'),
      hei', (update_of_ne hoo _ _).trans ((update_of_ne hoop _ _).trans hco'), heo',
      update_none hatt' op⟩, hsg', update_none hun' e⟩

/-- **Detachment in front of an external port.** -/
theorem detachExt {ext : Addr} (hext : v.extOut op = some ext) :
    Wires M M (v.detachExt op e i o ext) := by
  obtain ⟨hlive, hatt, hli, hlo, hci, hei, hco, heo, hatto, hsg, hunhosted⟩ := h.hosted he hop hi ho
  obtain ⟨hle, hback⟩ := h.ext_out.right op ext hlive hext
  have hoop : o ≠ op := ne_of_apply_eq heo hext nofun
  have howner : v.outMod o = e := (h.outs_own e he o (ho ▸ mem_singleton.mpr rfl)).1
  have hmove : Paired (v.OutLive M) (· ∈ v.extOuts) (update (update v.extOut o (some ext)) op none)
      (update v.intOut ext (some o)) := by
    rw [update_comm hoop]
    exact h.ext_out.move hlo hlive heo hext
  refine { h with
    conn := h.conn.link hlive hli (h.connIn_none hlive hext) hci
    ext_out := hmove
    att := h.att.unlink hlive hatt
    out_one := exclusive_update
      (exclusive_update' (exclusive_update' h.out_one (Or.inr hco)) (Or.inl rfl))
      (Or.inr (update_self _ _ _))
    in_one := exclusive_update h.in_one (Or.inr hei)
    extOut_sg := ?_, shape := ?_ }
  · intro x hx o' ho'
    by_cases hxe : x = ext
    · subst hxe
      simp only [LinkView.detachExt, update_self, Option.some.injEq] at ho' ⊢
      rw [h.extOut_sg x hx op hback, ← ho', howner, hsg]
    · simp only [LinkView.detachExt, update_of_ne hxe] at ho' ⊢
      exact h.extOut_sg x hx o' ho'
  · intro e' he' op' hop'
    have hee : e' ≠ e := by
      rintro rfl
      simp [LinkView.detachExt] at hop'
    simp only [LinkView.detachExt, update_of_ne hee] at hop'
    obtain ⟨i', o', hi', ho', hii, hoo, hoop', hci', hei', hco', heo', hatt', hsg', hun'⟩ :=
      h.shape_detach he hop he' hop' hee (hi ▸ mem_singleton.mpr rfl) (ho ▸ mem_singleton.mpr rfl)
    exact ⟨⟨i', o', hi', ho', (update_of_ne hii _ _).trans hci', hei',
      (update_of_ne hoop' _ _).trans hco', update_none ((update_of_ne hoo _ _).trans heo') op,
      update_none hatt' op⟩, hsg', update_none hun' e⟩

end

end Wires

/-! ### Connections -/

namespace Connected

variable {M : Addr → Prop} {v : LinkView} {op e i o : Addr}

/-- An output port has one module. -/
lemma out_notMem (hw : Wires M M v) {m : Addr} (hm : M m) (he : M e) (hme : m ≠ e)
    (ho : v.outs e = [o]) : o ∉ v.outs m := fun hmem =>
  hme ((hw.outs_own m hm o hmem).1.symm.trans (hw.outs_own e he o (ho ▸ mem_singleton.mpr rfl)).1)

/-- An input port has one module. -/
lemma in_notMem (hw : Wires M M v) {m : Addr} (hm : M m) (he : M e) (hme : m ≠ e)
    (hi : v.ins e = [i]) : i ∉ v.ins m := fun hmem =>
  hme ((hw.ins_own m hm i hmem).1.symm.trans (hw.ins_own e he i (hi ▸ mem_singleton.mpr rfl)).1)

section

variable {next ext : Addr} (h : Connected M v)
include h

/-- A module is connected where it was, unless it is one of the two. -/
lemma attachInt (hw : Wires M M v) (hr : Ready M v op e i o) :
    Connected M (v.attachInt op e i o next) := by
  intro m hm hhost
  have hme : m ≠ e := by
    rintro rfl
    simp [LinkView.attachInt] at hhost
  simp only [LinkView.attachInt, update_of_ne hme] at hhost
  obtain ⟨houts, hins⟩ := h m hm hhost
  refine ⟨?_, ?_⟩
  · exact covered_update
      (covered_update houts fun hmem => absurd hmem (out_notMem hw hm hr.mod hme hr.outs))
      fun _ => Or.inl (some_ne_none next)
  · exact covered_update
      (covered_update hins fun hmem => absurd hmem (in_notMem hw hm hr.mod hme hr.ins))
      fun _ => Or.inl (some_ne_none op)

/-- An attachment before an external port leaves all ports connected. -/
lemma attachExt (hw : Wires M M v) (hr : Ready M v op e i o) :
    Connected M (v.attachExt op e i o ext) := by
  intro m hm hhost
  have hme : m ≠ e := by
    rintro rfl
    simp [LinkView.attachExt] at hhost
  simp only [LinkView.attachExt, update_of_ne hme] at hhost
  obtain ⟨houts, hins⟩ := h m hm hhost
  refine ⟨?_, ?_⟩
  · have hgiven := covered_update' (q := none) houts fun hmem =>
      absurd hmem (out_notMem hw hm hr.mod hme hr.outs)
    -- the port before the module gives up its connection for the external port
    refine covered_update (covered_update' hgiven fun _ => Or.inl (some_ne_none ext))
      fun _ => Or.inr ?_
    exact ne_of_eq_of_ne (update_self _ _ _) (some_ne_none ext)
  · exact covered_update hins fun hmem => absurd hmem (in_notMem hw hm hr.mod hme hr.ins)

/-- A detachment before a port connects the module's ports. -/
lemma detachInt (hi : v.ins e = [i]) (ho : v.outs e = [o]) :
    Connected M (v.detachInt op e i o next) := by
  intro m hm hhost
  by_cases hme : m = e
  · subst hme
    refine ⟨?_, ?_⟩
    · intro x hx
      obtain rfl := mem_singleton.mp (ho ▸ hx : x ∈ [o])
      left
      simp [LinkView.detachInt]
    · intro x hx
      obtain rfl := mem_singleton.mp (hi ▸ hx : x ∈ [i])
      left
      by_cases hxn : x = next
      · subst hxn
        simp [LinkView.detachInt]
      · simp [LinkView.detachInt, update_of_ne hxn]
  · simp only [LinkView.detachInt, update_of_ne hme] at hhost
    obtain ⟨houts, hins⟩ := h m hm hhost
    refine ⟨?_, ?_⟩
    · exact covered_update (covered_update houts fun _ => Or.inl (some_ne_none i))
        fun _ => Or.inl (some_ne_none next)
    · exact covered_update (covered_update hins fun _ => Or.inl (some_ne_none op))
        fun _ => Or.inl (some_ne_none o)

/-- A detachment before an external port connects the module's ports. -/
lemma detachExt (hi : v.ins e = [i]) (ho : v.outs e = [o]) (hoop : o ≠ op) :
    Connected M (v.detachExt op e i o ext) := by
  intro m hm hhost
  by_cases hme : m = e
  · subst hme
    refine ⟨?_, ?_⟩
    · intro x hx
      obtain rfl := mem_singleton.mp (ho ▸ hx : x ∈ [o])
      right
      simp [LinkView.detachExt, update_of_ne hoop]
    · intro x hx
      obtain rfl := mem_singleton.mp (hi ▸ hx : x ∈ [i])
      left
      simp [LinkView.detachExt]
  · simp only [LinkView.detachExt, update_of_ne hme] at hhost
    obtain ⟨houts, hins⟩ := h m hm hhost
    refine ⟨?_, ?_⟩
    · have hconn := covered_update (a := op) houts fun _ => Or.inl (some_ne_none i)
      refine covered_update'
        (covered_update' hconn fun _ => Or.inl (some_ne_none ext)) fun _ => Or.inr ?_
      exact ne_of_eq_of_ne (update_self _ _ _) (some_ne_none i)
    · exact covered_update hins fun _ => Or.inl (some_ne_none op)

end

end Connected

/-! ## The programs -/

/-- An attachment, in front of whatever follows the module. -/
def attachTo (v : LinkView) (op e i o : Addr) : LinkView :=
  match v.connIn o, v.extOut o with
  | some next, _ => (v.attachInt op e i o next).moveFlag op e
  | none, some ext => (v.attachExt op e i o ext).moveFlag op e
  | none, none => v.moveFlag op e

/-- The marks for attachment. -/
def setPending (v : LinkView) (op : Addr) (b : Bool) : LinkView :=
  { v with pending := update v.pending op b }

/-- Modules noted down as having one input and one output do have them. -/
def SisoOk (v : LinkView) : Prop :=
  ∀ m ∈ v.mods, v.siso m = true → ∃ i o, v.ins m = [i] ∧ v.outs m = [o]

/-- The state between two operations. -/
structure Tidy (v : LinkView) : Prop where
  wired : v.Wired
  connected : Connected (· ∈ v.mods) v
  siso : v.SisoOk

/-- A mark keeps the state tidy. -/
lemma Tidy.setPending {v : LinkView} (h : v.Tidy) (op : Addr) (b : Bool) :
    (v.setPending op b).Tidy :=
  ⟨{ h.wired with wires := { h.wired.wires with } }, h.connected, h.siso⟩

section

variable {v : LinkView} {op e i o : Addr} (h : v.Tidy) (hr : Ready (· ∈ v.mods) v op e i o)
include h hr

/-- A module that can be attached leads to a port or an external port. -/
lemma Tidy.followed : (∃ next, v.connIn o = some next ∧ v.attachTo op e i o =
      (v.attachInt op e i o next).moveFlag op e) ∨
    ∃ ext, v.connIn o = none ∧ v.extOut o = some ext ∧ v.attachTo op e i o =
      (v.attachExt op e i o ext).moveFlag op e := by
  have hmem : o ∈ v.outs e := hr.outs ▸ mem_singleton.mpr rfl
  have hfollowed := (h.connected e hr.mod hr.unhosted).1 o hmem
  unfold attachTo
  cases hc : v.connIn o with
  | some next => exact Or.inl ⟨next, rfl, rfl⟩
  | none =>
    cases hx : v.extOut o with
    | some ext => exact Or.inr ⟨ext, rfl, rfl, rfl⟩
    | none =>
      rw [hc, hx] at hfollowed
      simp at hfollowed

/-- **Attachment.** A module that is ready can be attached. -/
theorem Tidy.attachTo : (v.attachTo op e i o).Tidy := by
  rcases h.followed hr with ⟨next, hnext, heq⟩ | ⟨ext, -, hext, heq⟩
  · rw [heq]
    exact ⟨{ h.wired with wires := (h.wired.wires.attachInt hr hnext).moveFlag op e },
      h.connected.attachInt h.wired.wires hr, h.siso⟩
  · rw [heq]
    exact ⟨{ h.wired with wires := (h.wired.wires.attachExt hr hext).moveFlag op e },
      h.connected.attachExt h.wired.wires hr, h.siso⟩

end

/-- `gu_attach_module`. -/
def attach (v : LinkView) (op : Addr) : LinkView :=
  if v.pending op then
    match v.connIn op with
    | none => v
    | some ip =>
      match (v.ins (v.inMod ip)).head?, (v.outs (v.inMod ip)).head? with
      | some i, some o => v.attachTo op (v.inMod ip) i o
      | _, _ => v
  else v

/-- What `gu_parse_and_attach_elementary_module` can do. -/
inductive Parsed (v v' : LinkView) : Prop
  /-- Nothing. -/
  | none (eq : v' = v)
  /-- A module that follows itself is left alone. -/
  | loop (o : Addr) (eq : v' = (v.setPending o true).setPending o false)
  /-- A module in front of an external port without peer is marked. -/
  | mark (op e i o ext : Addr) (ready : Ready (· ∈ v.mods) v op e i o)
      (conn : v.connIn o = Option.none) (ext : v.extOut o = some ext) (eq : v' = v.setPending op true)
  /-- A module in front of an external port is attached. -/
  | ext (op e i o ext : Addr) (ready : Ready (· ∈ v.mods) v op e i o) (hext : v.extOut o = some ext)
      (eq : v' = (v.setPending op true).attachTo op e i o)
  /-- A module in front of a port is attached. -/
  | int (op e i o next : Addr) (ready : Ready (· ∈ v.mods) v op e i o)
      (conn : v.connIn o = some next)
      (eq : v' = ((v.setPending op true).setPending o false).attachTo op e i o)

end LinkView

/-! ### From programs to views -/

section Programs

open LinkView (Tidy Parsed Ready)

/-- A property of the view, read on the graph. -/
def OnLinks (P : LinkView → Prop) (w : GuWorld) : Prop := P w.linkView

/-- The code attaches as the view does. -/
lemma attachAt_linkView (w : GuWorld) (op e i o : Addr) :
    (w.attachAt op e i o).linkView = w.linkView.attachTo op e i o := by
  unfold GuWorld.attachAt LinkView.attachTo
  change _ = match w.connInPort o, w.extOutPort o with
    | some next, _ => (w.linkView.attachInt op e i o next).moveFlag op e
    | none, some ext => (w.linkView.attachExt op e i o ext).moveFlag op e
    | none, none => w.linkView.moveFlag op e
  cases w.connInPort o with
  | some next => rfl
  | none =>
    cases w.extOutPort o with
    | some ext => rfl
    | none => rfl

/-- `gu_attach_module` on the view. -/
lemma guAttachModule_spec (op : Addr) (v : LinkView) :
    Triple (OnLinks (· = v)) (guAttachModule op) (fun _ => OnLinks (· = v.attach op))
      (OnLinks (· = v.attach op)) := by
  refine Triple.get_bind fun w hw => ?_
  obtain rfl : w.linkView = v := hw
  refine Triple.ite (fun hp => ?_) fun hp => ?_
  · split
    · rename_i hconn
      refine Triple.throw ?_
      rintro w' ⟨rfl, -⟩
      change w'.linkView = w'.linkView.attach op
      unfold LinkView.attach
      rw [if_pos (show w'.linkView.pending op = true from hp),
        show w'.linkView.connIn op = none from hconn]
    · rename_i ip hconn
      split
      · rename_i i o hi ho
        refine Triple.modify ?_
        rintro w' ⟨rfl, -⟩
        change (w'.attachAt op (w'.inModule ip) i o).linkView = w'.linkView.attach op
        unfold LinkView.attach
        rw [if_pos (show w'.linkView.pending op = true from hp),
        show w'.linkView.connIn op = some ip from hconn, attachAt_linkView]
        simp only [show (w'.linkView.ins (w'.linkView.inMod ip)).head? = some i from hi,
          show (w'.linkView.outs (w'.linkView.inMod ip)).head? = some o from ho]
        rfl
      · rename_i hports
        refine Triple.throw ?_
        rintro w' ⟨rfl, -⟩
        unfold LinkView.attach
        rw [if_pos (show w'.linkView.pending op = true from hp),
        show w'.linkView.connIn op = some ip from hconn]
        simp only
        split
        · rename_i i o hi ho
          exact absurd ho (hports i o hi)
        · rfl
  · refine Triple.pure ?_
    rintro w' ⟨rfl, -⟩
    change w'.linkView = w'.linkView.attach op
    unfold LinkView.attach
    rw [if_neg (show ¬ w'.linkView.pending op = true from hp)]

/-- `gu_attach_module`, on the view. -/
lemma guAttachModule_linkView (op : Addr) (w : GuWorld) :
    (endState (guAttachModule op) w).linkView = w.linkView.attach op :=
  (guAttachModule_spec op w.linkView).endState rfl

/-- A module that is ready is attached. -/
lemma attach_of_ready {v : LinkView} {op e i o : Addr} (hw : v.Wired)
    (hr : Ready (· ∈ v.mods) v op e i o) (hp : v.pending op = true) :
    v.attach op = v.attachTo op e i o := by
  have howner : v.inMod i = e :=
    (hw.wires.ins_own e hr.mod i (hr.ins ▸ mem_singleton.mpr rfl)).1
  unfold LinkView.attach
  rw [if_pos hp, hr.conn]
  simp only [howner, hr.ins, hr.outs, head?_cons]

/-- The checks of `gu_parse_and_attach_elementary_module`: the module is ready, or it follows
itself. -/
lemma attachPlace_ready {w : GuWorld} {m op o : Addr} (h : w.linkView.Tidy)
    (hm : m ∈ w.linkView.mods) (hhost : w.hostOutputPort m = none)
    (hplace : w.attachPlace m = some (op, o)) :
    (∃ i, Ready (· ∈ w.linkView.mods) w.linkView op m i o) ∨
      (op = o ∧ w.linkView.connIn o ≠ none) := by
  unfold GuWorld.attachPlace at hplace
  split at hplace
  · rename_i hsiso
    obtain ⟨i, o', hins, houts⟩ := h.siso m hm hsiso
    rw [show w.inputPortList m = [i] from hins, show w.outputPortList m = [o'] from houts] at hplace
    simp only [head?_cons] at hplace
    split at hplace
    · cases hplace
    · rename_i op' hconn
      split at hplace
      · rename_i hguards
        obtain ⟨hhost', hsg, hatt, hatt'⟩ := hguards
        simp only [Option.some.injEq, Prod.mk.injEq] at hplace
        obtain ⟨rfl, rfl⟩ := hplace
        have hi : w.linkView.InLive (· ∈ w.linkView.mods) i :=
          h.wired.wires.inLive hm (hins ▸ mem_singleton.mpr rfl)
        obtain ⟨hlive, hback⟩ := h.wired.wires.conn.left i op' hi hconn
        by_cases hapart : w.linkView.outMod op' = m
        · -- the only output port of the module leads to its own input
          right
          have hmem := hlive.2
          rw [hapart, houts, mem_singleton] at hmem
          rw [← hmem, hback]
          exact ⟨rfl, some_ne_none i⟩
        · left
          exact ⟨i, hlive, hm, hback, hins, houts, hhost, isNone_iff_eq_none.mp hhost',
            isNone_iff_eq_none.mp hatt, isNone_iff_eq_none.mp hatt', hsg, hapart⟩
      · cases hplace
  · cases hplace

/-- A mark, on the view. -/
lemma setPending_linkView (w : GuWorld) (op : Addr) (b : Bool) :
    (w.setPending op b).linkView = w.linkView.setPending op b := rfl

/-- `gu_attach_module` where its result is ignored. -/
lemma guTryAttachModule_spec {v v' : LinkView} (op : Addr) (h : v.attach op = v') :
    Triple (OnLinks (· = v)) (guTryAttachModule op) (fun _ => OnLinks (· = v')) fun _ => False := by
  refine Triple.modify ?_
  rintro w rfl
  change (endState (guAttachModule op) w).linkView = v'
  rw [guAttachModule_linkView]
  exact h

/-- A mark keeps a module ready. -/
lemma LinkView.Ready.setPending {M : Addr → Prop} {v : LinkView} {op e i o : Addr}
    (hr : Ready M v op e i o) (x : Addr) (b : Bool) : Ready M (v.setPending x b) op e i o :=
  ⟨hr.live, hr.mod, hr.conn, hr.ins, hr.outs, hr.unhosted, hr.host_unhosted, hr.unattached,
    hr.out_unattached, hr.sameSg, hr.apart⟩

/-- **`gu_parse_and_attach_elementary_module` on the view.** -/
theorem guParseAndAttach_spec {src dst : Option Addr} {v : LinkView} (h : v.Tidy)
    (hsrc : ∀ m, src = some m → m ∈ v.mods) (hdst : ∀ m, dst = some m → m ∈ v.mods) :
    Triple (OnLinks (· = v)) (guParseAndAttachElementaryModule src dst)
      (fun _ => OnLinks (Parsed v)) fun _ => False := by
  refine Triple.get_bind fun w hw => ?_
  obtain rfl : w.linkView = v := hw
  split
  · refine Triple.pure ?_
    rintro w' ⟨rfl, -⟩
    exact .none rfl
  · rename_i m hcand
    obtain ⟨hm, hhost⟩ : m ∈ w.linkView.mods ∧ w.hostOutputPort m = none := by
      unfold GuWorld.attachCandidate at hcand
      split at hcand
      · rename_i m' hm'
        cases hcand
        obtain ⟨hs, hguard⟩ := filter_eq_some_iff.mp hm'
        rw [Bool.and_eq_true] at hguard
        exact ⟨hsrc m hs, isNone_iff_eq_none.mp hguard.2⟩
      · obtain ⟨hd, hguard⟩ := filter_eq_some_iff.mp hcand
        rw [Bool.and_eq_true] at hguard
        exact ⟨hdst m hd, isNone_iff_eq_none.mp hguard.2⟩
    split
    · refine Triple.pure ?_
      rintro w' ⟨rfl, -⟩
      exact .none rfl
    · rename_i op o hplace
      have hready := attachPlace_ready h hm hhost hplace
      split
      · rename_i next hconn
        refine Triple.bind (Q := fun _ => OnLinks (· = w.linkView.setPending op true))
          (Triple.modify ?_) fun _ => Triple.bind (Q := fun _ =>
            OnLinks (· = (w.linkView.setPending op true).setPending o false))
            (Triple.modify ?_) fun _ => ?_
        · rintro w' ⟨rfl, -⟩
          rfl
        · intro w' hw'
          change (w'.setPending o false).linkView = _
          rw [setPending_linkView, show w'.linkView = _ from hw']
        · rcases hready with ⟨i, hr⟩ | ⟨rfl, -⟩
          · -- the mark on the port behind is taken away, the one before it stays
            have hne := (h.wired.wires.ready_out hr).2
            have hr' := (hr.setPending op true).setPending o false
            have htidy := (h.setPending op true).setPending o false
            refine (guTryAttachModule_spec op (attach_of_ready htidy.wired hr' ?_)).conseq
              (fun _ h => h) (fun _ w' hw' => ?_) fun _ h => h
            · simp [LinkView.setPending, update_of_ne hne.symm]
            · exact .int op m i o next hr hconn hw'
          · refine (guTryAttachModule_spec op (?_ : LinkView.attach _ op = _)).conseq
              (fun _ h => h) (fun _ w' hw' => .loop op hw') fun _ h => h
            unfold LinkView.attach
            simp [LinkView.setPending]
      · rename_i ext hconn hext
        rcases hready with ⟨i, hr⟩ | ⟨-, hne⟩
        · have hr' := hr.setPending op true
          have htidy := h.setPending op true
          refine Triple.bind (Q := fun _ => OnLinks (· = w.linkView.setPending op true))
            (Triple.modify ?_) fun _ => Triple.ite (fun _ => ?_) fun _ => Triple.pure ?_
          · rintro w' ⟨rfl, -⟩
            rfl
          · refine (guTryAttachModule_spec op (attach_of_ready htidy.wired hr' ?_)).conseq
              (fun _ h => h) (fun _ w' hw' => ?_) fun _ h => h
            · simp [LinkView.setPending]
            · exact .ext op m i o ext hr hext hw'
          · intro w' hw'
            exact .mark op m i o ext hr hconn hext hw'
        · exact absurd hconn hne
      · refine Triple.pure ?_
        rintro w' ⟨rfl, -⟩
        exact .none rfl

/-- **Parsing keeps the graph tidy.** -/
theorem LinkView.Parsed.tidy {v v' : LinkView} (h : v.Tidy) (hp : Parsed v v') : v'.Tidy := by
  cases hp with
  | none eq => exact eq ▸ h
  | loop o eq => exact eq ▸ (h.setPending o true).setPending o false
  | mark op e i o ext ready conn hext eq => exact eq ▸ h.setPending op true
  | ext op e i o ext ready hext eq =>
    exact eq ▸ (h.setPending op true).attachTo (ready.setPending op true)
  | int op e i o next ready conn eq =>
    exact eq ▸ ((h.setPending op true).setPending o false).attachTo
      ((ready.setPending op true).setPending o false)

end Programs

end AudioReach
