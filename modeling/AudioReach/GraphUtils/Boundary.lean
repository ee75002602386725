import AudioReach.GraphUtils.LinkDetach
import AudioReach.GraphUtils.LinkOpen
import AudioReach.GraphUtils.ParallelPaths
import AudioReach.Library.Runs

/-!
# The boundary flag

`is_ds_at_sg_or_cntr_boundary` of a module notes that one of its output ports leads out
of its subgraph or container.  The flag sums up all output ports, but attaching and
detaching move it from one module to the other looking at one port only.

Attaching is fine: the host takes over the port of the module, so it takes over the
flag on top of its own.  Detaching clears the flag of the host, which is wrong as soon as another
output port of the host is at a boundary.  So the flags are right along every run that
detaches modules only from hosts without such a port.  The links are right along every run.
-/

namespace AudioReach

open Function (update update_of_ne update_self)
open Library List

namespace LinkView

/-- The output port leads out of the subgraph. -/
def AtBoundary (v : LinkView) (sg o : Addr) : Prop :=
  v.extOut o ≠ none ∨ ∃ i, v.connIn o = some i ∧ v.sg (v.inMod i) ≠ sg

/-- The flags are right.  The port of an attached module has no connection, so its flag is down. -/
def Flags (v : LinkView) : Prop :=
  ∀ m ∈ v.mods, (v.flag m = true ↔ ∃ o ∈ v.outs m, v.AtBoundary (v.sg m) o)

/-- Ports are marked only in front of modules that wait for an external port. -/
def Marks (v : LinkView) : Prop :=
  ∀ op, v.OutLive (· ∈ v.mods) op → v.pending op = true →
    ∃ e i o, Ready (· ∈ v.mods) v op e i o ∧ v.extOut o ≠ none

/-- A port with an external port is not marked. -/
lemma Marks.unmarked {v : LinkView} (hm : v.Marks) (h : v.Tidy) {o : Addr}
    (ho : v.OutLive (· ∈ v.mods) o) (hext : v.extOut o ≠ none) : v.pending o = false := by
  by_contra hne
  obtain ⟨e', i', o', hr', -⟩ := hm o ho (Bool.eq_true_of_not_eq_false hne)
  exact hext (h.wired.wires.extOut_none ho hr'.conn)

/-- The marked ports can be attached to. -/
lemma Marks.attachable {v : LinkView} (h : v.Tidy) (hm : v.Marks) : v.Attachable := by
  intro op hop hp _
  obtain ⟨e, i, o, hr, hext⟩ := hm op hop hp
  exact ⟨e, i, o, hr, hm.unmarked h (h.wired.wires.ready_out hr).1 hext⟩

/-! ## Attaching -/

section Attach

variable {v : LinkView} {op e i o : Addr}

section

variable (h : v.Tidy) (hr : Ready (· ∈ v.mods) v op e i o)
include h hr

/-- Before an attachment the host's port does not lead out. -/
lemma Ready.not_atBoundary : ¬ v.AtBoundary (v.sg e) op := by
  have howner : v.inMod i = e :=
    (h.wired.wires.ins_own e hr.mod i (hr.ins ▸ mem_singleton.mpr rfl)).1
  rintro (hext | ⟨i', hi', hsg⟩)
  · exact hext (h.wired.wires.extOut_none hr.live hr.conn)
  · rw [hr.conn, Option.some.injEq] at hi'
    rw [← hi', howner] at hsg
    exact hsg rfl

/-- The boundary moves from the module's port to the host's. -/
lemma atBoundary_attachTo (sg : Addr) :
    ((v.attachTo op e i o).AtBoundary sg op ↔ v.AtBoundary sg o) ∧
      ¬ (v.attachTo op e i o).AtBoundary sg o := by
  obtain ⟨ho, hoop⟩ := h.wired.wires.ready_out hr
  have hextop := h.wired.wires.extOut_none hr.live hr.conn
  unfold AtBoundary
  rcases h.followed hr with ⟨next, hnext, heq⟩ | ⟨ext, hconn, hext, heq⟩
  · have hexto := h.wired.wires.extOut_none ho hnext
    rw [heq]
    simp [moveFlag, attachInt, hextop, hexto, hnext, update_of_ne hoop]
  · rw [heq]
    simp [moveFlag, attachExt, hext, hconn, update_of_ne hoop]

/-- The other ports lead where they led. -/
lemma atBoundary_attachTo_of_ne {x : Addr} (hxop : x ≠ op) (hxo : x ≠ o) (sg : Addr) :
    (v.attachTo op e i o).AtBoundary sg x ↔ v.AtBoundary sg x := by
  obtain ⟨hconn, hext⟩ := (attachTo_elsewhere h hr).1 x hxop hxo
  obtain ⟨-, -, -, -, hin, hsg, -⟩ := attachTo_frame v op e i o
  unfold AtBoundary
  rw [hconn, hext, hin, hsg]

/-- The host takes over the flag of the module. -/
lemma flag_attachTo : (v.attachTo op e i o).flag =
      update (update v.flag (v.outMod op) (v.flag (v.outMod op) || v.flag e)) e false := by
  rcases h.followed hr with ⟨next, -, heq⟩ | ⟨ext, -, -, heq⟩
  · rw [heq]
    rfl
  · rw [heq]
    rfl

end

/-- **Attaching keeps the flags right.** -/
theorem Flags.attachTo (hf : v.Flags) (h : v.Tidy) (hr : Ready (· ∈ v.mods) v op e i o) :
    (v.attachTo op e i o).Flags := by
  obtain ⟨hmods, houts, -, -, -, hsg, -⟩ := attachTo_frame v op e i o
  have hwires := h.wired.wires
  have he : v.flag e = true ↔ v.AtBoundary (v.sg e) o := by
    rw [hf e hr.mod, hr.outs]
    simp
  intro m hm
  rw [hmods] at hm
  rw [flag_attachTo h hr, houts, hsg]
  by_cases hme : m = e
  · subst hme
    rw [update_self, hr.outs]
    simp [(atBoundary_attachTo h hr _).2]
  · rw [update_of_ne hme]
    by_cases hmh : m = v.outMod op
    · subst hmh
      -- the host: its other ports are as before, and the port takes over what the module had
      rw [update_self, Bool.or_eq_true, hf _ hm, he, ← hr.sameSg]
      have hnot := hr.not_atBoundary h
      rw [← hr.sameSg] at hnot
      have hmem : ∀ x ∈ v.outs (v.outMod op), x ≠ o := by
        rintro x hx rfl
        have hox := (hwires.outs_own e hr.mod x (hr.outs ▸ mem_singleton.mpr rfl)).1
        exact hme ((hwires.outs_own _ hm x hx).1.symm.trans hox)
      constructor
      · rintro (⟨x, hx, hb⟩ | hb)
        · have hxop : x ≠ op := by
            rintro rfl
            exact hnot hb
          exact ⟨x, hx, (atBoundary_attachTo_of_ne h hr hxop (hmem x hx) _).mpr hb⟩
        · exact ⟨op, hr.live.2, (atBoundary_attachTo h hr _).1.mpr hb⟩
      · rintro ⟨x, hx, hb⟩
        by_cases hxop : x = op
        · subst hxop
          exact Or.inr ((atBoundary_attachTo h hr _).1.mp hb)
        · exact Or.inl ⟨x, hx, (atBoundary_attachTo_of_ne h hr hxop (hmem x hx) _).mp hb⟩
    · rw [update_of_ne hmh, hf m hm]
      refine exists_congr fun x => and_congr_right fun hx => ?_
      refine (atBoundary_attachTo_of_ne h hr ?_ ?_ _).symm
      · rintro rfl
        exact hmh (hwires.outs_own m hm x hx).1.symm
      · rintro rfl
        have hox := (hwires.outs_own e hr.mod x (hr.outs ▸ mem_singleton.mpr rfl)).1
        exact hme ((hwires.outs_own m hm x hx).1.symm.trans hox)

/-- Marks elsewhere stay good. -/
lemma Marks.attachTo (h : v.Tidy) (hr : Ready (· ∈ v.mods) v op e i o) (hpo : v.pending o = false)
    (hm : ∀ op', op' ≠ op → v.OutLive (· ∈ v.mods) op' → v.pending op' = true →
      ∃ e i o, Ready (· ∈ v.mods) v op' e i o ∧ v.extOut o ≠ none) :
    (v.attachTo op e i o).Marks := by
  obtain ⟨hmods, houts, -, houtMod, -, -, hpending⟩ := attachTo_frame v op e i o
  have hwires := h.wired.wires
  intro op' hlive hp
  unfold OutLive at hlive
  rw [hmods, houts, houtMod] at hlive
  have hne : op' ≠ op := by
    rintro rfl
    rw [hpending, update_self] at hp
    cases hp
  rw [hpending, update_of_ne hne] at hp
  have hno : op' ≠ o := ne_of_apply_eq hp hpo nofun
  obtain ⟨e', i', o', hr', hext⟩ := hm op' hne hlive hp
  have hno' : o' ≠ op := by
    rintro rfl
    exact hext (hwires.extOut_none hr.live hr.conn)
  have hoo : o' ≠ o := by
    rintro rfl
    have ho := (hwires.outs_own e hr.mod o' (hr.outs ▸ mem_singleton.mpr rfl)).1
    have ho' := (hwires.outs_own e' hr'.mod o' (hr'.outs ▸ mem_singleton.mpr rfl)).1
    exact hr.mod_ne h hr' hne (ho'.symm.trans ho)
  refine ⟨e', i', o', hr.attachTo h hr' hne hno hno', ?_⟩
  rw [((attachTo_elsewhere h hr).1 o' hno' hoo).2]
  exact hext

/-- A mark may go. -/
lemma Marks.setPending_false (hm : v.Marks) (x : Addr) : (v.setPending x false).Marks := by
  intro op' hlive hp
  have hne : op' ≠ x := by
    rintro rfl
    simp [LinkView.setPending] at hp
  simp only [LinkView.setPending, update_of_ne hne] at hp
  obtain ⟨e', i', o', hr', hext⟩ := hm op' hlive hp
  exact ⟨e', i', o', hr'.setPending x false, hext⟩

/-- A mark may come where the module waits for an external port. -/
lemma Marks.setPending_true (hm : v.Marks) (hr : Ready (· ∈ v.mods) v op e i o)
    (hext : v.extOut o ≠ none) : (v.setPending op true).Marks := by
  intro op' hlive hp
  by_cases hne : op' = op
  · subst hne
    exact ⟨e, i, o, hr.setPending op' true, hext⟩
  · simp only [LinkView.setPending, update_of_ne hne] at hp
    obtain ⟨e', i', o', hr', hext'⟩ := hm op' hlive hp
    exact ⟨e', i', o', hr'.setPending op true, hext'⟩

/-- Marking and attaching keep `P`. -/
structure AttachClosed (P : LinkView → Prop) : Prop where
  setPending : ∀ {v} op b, P v → P (v.setPending op b)
  attachTo : ∀ {v op e i o}, P v → v.Tidy → Ready (· ∈ v.mods) v op e i o → P (v.attachTo op e i o)

/-- Marking and attaching keep the flags right. -/
lemma flags_attachClosed : AttachClosed Flags := ⟨fun _ _ hf => hf, Flags.attachTo⟩

variable {P : LinkView → Prop} (hP : AttachClosed P) (hv : P v) (hm : v.Marks) (h : v.Tidy)
include hP hv hm h

/-- **Pending attachments** keep `P` and the marks. -/
theorem AttachClosed.attach (hop : v.OutLive (· ∈ v.mods) op) :
    P (v.attach op) ∧ (v.attach op).Marks := by
  rcases (hm.attachable h).attach_cases h hop with heq | ⟨e, i, o, hp, hr, hpo, heq⟩
  · rw [heq]
    exact ⟨hv, hm⟩
  · rw [heq]
    exact ⟨hP.attachTo hv h hr, Marks.attachTo h hr hpo fun op' _ hlive hp' => hm op' hlive hp'⟩

/-- **Parsing** keeps `P` and the marks. -/
theorem AttachClosed.parsed {v' : LinkView} (hp : Parsed v v') : P v' ∧ v'.Marks := by
  cases hp with
  | none eq => exact eq ▸ ⟨hv, hm⟩
  | loop o eq =>
    have hset : (v.setPending o true).setPending o false = v.setPending o false := by
      simp [LinkView.setPending]
    rw [eq, hset]
    exact ⟨hP.setPending o false hv, hm.setPending_false o⟩
  | mark op e i o ext ready conn hext eq =>
    have hne : v.extOut o ≠ Option.none := by
      rw [hext]
      exact Option.some_ne_none ext
    exact eq ▸ ⟨hP.setPending op true hv, hm.setPending_true ready hne⟩
  | ext op e i o ext ready hext eq =>
    have hne : v.extOut o ≠ Option.none := by
      rw [hext]
      exact Option.some_ne_none ext
    have htidy := h.setPending op true
    have hready := ready.setPending op true
    have hmarks := hm.setPending_true ready hne
    have hpo := hmarks.unmarked htidy (h.wired.wires.ready_out ready).1 hne
    refine eq ▸ ⟨hP.attachTo (hP.setPending op true hv) htidy hready,
      Marks.attachTo htidy hready hpo ?_⟩
    exact fun op' _ hlive hp => hmarks op' hlive hp
  | int op e i o next ready conn eq =>
    have htidy := (h.setPending op true).setPending o false
    have hready := (ready.setPending op true).setPending o false
    refine eq ▸ ⟨hP.attachTo (hP.setPending o false (hP.setPending op true hv)) htidy hready,
      Marks.attachTo htidy hready (update_self _ _ _) ?_⟩
    intro op' hne hlive hp
    have hno : op' ≠ o := by
      rintro rfl
      simp [LinkView.setPending] at hp
    simp only [LinkView.setPending, update_of_ne hne, update_of_ne hno] at hp
    obtain ⟨e', i', o', hr', hext⟩ := hm op' hlive hp
    exact ⟨e', i', o', (hr'.setPending op true).setPending o false, hext⟩

end Attach

/-! ## Detaching -/

section Detach

variable {v v' : LinkView} {e : Addr}

/-- A detachment keeps modules, ports and marks. -/
lemma Detached.frame (hd : Detached v e v') :
    v'.mods = v.mods ∧ v'.outs = v.outs ∧ v'.ins = v.ins ∧ v'.outMod = v.outMod ∧
      v'.inMod = v.inMod ∧ v'.sg = v.sg ∧ v'.pending = v.pending := by
  cases hd with
  | ext op i o ext host ins outs hext => exact ⟨rfl, rfl, rfl, rfl, rfl, rfl, rfl⟩
  | int op i o next host ins outs hext conn => exact ⟨rfl, rfl, rfl, rfl, rfl, rfl, rfl⟩

/-- A detachment changes one link and one flag. -/
lemma Detached.elsewhere (hd : Detached v e v') :
    ∃ op i o, v.host e = some op ∧ v.ins e = [i] ∧ v.outs e = [o] ∧
      (∀ x, x ≠ op → x ≠ o → v'.connIn x = v.connIn x ∧ v'.extOut x = v.extOut x) ∧
      v'.attached = update v.attached op none ∧ v'.host = update v.host e none ∧
      (∀ m, m ≠ e → m ≠ v.outMod op → v'.flag m = v.flag m) := by
  cases hd with
  | ext op i o ext host ins outs hext =>
    refine ⟨op, i, o, host, ins, outs, ?_, rfl, rfl, ?_⟩
    · intro x hxop hxo
      simp [detachExt, update_of_ne hxop, update_of_ne hxo]
    · intro m hme hmh
      simp [update_of_ne hme, update_of_ne hmh]
  | int op i o next host ins outs hext conn =>
    refine ⟨op, i, o, host, ins, outs, ?_, rfl, rfl, ?_⟩
    · intro x hxop hxo
      simp [detachInt, update_of_ne hxop, update_of_ne hxo]
    · intro m hme hmh
      simp [update_of_ne hme, update_of_ne hmh]

/-- Detaching leaves the marks good. -/
lemma Marks.detached (hm : v.Marks) (h : v.Tidy) (he : e ∈ v.mods) (hd : Detached v e v') :
    v'.Marks := by
  obtain ⟨hmods, houts, hins, houtMod, -, hsg, hpending⟩ := hd.frame
  obtain ⟨op₀, i₀, o₀, hhost₀, hins₀, houts₀, hports, hatt, hhost, -⟩ := hd.elsewhere
  obtain ⟨-, hatt₀, -⟩ := h.wired.wires.hosted he hhost₀ hins₀ houts₀
  have howner₀ : v.outMod o₀ = e :=
    (h.wired.wires.outs_own e he o₀ (houts₀ ▸ mem_singleton.mpr rfl)).1
  intro op hlive hp
  unfold OutLive at hlive
  rw [hmods, houts, houtMod] at hlive
  rw [hpending] at hp
  obtain ⟨e₁, i₁, o₁, hr, hext⟩ := hm op hlive hp
  have hop : op ≠ op₀ := ne_of_apply_eq hr.unattached hatt₀ nofun
  have ho : op ≠ o₀ := by
    rintro rfl
    have hun := hr.host_unhosted
    rw [howner₀, hhost₀] at hun
    cases hun
  have ho₁ : o₁ ≠ op₀ := ne_of_apply_eq hr.out_unattached hatt₀ nofun
  have ho₁' : o₁ ≠ o₀ := by
    rintro rfl
    have howner := (h.wired.wires.outs_own e₁ hr.mod o₁ (hr.outs ▸ mem_singleton.mpr rfl)).1
    have hun := hr.unhosted
    rw [← howner, howner₀, hhost₀] at hun
    cases hun
  refine ⟨e₁, i₁, o₁, ⟨?_, ?_, ?_, ?_, ?_, ?_, ?_, ?_, ?_, ?_, ?_⟩, ?_⟩
  · unfold OutLive
    rw [hmods, houts, houtMod]
    exact hr.live
  · rw [hmods]
    exact hr.mod
  · rw [(hports op hop ho).1]
    exact hr.conn
  · rw [hins]
    exact hr.ins
  · rw [houts]
    exact hr.outs
  · rw [hhost]
    exact update_none hr.unhosted e
  · rw [houtMod, hhost]
    exact update_none hr.host_unhosted e
  · rw [hatt]
    exact update_none hr.unattached op₀
  · rw [hatt]
    exact update_none hr.out_unattached op₀
  · rw [houtMod, hsg]
    exact hr.sameSg
  · rw [houtMod]
    exact hr.apart
  · rw [(hports o₁ ho₁ ho₁').2]
    exact hext

/-- No other output port of the module's host is at a boundary. -/
def OnlyPort (v : LinkView) (e : Addr) : Prop :=
  ∀ op, v.host e = some op → ∀ x ∈ v.outs (v.outMod op), x ≠ op →
    ¬ v.AtBoundary (v.sg (v.outMod op)) x

/-- **Detaching from a host with no other port at a boundary keeps the flags right.** -/
theorem Flags.detached (hf : v.Flags) (h : v.Tidy) (he : e ∈ v.mods) (hd : Detached v e v')
    (honly : v.OnlyPort e) : v'.Flags := by
  have hwires := h.wired.wires
  obtain ⟨hmods, houts, -, -, hinMod, hsg, -⟩ := hd.frame
  obtain ⟨op, i, o, hhost, hins, houts₀, hports, -, -, hflag⟩ := hd.elsewhere
  obtain ⟨hlive, -, -, -, -, -, hco, heo, -, hsame, hunhosted⟩ := hwires.hosted he hhost hins houts₀
  have howner : v.outMod o = e := (hwires.outs_own e he o (houts₀ ▸ mem_singleton.mpr rfl)).1
  have howner' : v.inMod i = e := (hwires.ins_own e he i (hins ▸ mem_singleton.mpr rfl)).1
  have hne : v.outMod op ≠ e := by
    intro heq
    rw [heq, hhost] at hunhosted
    cases hunhosted
  have hoop : o ≠ op := by
    rintro rfl
    exact hne howner
  -- ports elsewhere lead to where they led
  have hsame_port : ∀ sg x, x ≠ op → x ≠ o → (v'.AtBoundary sg x ↔ v.AtBoundary sg x) := by
    intro sg x hxop hxo
    unfold AtBoundary
    rw [(hports x hxop hxo).1, (hports x hxop hxo).2, hinMod, hsg]
  intro m hm
  rw [hmods] at hm
  rw [houts, hsg]
  by_cases hme : m = e
  · subst hme
    have hdown : v.flag m = false := by
      rw [← Bool.not_eq_true, hf m he, houts₀]
      simp [AtBoundary, hco, heo]
    rw [houts₀]
    cases hd with
    | ext op' i' o' ext host ins outs hext =>
      obtain rfl : o = o' := singleton_inj.mp (houts₀.symm.trans outs)
      obtain rfl : op = op' := Option.some.inj (hhost.symm.trans host)
      simp [AtBoundary, detachExt, update_of_ne hoop]
    | int op' i' o' next host ins outs hext conn =>
      obtain rfl : o = o' := singleton_inj.mp (houts₀.symm.trans outs)
      obtain rfl : op = op' := Option.some.inj (hhost.symm.trans host)
      -- the flag of the host stood for this port alone
      have hhostflag : v.flag (v.outMod op) = true ↔ v.sg (v.inMod next) ≠ v.sg m := by
        rw [hf _ hlive.1]
        constructor
        · rintro ⟨x, hx, hb⟩
          by_cases hxop : x = op
          · subst hxop
            rcases hb with hb | ⟨i'', hi'', hb⟩
            · exact absurd hext hb
            · rw [conn, Option.some.injEq] at hi''
              rw [hi'', ← hsame]
              exact hb
          · exact absurd hb (honly op hhost x hx hxop)
        · intro hb
          refine ⟨op, hlive.2, Or.inr ⟨next, conn, ?_⟩⟩
          rw [hsame]
          exact hb
      simp [AtBoundary, detachInt, update_of_ne hne.symm, hdown, heo, hhostflag]
  · have hxo : ∀ x ∈ v.outs m, x ≠ o := by
      rintro x hx rfl
      exact hme ((hwires.outs_own m hm x hx).1.symm.trans howner)
    by_cases hmh : m = v.outMod op
    · subst hmh
      have hdown : v'.flag (v.outMod op) = false := by
        cases hd with
        | ext op' i' o' ext host ins outs hext =>
          obtain rfl : op = op' := Option.some.inj (hhost.symm.trans host)
          simp [update_of_ne hme]
        | int op' i' o' next host ins outs hext conn =>
          obtain rfl : op = op' := Option.some.inj (hhost.symm.trans host)
          simp
      rw [hdown]
      refine ⟨fun hfalse => (Bool.false_ne_true hfalse).elim, ?_⟩
      rintro ⟨x, hx, hb⟩
      by_cases hxop : x = op
      · subst hxop
        -- the host port leads to the module, in the same subgraph
        cases hd with
        | ext op' i' o' ext host ins outs hext =>
          obtain rfl : x = op' := Option.some.inj (hhost.symm.trans host)
          obtain rfl : i = i' := singleton_inj.mp (hins.symm.trans ins)
          simp [AtBoundary, detachExt, howner', hsame] at hb
        | int op' i' o' next host ins outs hext conn =>
          obtain rfl : x = op' := Option.some.inj (hhost.symm.trans host)
          obtain rfl : i = i' := singleton_inj.mp (hins.symm.trans ins)
          obtain rfl : o = o' := singleton_inj.mp (houts₀.symm.trans outs)
          simp [AtBoundary, detachInt, update_of_ne hoop.symm, howner', hsame, hext] at hb
      · exact absurd ((hsame_port _ x hxop (hxo x hx)).mp hb) (honly op hhost x hx hxop)
    · rw [hflag m hme hmh, hf m hm]
      refine exists_congr fun x => and_congr_right fun hx => (hsame_port _ x ?_ (hxo x hx)).symm
      rintro rfl
      exact hmh (hwires.outs_own m hm x hx).1.symm

end Detach

/-! ## Creation -/

section Creation

variable {v v' : LinkView} {L : List UInt32}

/-- The flags are right and nothing is marked, as long as no elementary module was looked for. -/
def Unmarked (v : LinkView) : Prop :=
  v.Flags ∧ ∀ o, v.OutLive (· ∈ v.mods) o → v.pending o = false

/-- A port leads out as before if its link is as before. -/
lemma atBoundary_congr (v' : LinkView) {M : Addr → Prop} (hw : Wires M M v) {o : Addr}
    (ho : v.OutLive M o) (hconn : v'.connIn o = v.connIn o) (hext : v'.extOut o = v.extOut o)
    (hin : ∀ i, v.InLive M i → v'.sg (v'.inMod i) = v.sg (v.inMod i)) (sg : Addr) :
    v'.AtBoundary sg o ↔ v.AtBoundary sg o := by
  unfold AtBoundary
  rw [hconn, hext]
  refine or_congr_right (exists_congr fun i => and_congr_right fun hi => ?_)
  rw [hin i (hw.conn.right o i ho hi).1]

variable {ports : List Addr} {s : Addr}

/-- The flags after a module has got a new output port. -/
lemma Flags.addPort (hf : v.Flags) (hw : v.Wired) {b : Bool} (hs : s ∈ v.mods)
    (hports : ports.Perm (v.next :: v.outs s)) (hmods : v'.mods = v.mods)
    (houts : v'.outs = update v.outs s ports) (hsg : v'.sg = v.sg)
    (hflag : v'.flag = update v.flag s (v.flag s || b))
    (hnew : v'.AtBoundary (v.sg s) v.next ↔ b = true)
    (hold : ∀ o, v.OutLive (· ∈ v.mods) o → v'.connIn o = v.connIn o ∧ v'.extOut o = v.extOut o)
    (hin : ∀ i, v.InLive (· ∈ v.mods) i → v'.inMod i = v.inMod i) : v'.Flags := by
  have hsame : ∀ m ∈ v.mods, ∀ o ∈ v.outs m, ∀ sg, v'.AtBoundary sg o ↔ v.AtBoundary sg o := by
    intro m hm o ho
    have hlive := hw.wires.outLive hm ho
    refine atBoundary_congr _ hw.wires hlive (hold o hlive).1 (hold o hlive).2 fun i hi => ?_
    rw [hsg, hin i hi]
  intro m hm
  rw [hmods] at hm
  rw [houts, hsg, hflag]
  by_cases hms : m = s
  · subst hms
    rw [update_self, update_self, Bool.or_eq_true, hf m hm, ← hnew]
    constructor
    · rintro (⟨o, ho, hb⟩ | hb)
      · exact ⟨o, hports.mem_iff.mpr (mem_cons_of_mem _ ho), (hsame m hm o ho _).mpr hb⟩
      · exact ⟨v.next, hports.mem_iff.mpr mem_cons_self, hb⟩
    · rintro ⟨o, ho, hb⟩
      rcases mem_cons.mp (hports.mem_iff.mp ho) with rfl | ho
      · exact Or.inr hb
      · exact Or.inl ⟨o, ho, (hsame m hm o ho _).mp hb⟩
  · rw [update_of_ne hms, update_of_ne hms, hf m hm]
    exact exists_congr fun o => and_congr_right fun ho => (hsame m hm o ho _).symm

/-- A new module has no port and its flag down. -/
lemma Flags.addMod (hf : v.Flags) (hw : v.Wired) {sg : Addr} (hsg : sg ∈ v.sgs) (iid : UInt32) :
    (v.addMod sg iid).Flags := by
  have hne : ∀ {m}, m ∈ v.mods → m ≠ v.next :=
    fun hm => Nat.ne_of_lt (hw.wires.mods_lt _ hm)
  intro m hm
  rcases (mem_mods_addMod hsg iid m).mp hm with rfl | hm
  · simp [LinkView.addMod, adopt, blank]
  · have hfields : (v.addMod sg iid).flag m = v.flag m ∧ (v.addMod sg iid).outs m = v.outs m ∧
        (v.addMod sg iid).sg m = v.sg m := by
      simp [LinkView.addMod, adopt, blank, alloc, update_of_ne (hne hm)]
    rw [hfields.1, hfields.2.1, hfields.2.2, hf m hm]
    refine exists_congr fun o => and_congr_right fun ho => ?_
    refine (atBoundary_congr (v.addMod sg iid) hw.wires (hw.wires.outLive hm ho) rfl rfl
      (fun i hi => ?_) _).symm
    exact update_of_ne (hne hi.1) _ _

/-- The next address is not a port in use. -/
lemma Wired.ne_next (hw : v.Wired) {o : Addr} (ho : v.OutLive (· ∈ v.mods) o) : o ≠ v.next :=
  Nat.ne_of_lt (hw.wires.outLive_lt ho)

/-- A new port is not marked. -/
lemma pending_addPort (hports : ports.Perm (v.next :: v.outs s)) (hmods : v'.mods = v.mods)
    (houts : v'.outs = update v.outs s ports) (houtMod : v'.outMod = update v.outMod v.next s)
    (hpending : v'.pending = update v.pending v.next false)
    (hold : ∀ o, v.OutLive (· ∈ v.mods) o → v.pending o = false) :
    ∀ o, v'.OutLive (· ∈ v'.mods) o → v'.pending o = false := by
  rintro o ⟨hm, ho⟩
  rw [hpending]
  by_cases hnext : o = v.next
  · subst hnext
    exact update_self _ _ _
  · rw [update_of_ne hnext]
    rw [houtMod, update_of_ne hnext] at hm ho
    rw [hmods] at hm
    rw [houts] at ho
    exact hold o ⟨hm, (Building.mem_update_ports hports ho).resolve_left hnext⟩

/-- **The flags are right all through a creation.** -/
theorem unmarked_growClosed (L : List UInt32) :
    GrowClosed L fun v => v.Building L ∧ v.Unmarked := by
  rintro v v' ⟨hb, hf, hp⟩ hgrown
  refine ⟨building_growClosed L v v' hb hgrown, ?_⟩
  have hw := hb.wired
  cases hgrown with
  | alloc => exact ⟨hf, hp⟩
  | status m status touched => exact ⟨hf, hp⟩
  | subgraph =>
    have hmods := mods_addSg hw.sgs_lt
    refine ⟨?_, ?_⟩
    · intro m hm
      rw [hmods] at hm
      exact hf m hm
    · intro o ho
      rw [hmods] at ho
      exact hp o ho
  | module sg mem iid =>
    refine ⟨hf.addMod hw mem iid, ?_⟩
    rintro o ⟨hm, ho⟩
    rcases (mem_mods_addMod mem iid _).mp hm with heq | hm
    · rw [heq] at ho
      simp [LinkView.addMod, adopt, blank] at ho
    · have hne : v.outMod o ≠ v.next := Nat.ne_of_lt (hw.wires.mods_lt _ hm)
      have ho' : o ∈ v.outs (v.outMod o) := by
        simpa [LinkView.addMod, adopt, blank, alloc, update_of_ne hne] using ho
      exact hp o ⟨hm, ho'⟩
  | limits m a b ha hb => exact ⟨hf, hp⟩
  | both s d outs ins st st' src dst =>
    refine ⟨hf.addPort hw src.mem src.ports rfl rfl rfl rfl ?_ ?_ ?_,
      pending_addPort src.ports rfl rfl rfl rfl hp⟩
    · -- the new port leads to `d`
      simp [AtBoundary, connect, withIn, withOut, addOut, addIn, alloc, ne_comm]
    · intro o ho
      simp [connect, withIn, withOut, addOut, addIn, alloc, update_of_ne (hw.ne_next ho)]
    · intro i hi
      have hne : i ≠ v.next + 1 := Nat.ne_of_lt (Nat.lt_succ_of_lt (hw.wires.inLive_lt hi))
      simp [connect, withIn, withOut, addOut, addIn, alloc, update_of_ne hne]
  | out s outs st src =>
    refine ⟨hf.addPort hw src.mem src.ports rfl rfl rfl rfl ?_ ?_ fun _ _ => rfl,
      pending_addPort src.ports rfl rfl rfl rfl hp⟩
    · simp [AtBoundary, extendOut]
    · intro o ho
      simp [extendOut, withOut, addOut, alloc, update_of_ne (hw.ne_next ho)]
  | inp d ins st dst =>
    refine ⟨?_, hp⟩
    intro m hm
    refine (hf m hm).trans (exists_congr fun o => and_congr_right fun ho => ?_)
    refine (atBoundary_congr ((v.withIn d ins st).alloc.extendIn v.next (v.next + 1)) hw.wires
      (hw.wires.outLive hm ho) rfl rfl (fun i hi => ?_) _).symm
    have hne : i ≠ v.next := Nat.ne_of_lt (hw.wires.inLive_lt hi)
    simp [extendIn, withIn, addIn, alloc, update_of_ne hne]

/-- The note on the ports marks nothing. -/
lemma Unmarked.noteSiso (h : v.Unmarked) (m : Addr) : (v.noteSiso m).Unmarked := by
  unfold LinkView.noteSiso
  split
  · exact h
  · exact h

end Creation

end LinkView

/-! ## Runs -/

/-- The calls that attach and detach elementary modules. -/
inductive AttachOp
  /-- `gu_parse_and_attach_elementary_module` for a link between two modules. -/
  | parse (src dst : Option Addr)
  /-- `gu_attach_module` for an output port. -/
  | attach (op : Addr)
  /-- `gu_attach_pending_elementary_modules`. -/
  | attachPending
  /-- `gu_detach_module`. -/
  | detach (e : Addr)
  /-- A connect command has made the peer of an external output port known. -/
  | connect (ext : Addr)
  deriving DecidableEq, Repr

namespace GuWorld

/-- The peer of an external output port is known. -/
def connectExt (w : GuWorld) (ext : Addr) : GuWorld :=
  { w with
    downstreamHandle := update w.downstreamHandle ext
      { w.downstreamHandle ext with spfHandle := true } }

/-- One call.  Callers pass modules and ports of the graph. -/
def attachStep (w : GuWorld) : AttachOp → GuWorld
  | .parse src dst => endState (guParseAndAttachElementaryModule
      (src.filter (· ∈ w.modules)) (dst.filter (· ∈ w.modules))) w
  | .attach op => if op ∈ w.outPorts then endState (guAttachModule op) w else w
  | .attachPending => endState guAttachPendingElementaryModules w
  | .detach e => if e ∈ w.modules then endState (guDetachModule e) w else w
  | .connect ext => w.connectExt ext

/-- The flag of every module that is not attached says whether one of its output ports has
an external port or leads to another subgraph. -/
def BoundaryFlags (w : GuWorld) : Prop :=
  ∀ m ∈ w.modules, w.hostOutputPort m = none → (w.isDsAtSgOrCntrBoundary m = true ↔
      ∃ o ∈ w.outputPortList m, w.dsBoundary (w.moduleSg m) o = true)

instance (w : GuWorld) : Decidable w.BoundaryFlags :=
  inferInstanceAs (Decidable (∀ m ∈ w.modules, w.hostOutputPort m = none →
    (w.isDsAtSgOrCntrBoundary m = true ↔
      ∃ o ∈ w.outputPortList m, w.dsBoundary (w.moduleSg m) o = true)))

/-- A module is detached only when its host has no other output port at a boundary. -/
def DetachCond (w : GuWorld) : AttachOp → Prop
  | .detach e => e ∈ w.modules → ∀ op ∈ w.hostOutputPort e, ∀ o ∈ w.outputPortList (w.outModule op),
      o ≠ op → w.dsBoundary (w.moduleSg (w.outModule op)) o = false
  | _ => True

instance (w : GuWorld) : (op : AttachOp) → Decidable (w.DetachCond op)
  | .detach e => inferInstanceAs (Decidable (e ∈ w.modules → ∀ op ∈ w.hostOutputPort e,
      ∀ o ∈ w.outputPortList (w.outModule op), o ≠ op →
        w.dsBoundary (w.moduleSg (w.outModule op)) o = false))
  | .parse _ _ => inferInstanceAs (Decidable True)
  | .attach _ => inferInstanceAs (Decidable True)
  | .attachPending => inferInstanceAs (Decidable True)
  | .connect _ => inferInstanceAs (Decidable True)

end GuWorld

section Runs

open LinkView (AttachClosed Detached Flags Marks Unmarked Building flags_attachClosed)

/-- The test of the code is the one of the view. -/
lemma dsBoundary_iff (w : GuWorld) (sg o : Addr) :
    w.dsBoundary sg o = true ↔ w.linkView.AtBoundary sg o := by
  unfold GuWorld.dsBoundary LinkView.AtBoundary
  rw [Bool.or_eq_true, Option.isSome_iff_ne_none]
  refine or_congr_right ?_
  change _ ↔ ∃ i, w.connInPort o = some i ∧ w.moduleSg (w.inModule i) ≠ sg
  cases w.connInPort o with
  | none => simp
  | some i => simp

/-- The invariant of the runs. -/
def FlagsOk (w : GuWorld) : Prop :=
  OnLinks (fun v => v.Tidy ∧ v.Flags ∧ v.Marks) w

/-- The invariant has the flags right. -/
lemma FlagsOk.boundaryFlags {w : GuWorld} (h : FlagsOk w) : w.BoundaryFlags := by
  intro m hm _
  refine (h.2.1 m hm).trans (exists_congr fun o => and_congr_right fun _ => ?_)
  exact (dsBoundary_iff w _ o).symm

/-- **One call** keeps what parsing and attaching keep, if detaching keeps it. -/
theorem LinkView.AttachClosed.attachStep {P : LinkView → Prop} (hP : AttachClosed P) {w : GuWorld}
    {op : AttachOp} (hdetach : ∀ e v', op = .detach e → e ∈ w.modules →
      P w.linkView → Detached w.linkView e v' → P v')
    (h : OnLinks (fun v => v.Tidy ∧ P v ∧ v.Marks) w) :
    OnLinks (fun v => v.Tidy ∧ P v ∧ v.Marks) (w.attachStep op) := by
  obtain ⟨htidy, hw, hmarks⟩ := h
  cases op with
  | parse src dst =>
    have hfilter : ∀ (x : Option Addr) m, x.filter (· ∈ w.modules) = some m → m ∈ w.linkView.mods :=
      fun x m hm => of_decide_eq_true (Option.filter_eq_some_iff.mp hm).2
    refine ((guParseAndAttach_spec htidy (hfilter src) (hfilter dst)).post ?_
      fun _ h => h.elim).endState rfl
    exact fun _ w' hp => ⟨hp.tidy htidy, hP.parsed hw hmarks htidy hp⟩
  | attach op =>
    simp only [GuWorld.attachStep]
    split
    · rename_i hop
      have hlive : w.linkView.OutLive (· ∈ w.linkView.mods) op := by
        obtain ⟨m, hm, hmem⟩ := mem_flatMap.mp hop
        exact htidy.wired.wires.outLive hm hmem
      unfold OnLinks
      rw [guAttachModule_linkView]
      exact ⟨((hmarks.attachable htidy).attach htidy hlive).1, hP.attach hw hmarks htidy hlive⟩
    · exact ⟨htidy, hw, hmarks⟩
  | attachPending =>
    refine (guAttachPendingElementaryModules_keeps ?_).endState ⟨htidy, hw, hmarks⟩
    intro v op htidy' hv hlive
    exact ⟨((hv.2.attachable htidy').attach htidy' hlive).1, hP.attach hv.1 hv.2 htidy' hlive⟩
  | detach e =>
    simp only [GuWorld.attachStep]
    split
    · rename_i he
      refine ((guDetachModule_spec htidy he).post ?_ ?_).endState rfl
      · exact fun _ w' hd =>
          ⟨hd.tidy htidy he, hdetach e _ rfl he hw hd, hmarks.detached htidy he hd⟩
      · intro w' hw'
        unfold OnLinks
        rw [show w'.linkView = w.linkView from hw']
        exact ⟨htidy, hw, hmarks⟩
    · exact ⟨htidy, hw, hmarks⟩
  | connect ext => exact ⟨htidy, hw, hmarks⟩

/-- The invariant holds after every call that meets the condition. -/
theorem FlagsOk.attachStep {w : GuWorld} (h : FlagsOk w) {op : AttachOp} (hcond : w.DetachCond op) :
    FlagsOk (w.attachStep op) := by
  refine flags_attachClosed.attachStep (fun e v' hop he hf hd => hf.detached h.1 he hd ?_) h
  subst hop
  intro op hhost o ho hne hb
  have hno := hcond he op hhost o ho hne
  rw [← Bool.not_eq_true, dsBoundary_iff] at hno
  exact hno hb

/-- A freshly created graph. -/
lemma guCreateGraph_flagsOk {env : OpenEnv} {cmd : GraphOpenCmd} {mallocs : List Bool} {w : GuWorld}
    (hopen : guCreateGraph env cmd { GuWorld.init with mallocs := mallocs } = .ok () w) :
    FlagsOk w := by
  let L := cmd.newIids ++ cmd.linkIids
  have hreturns := guCreateGraph_returns
    (Q := fun v => v.Flags ∧ v.Marks) (LinkView.unmarked_growClosed L)
    (fun v m hv => hv.noteSiso m) ?_
    (fun v v' htidy hv hp => flags_attachClosed.parsed hv.1 hv.2 htidy hp) env
    (fun iid h => mem_append_left _ h) (fun iid h => mem_append_right _ h)
  · have hinit : Sync (fun v => v.Building L ∧ v.Unmarked)
        { GuWorld.init with mallocs := mallocs } := by
      refine ⟨rfl, Building.empty rfl rfl rfl, ?_, ?_⟩
      · intro m hm
        cases hm
      · intro o ho
        cases ho.1
    have hend := hreturns _ hinit
    rw [hopen] at hend
    exact hend.2
  · intro v htidy hv
    refine ⟨hv.1, ?_⟩
    intro op hlive hp
    rw [hv.2 op hlive] at hp
    cases hp

/-- **The boundary flags along a run.** -/
theorem boundaryFlags_along {env : OpenEnv} {cmd : GraphOpenCmd} {mallocs : List Bool} {w : GuWorld}
    (hopen : guCreateGraph env cmd { GuWorld.init with mallocs := mallocs } = .ok () w)
    {ops : List AttachOp} (hcond : Meets GuWorld.attachStep GuWorld.DetachCond w ops) :
    Along GuWorld.attachStep GuWorld.BoundaryFlags w ops :=
  (along_of_meets (I := FlagsOk) (fun _ _ h hc => h.attachStep hc) (guCreateGraph_flagsOk hopen)
    hcond).mono fun _ h => h.boundaryFlags

/-- **The links along a run.** In a graph that was created by an open all links are symmetric and
all ports have their connections, in whatever order elementary modules are attached and detached. -/
theorem links_tidy_along {env : OpenEnv} {cmd : GraphOpenCmd} {mallocs : List Bool} {w : GuWorld}
    (hopen : guCreateGraph env cmd { GuWorld.init with mallocs := mallocs } = .ok () w)
    (ops : List AttachOp) :
    Along GuWorld.attachStep (fun w => w.linkView.Tidy ∧ w.SymmetricLinks) w ops := by
  have hall : AttachClosed fun _ => True := ⟨fun _ _ _ => trivial, fun _ _ _ => trivial⟩
  obtain ⟨htidy, -, hmarks⟩ := guCreateGraph_flagsOk hopen
  refine (along_of_meets (C := fun _ _ => True)
    (fun _ _ h _ => hall.attachStep (fun _ _ _ _ _ _ => trivial) h) ⟨htidy, trivial, hmarks⟩
    (meets_of_forall (fun _ _ => trivial) _ _)).mono fun w h => ?_
  exact ⟨h.1, GuWorld.symmetricLinks_of_wired h.1.wired⟩

end Runs

/-! ## A host with two outputs -/

/-- A module database in which module 2 is elementary. -/
def oneElementary : OpenEnv where
  amdb := fun id => ⟨true, AMDB_INTERFACE_TYPE_CAPI, 3, true, id = 2, none⟩
  island := false
  hostDomainId := 2

/-- A source with two outputs, an elementary module and a sink, with the given links. -/
def openSplitter (links : List ApmModuleConnCfg) : GraphOpenCmd where
  sgCfgList := [⟨0xA1, []⟩]
  modList := [⟨0xA1, [⟨1, 0x4001⟩, ⟨2, 0x4002⟩, ⟨3, 0x4003⟩]⟩]
  modPropCfgList :=
    [⟨0x4001, [.portInfo 8 0 2]⟩, ⟨0x4002, [.portInfo 8 1 1]⟩, ⟨0x4003, [.portInfo 8 1 0]⟩]
  modConnList := links
  modCtrlLinkCfgList := []
  imclPeerDomainInfo := []

/-- The graph after the open. -/
def splitterGraph (links : List ApmModuleConnCfg) : GuWorld :=
  endState (guCreateGraph oneElementary (openSplitter links)) GuWorld.init

/-- The elementary module sits between source and sink; the other output of the source leads to
another container. -/
def outerLink : List ApmModuleConnCfg :=
  [⟨0x4001, 1, 0x4002, 2⟩, ⟨0x4002, 1, 0x4003, 2⟩, ⟨0x4001, 3, 0x5001, 2⟩]

/-- The elementary module leads to another container; the other output of the source leads
to the sink. -/
def innerLink : List ApmModuleConnCfg :=
  [⟨0x4001, 1, 0x4002, 2⟩, ⟨0x4002, 1, 0x5001, 2⟩, ⟨0x4001, 3, 0x4003, 2⟩]

/-- **The flag is lost.** The elementary module was attached to the source when the graph was
created.  Detaching it clears the flag of the source, whose other output is external. -/
theorem not_boundaryFlags_along :
    ¬ ∀ (env : OpenEnv) (cmd : GraphOpenCmd) (mallocs : List Bool) (w : GuWorld),
      guCreateGraph env cmd { GuWorld.init with mallocs := mallocs } = .ok () w →
        ∀ ops, Along GuWorld.attachStep GuWorld.BoundaryFlags w ops := by
  intro h
  have hopen := eq_ok_of_succeeds
    (x := guCreateGraph oneElementary (openSplitter outerLink)) (s := GuWorld.init)
    (by decide +kernel)
  have hflags := (h _ _ [] _ hopen [.detach 2]).last
  have hlost : ¬ (run GuWorld.attachStep (splitterGraph outerLink) [.detach 2]).BoundaryFlags := by
    decide +kernel
  exact hlost hflags

/-- Links that the flag does not follow stay symmetric. -/
theorem links_tidy_along_outerLink :
    Along GuWorld.attachStep (fun w => w.linkView.Tidy ∧ w.SymmetricLinks) (splitterGraph outerLink)
      [.detach 2, .parse (some 1) (some 2), .attachPending, .detach 2] :=
  @links_tidy_along oneElementary (openSplitter outerLink) [] _
    (eq_ok_of_succeeds (by decide +kernel)) _

/-- With the other output inside the subgraph, the flag follows the elementary module back and
forth. -/
theorem boundaryFlags_along_innerLink :
    (run GuWorld.attachStep (splitterGraph innerLink) [.attachPending]).hostOutputPort 2 = some 4 ∧
      Along GuWorld.attachStep GuWorld.BoundaryFlags (splitterGraph innerLink)
        [.attachPending, .detach 2, .connect 7, .parse (some 1) (some 2), .detach 2] :=
  ⟨by decide +kernel, @boundaryFlags_along oneElementary (openSplitter innerLink) [] _
    (eq_ok_of_succeeds (by decide +kernel)) _ (by decide +kernel)⟩

end AudioReach
