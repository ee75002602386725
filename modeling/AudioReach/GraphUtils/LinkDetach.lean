import AudioReach.GraphUtils.LinkAttach

/-!
# Detachments and pending attachments

`gu_detach_module` undoes an attachment.  `gu_attach_pending_elementary_modules` makes up
for the attachments that had to wait for an external port; it goes through all output
ports and trusts the mark on them, without the checks that were made when the mark was set.
It keeps the graph tidy as long as each of these marks still stands for a module that could be
attached now: `Attachable`.
-/

namespace AudioReach

open Function (update update_of_ne update_self)
open Library

namespace LinkView

/-- What `gu_detach_module` does to an attached module. -/
inductive Detached (v : LinkView) (e : Addr) : LinkView → Prop
  /-- The module is put back in front of an external port. -/
  | ext (op i o ext : Addr) (host : v.host e = some op) (ins : v.ins e = [i]) (outs : v.outs e = [o])
      (hext : v.extOut op = some ext) : Detached v e { v.detachExt op e i o ext with
        flag := update (update v.flag (v.outMod op) false) e true }
  /-- The module is put back in front of a port. -/
  | int (op i o next : Addr) (host : v.host e = some op) (ins : v.ins e = [i])
      (outs : v.outs e = [o]) (ext : v.extOut op = none) (conn : v.connIn op = some next) :
      Detached v e { v.detachInt op e i o next with
        flag := update (update v.flag e (v.flag e || v.flag (v.outMod op))) (v.outMod op) false }

variable {e op i o : Addr} {v : LinkView}

/-- **Detaching keeps the graph tidy.** -/
theorem Detached.tidy {v' : LinkView} (h : v.Tidy) (he : e ∈ v.mods)
    (hd : Detached v e v') : v'.Tidy := by
  have hw := h.wired.wires
  cases hd with
  | ext op i o ext host ins outs hext =>
    have hoop : o ≠ op := by
      rintro rfl
      obtain ⟨-, -, -, -, -, -, -, hnone, -⟩ := hw.hosted he host ins outs
      rw [hnone] at hext
      cases hext
    exact ⟨{ h.wired with wires := { hw.detachExt he host ins outs hext with } },
      h.connected.detachExt ins outs hoop, h.siso⟩
  | int op i o next host ins outs hext hconn =>
    exact ⟨{ h.wired with wires := { hw.detachInt he host ins outs hconn with } },
      h.connected.detachInt ins outs, h.siso⟩

/-- Every marked port that leads somewhere leads to a module that can be attached, and whose own
output port is not marked. -/
def Attachable (v : LinkView) : Prop :=
  ∀ op, v.OutLive (· ∈ v.mods) op → v.pending op = true → v.connIn op ≠ none →
    ∃ e i o, Ready (· ∈ v.mods) v op e i o ∧ v.pending o = false

/-- An attachment keeps modules and ports. -/
lemma attachTo_frame (v : LinkView) (op e i o : Addr) :
    (v.attachTo op e i o).mods = v.mods ∧ (v.attachTo op e i o).outs = v.outs ∧
      (v.attachTo op e i o).ins = v.ins ∧ (v.attachTo op e i o).outMod = v.outMod ∧
      (v.attachTo op e i o).inMod = v.inMod ∧ (v.attachTo op e i o).sg = v.sg ∧
      (v.attachTo op e i o).pending = update v.pending op false := by
  unfold attachTo
  split
  · exact ⟨rfl, rfl, rfl, rfl, rfl, rfl, rfl⟩
  · exact ⟨rfl, rfl, rfl, rfl, rfl, rfl, rfl⟩
  · exact ⟨rfl, rfl, rfl, rfl, rfl, rfl, rfl⟩

/-- An attachment changes the links of two ports only. -/
lemma attachTo_elsewhere (h : v.Tidy) (hr : Ready (· ∈ v.mods) v op e i o) :
    (∀ x, x ≠ op → x ≠ o → (v.attachTo op e i o).connIn x = v.connIn x ∧
      (v.attachTo op e i o).extOut x = v.extOut x) ∧
    (∀ x, x ≠ op → (v.attachTo op e i o).attached x = v.attached x) ∧
    (∀ x, x ≠ e → (v.attachTo op e i o).host x = v.host x) := by
  rcases h.followed hr with ⟨next, -, heq⟩ | ⟨ext, -, -, heq⟩
  · rw [heq]
    refine ⟨?_, fun x hx => update_of_ne hx _ _, fun x hx => update_of_ne hx _ _⟩
    intro x hxop hxo
    refine ⟨?_, rfl⟩
    simp only [moveFlag, attachInt, update_of_ne hxop, update_of_ne hxo]
  · rw [heq]
    refine ⟨?_, fun x hx => update_of_ne hx _ _, fun x hx => update_of_ne hx _ _⟩
    intro x hxop hxo
    refine ⟨update_of_ne hxop _ _, ?_⟩
    simp only [moveFlag, attachExt, update_of_ne hxop, update_of_ne hxo]

section

variable {op' e' i' o' : Addr} (h : v.Tidy) (hr : Ready (· ∈ v.mods) v op e i o)
  (hr' : Ready (· ∈ v.mods) v op' e' i' o') (hop : op' ≠ op)
include h hr hr' hop

/-- Two attached modules are different. -/
lemma Ready.mod_ne : e' ≠ e := by
  rintro rfl
  have hii : i' = i := List.singleton_inj.mp (hr'.ins.symm.trans hr.ins)
  exact hop (h.wired.wires.conn.injective hr'.live hr.live hr'.conn (hii ▸ hr.conn))

/-- A module that could be attached still can be after another attachment, unless the two
touch. -/
lemma Ready.attachTo (ho : op' ≠ o) (ho' : o' ≠ op) :
    Ready (· ∈ (v.attachTo op e i o).mods) (v.attachTo op e i o) op' e' i' o' := by
  obtain ⟨hmods, houts, hins, houtMod, -, hsg, -⟩ := attachTo_frame v op e i o
  obtain ⟨hports, hatt, hhost⟩ := attachTo_elsewhere h hr
  have hee := hr.mod_ne h hr' hop
  have hhe : v.outMod op' ≠ e := by
    intro heq
    have hmem := hr'.live.2
    rw [heq, hr.outs, List.mem_singleton] at hmem
    exact ho hmem
  refine ⟨?_, ?_, ?_, ?_, ?_, ?_, ?_, ?_, ?_, ?_, ?_⟩
  · unfold OutLive
    rw [hmods, houts, houtMod]
    exact hr'.live
  · rw [hmods]
    exact hr'.mod
  · rw [(hports op' hop ho).1]
    exact hr'.conn
  · rw [hins]
    exact hr'.ins
  · rw [houts]
    exact hr'.outs
  · rw [hhost e' hee]
    exact hr'.unhosted
  · rw [houtMod, hhost _ hhe]
    exact hr'.host_unhosted
  · rw [hatt op' hop]
    exact hr'.unattached
  · rw [hatt o' ho']
    exact hr'.out_unattached
  · rw [houtMod, hsg]
    exact hr'.sameSg
  · rw [houtMod]
    exact hr'.apart

end

section

variable (h : v.Tidy) (ha : v.Attachable) (hop : v.OutLive (· ∈ v.mods) op)
include h ha hop

/-- What `gu_attach_module` does in a tidy graph whose marks can be trusted. -/
lemma Attachable.attach_cases :
    v.attach op = v ∨ ∃ e i o, v.pending op = true ∧ Ready (· ∈ v.mods) v op e i o ∧
      v.pending o = false ∧ v.attach op = v.attachTo op e i o := by
  by_cases hp : v.pending op = true
  · cases hc : v.connIn op with
    | none =>
      left
      unfold attach
      rw [if_pos hp, hc]
    | some ip =>
      right
      have hne : v.connIn op ≠ none := by
        rw [hc]
        exact Option.some_ne_none ip
      obtain ⟨e, i, o, hr, hpo⟩ := ha op hop hp hne
      exact ⟨e, i, o, hp, hr, hpo, attach_of_ready h.wired hr hp⟩
  · left
    unfold attach
    rw [if_neg hp]

/-- **Pending attachments keep the graph tidy.** -/
theorem Attachable.attach : (v.attach op).Tidy ∧ (v.attach op).Attachable := by
  rcases ha.attach_cases h hop with heq | ⟨e, i, o, hp, hr, hpo, heq⟩
  · rw [heq]
    exact ⟨h, ha⟩
  · rw [heq]
    refine ⟨h.attachTo hr, ?_⟩
    intro op' hlive' hp' hconn'
    obtain ⟨hmods, houts, -, houtMod, -, -, hpending⟩ := attachTo_frame v op e i o
    obtain ⟨hports, -, -⟩ := attachTo_elsewhere h hr
    unfold OutLive at hlive'
    rw [hmods, houts, houtMod] at hlive'
    have hne : op' ≠ op := by
      rintro rfl
      rw [hpending, update_self] at hp'
      cases hp'
    rw [hpending, update_of_ne hne] at hp'
    have hno : op' ≠ o := ne_of_apply_eq hp' hpo nofun
    rw [(hports op' hne hno).1] at hconn'
    obtain ⟨e', i', o', hr', hpo'⟩ := ha op' hlive' hp' hconn'
    have hno' : o' ≠ op := ne_of_apply_eq hpo' hp nofun
    refine ⟨e', i', o', hr.attachTo h hr' hne hno hno', ?_⟩
    rw [hpending, update_of_ne hno']
    exact hpo'

end

end LinkView

/-! ## The programs -/

section Programs

open LinkView (Tidy Detached Attachable)

/-- The sorted list is not part of the view. -/
lemma unsort_linkView (w : GuWorld) (op : Addr) : (w.unsort op).linkView = w.linkView := by
  unfold GuWorld.unsort
  split <;> rfl

/-- `gu_detach_module` on the view. -/
theorem guDetachModule_spec {v : LinkView} (h : v.Tidy) {e : Addr} (he : e ∈ v.mods) :
    Triple (OnLinks (· = v)) (guDetachModule e) (fun _ => OnLinks (Detached v e))
      (OnLinks (· = v)) := by
  refine Triple.get_bind fun w hw => ?_
  obtain rfl : w.linkView = v := hw
  split
  · rename_i op i o hhost hi ho
    obtain ⟨⟨i', o', hins, houts, -⟩, -⟩ := h.wired.wires.shape e he op hhost
    have hhead : i' = i := by
      rw [show w.inputPortList e = [i'] from hins] at hi
      exact Option.some.inj hi
    have hhead' : o' = o := by
      rw [show w.outputPortList e = [o'] from houts] at ho
      exact Option.some.inj ho
    subst hhead hhead'
    split
    · rename_i ext hext
      rintro w' ⟨rfl, -⟩
      exact .ext op i' o' ext hhost hins houts hext
    · rename_i next hext hconn
      rintro w' ⟨rfl, -⟩
      exact .int op i' o' next hhost hins houts hext hconn
    · refine Triple.throw ?_
      rintro w' ⟨rfl, -⟩
      rfl
  · refine Triple.throw ?_
    rintro w' ⟨rfl, -⟩
    rfl

/-- One round of `gu_attach_pending_elementary_modules` on the view. -/
lemma guAttachPendingPort_spec (op : Addr) (v : LinkView) :
    Triple (OnLinks (· = v)) (guAttachPendingPort op)
      (fun _ => OnLinks fun v' => v' = v ∨ v' = v.attach op)
      (OnLinks fun v' => v' = v ∨ v' = v.attach op) := by
  have hattach : Triple (OnLinks (· = v)) (guAttachModule op)
      (fun _ => OnLinks fun v' => v' = v ∨ v' = v.attach op)
      (OnLinks fun v' => v' = v ∨ v' = v.attach op) :=
    (guAttachModule_spec op v).post (fun _ _ h => Or.inr h) fun _ h => Or.inr h
  refine Triple.get_bind fun w hw => Triple.ite (fun _ => ?_) fun _ => ?_
  · refine Triple.bind (Q := fun _ => OnLinks fun v' => v' = v ∨ v' = v.attach op) ?_ fun _ =>
      Triple.modify fun w' hw' => ?_
    · refine Triple.get_bind fun w' _ => ?_
      split
      · exact hattach.pre fun _ h => h.2.2
      · refine Triple.ite (fun _ => ?_) fun _ => Triple.pure fun _ h => Or.inl h.2.2
        exact hattach.pre fun _ h => h.2.2
    · unfold OnLinks
      rw [unsort_linkView]
      exact hw'
  · exact Triple.pure fun _ h => Or.inl h.2

/-- **`gu_attach_pending_elementary_modules`.** What every attachment keeps in a tidy graph with
marks that can be trusted, the whole loop keeps. -/
theorem guAttachPendingElementaryModules_keeps {P : LinkView → Prop}
    (hP : ∀ v op, v.Tidy → P v → v.OutLive (· ∈ v.mods) op → (v.attach op).Tidy ∧ P (v.attach op)) :
    Keeps (OnLinks fun v => v.Tidy ∧ P v) guAttachPendingElementaryModules := by
  refine Triple.get_bind fun w hw => ?_
  -- an attachment changes neither the modules nor their ports
  let Same (v : LinkView) : Prop := v.mods = w.linkView.mods ∧ v.outs = w.linkView.outs ∧
    v.outMod = w.linkView.outMod
  have hloop : Keeps (OnLinks fun v => (v.Tidy ∧ P v) ∧ Same v)
      (w.outPorts.forM guAttachPendingPort) := by
    refine Keeps.forM fun op hop => ?_
    have hround : ∀ v v', (v.Tidy ∧ P v) ∧ Same v → (v' = v ∨ v' = v.attach op) →
        (v'.Tidy ∧ P v') ∧ Same v' := by
      rintro v v' ⟨⟨htidy, hp⟩, hmods, houts, hmod⟩ (rfl | rfl)
      · exact ⟨⟨htidy, hp⟩, hmods, houts, hmod⟩
      · have hlive : v.OutLive (· ∈ v.mods) op := by
          obtain ⟨m, hm, hmem⟩ := List.mem_flatMap.mp hop
          refine htidy.wired.wires.outLive (m := m) ?_ ?_
          · rw [hmods]
            exact hm
          · rw [houts]
            exact hmem
        refine ⟨hP v op htidy hp hlive, ?_⟩
        unfold LinkView.attach
        split
        · split
          · exact ⟨hmods, houts, hmod⟩
          · split
            · obtain ⟨hmods', houts', -, hmod', -⟩ := LinkView.attachTo_frame v op _ _ _
              exact ⟨hmods'.trans hmods, houts'.trans houts, hmod'.trans hmod⟩
            · exact ⟨hmods, houts, hmod⟩
        · exact ⟨hmods, houts, hmod⟩
    intro w' hw'
    exact (guAttachPendingPort_spec op w'.linkView).post
      (fun _ w'' h => hround _ _ hw' h) (fun w'' h => hround _ _ hw' h) w' rfl
  refine hloop.conseq ?_ (fun _ _ h => h.1) fun _ h => h.1
  rintro w' ⟨rfl, hw'⟩
  exact ⟨hw', rfl, rfl, rfl⟩

end Programs

end AudioReach
