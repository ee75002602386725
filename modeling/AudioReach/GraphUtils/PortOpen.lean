import AudioReach.GraphUtils.PortCounts

/-!
# The budget over a whole open

`gu_create_graph` first creates the objects of the command and sets the limits of their modules, then
makes the links.  While objects are created the only ports are those of the end point
modules towards the client; `PortView.Phase` records this, and that the limits still to be set
cover the ports the modules have.  From then on the links of the command are paid from
the budget one by one.
-/

namespace AudioReach

open Function (update update_of_ne update_self)
open Library List

/-! ## Limits set by a command -/

/-- The end point modules, which get their limits from the container. -/
def isEndPoint (id : UInt32) : Bool :=
  id = MODULE_ID_WR_SHARED_MEM_EP ∨ id = MODULE_ID_RD_SHARED_MEM_EP

/-- The limits on input and output ports that a property sets for a module of this id. -/
def propLimits (id : UInt32) : ApmModuleProp → Option (ℕ × ℕ)
  | .portInfo _ ip op =>
    if isEndPoint id then none
    else if id = MODULE_ID_WR_SHARED_MEM_CLIENT then some (ip.toNat, 0)
    else if id = MODULE_ID_RD_SHARED_MEM_CLIENT then some (0, op.toNat)
    else some (ip.toNat, op.toNat)
  | _ => none

/-- A module is the same in two tables. -/
structure PortTable.SameAt (t t' : PortTable) (m : Addr) : Prop where
  ports : t'.ports m = t.ports m
  max : t'.max m = t.max m
  index : ∀ p ∈ t.ports m, t'.index p = t.index p

/-- A module is the same as itself. -/
lemma PortTable.SameAt.refl (t : PortTable) (m : Addr) : t.SameAt t m :=
  ⟨rfl, rfl, fun _ _ => rfl⟩

/-- The same module keeps to the same limit. -/
lemma PortTable.SameAt.fits {t t' : PortTable} {m : Addr} (h : t.SameAt t' m) {limit : ℕ}
    (hfits : t.Fits m limit) : t'.Fits m limit := by
  refine ⟨?_, ?_⟩
  · rw [h.ports]
    exact hfits.1
  · intro p hp
    rw [h.ports] at hp
    rw [h.index p hp]
    exact hfits.2 p hp

namespace PortView

/-- Every limit that the command sets for the module covers the ports it has. -/
def Covers (cmd : GraphOpenCmd) (v : PortView) (m : Addr) : Prop :=
  ∀ cfg ∈ cmd.modPropCfgList, cfg.instanceId = v.iid m → ∀ prop ∈ cfg.props,
    ∀ l ∈ propLimits (v.moduleId m) prop, v.ins.Fits m l.1 ∧ v.outs.Fits m l.2

instance (cmd : GraphOpenCmd) (v : PortView) (m : Addr) : Decidable (v.Covers cmd m) :=
  inferInstanceAs (Decidable (∀ cfg ∈ cmd.modPropCfgList, cfg.instanceId = v.iid m →
    ∀ prop ∈ cfg.props, ∀ l ∈ propLimits (v.moduleId m) prop, v.ins.Fits m l.1 ∧ v.outs.Fits m l.2))

/-- The modules of the graph of the current command. -/
def openModules (v : PortView) : List Addr :=
  v.openSgs.flatMap v.sgModules

/-- A module without ports, or one whose limits no property sets. -/
def Blank (v : PortView) (m : Addr) : Prop :=
  isEndPoint (v.moduleId m) ∨ (v.ins.max m = 0 ∧ v.outs.max m = 0)

/-- The invariant while objects are created: `base` separates the modules that were there from
those of the command. -/
structure Phase (base : Addr) (cmd : GraphOpenCmd) (srcs dsts : List UInt32) (v : PortView) :
    Prop where
  inv : Inv srcs dsts v
  base_le : base ≤ v.next
  /-- Modules that were there are not named as new, and the limits to come cover their ports. -/
  old : ∀ m ∈ v.openModules, m < base → v.iid m ∉ cmd.newIids ∧ v.Covers cmd m
  /-- Modules of the command have no ports yet, end points apart. -/
  new : ∀ m ∈ v.openModules, base ≤ m → v.Blank m

/-- A module is the same in two views. -/
structure SameModule (v v' : PortView) (m : Addr) : Prop where
  iid : v'.iid m = v.iid m
  moduleId : v'.moduleId m = v.moduleId m
  ins : v.ins.SameAt v'.ins m
  outs : v.outs.SameAt v'.outs m

section

variable {v v' : PortView} {m : Addr} (h : SameModule v v' m)
include h

/-- Limits that cover the ports of a module still do. -/
lemma SameModule.covers {cmd : GraphOpenCmd} (hcovers : v.Covers cmd m) : v'.Covers cmd m := by
  intro cfg hcfg hiid prop hprop l hl
  rw [h.iid] at hiid
  rw [h.moduleId] at hl
  obtain ⟨hin, hout⟩ := hcovers cfg hcfg hiid prop hprop l hl
  exact ⟨h.ins.fits hin, h.outs.fits hout⟩

/-- A blank module stays blank. -/
lemma SameModule.blank (hblank : v.Blank m) : v'.Blank m := by
  unfold Blank
  rw [h.moduleId, h.ins.max, h.outs.max]
  exact hblank

end

namespace Inv

variable {v : PortView} {srcs dsts : List UInt32}

section

variable {m : Addr} (h : Inv srcs dsts v)
include h

/-- The subgraphs of the command and their modules were allocated. -/
lemma openSgs_lt : ∀ sg ∈ v.openSgs, sg < v.next ∧ ∀ m ∈ v.sgModules sg, m < v.next := by
  unfold openSgs
  cases ha : v.async with
  | none => exact h.sgs
  | some a =>
    intro sg hsg
    obtain ⟨hsg', -, hms⟩ := h.async_sgs a ha sg hsg
    exact ⟨hsg', fun m hm => (hms m hm).1⟩

/-- A module of the command was allocated. -/
lemma openModules_lt (hm : m ∈ v.openModules) : m < v.next := by
  obtain ⟨sg, hsg, hm⟩ := mem_flatMap.mp hm
  exact (h.openSgs_lt sg hsg).2 m hm

/-- A module of the command is new, or the open is synchronous. -/
lemma openModules_new (hm : m ∈ v.openModules) : v.status m = .new ∨ v.async = none := by
  obtain ⟨sg, hsg, hm⟩ := mem_flatMap.mp hm
  unfold openSgs at hsg
  cases ha : v.async with
  | none => exact Or.inr rfl
  | some a =>
    rw [ha] at hsg
    exact Or.inl ((h.async_sgs a ha sg hsg).2.2 m hm).2

/-- Without limits any limit will do. -/
lemma fits_of_zero (hin : v.ins.max m = 0) (hout : v.outs.max m = 0) (a b : ℕ) :
    v.ins.Fits m a ∧ v.outs.Fits m b := by
  have hnil : ∀ {t : PortTable} {limit : ℕ}, t.Ok v.next → t.max m = 0 → t.Fits m limit := by
    intro t limit ht hmax
    have hlen := ht.limit m
    rw [hmax] at hlen
    have hports := eq_nil_of_length_eq_zero (Nat.le_zero.mp hlen)
    unfold PortTable.Fits
    rw [hports]
    exact ⟨Nat.zero_le _, fun p hp => absurd hp (not_mem_nil)⟩
  exact ⟨hnil h.ins hin, hnil h.outs hout⟩

end

end Inv

namespace Phase

variable {base : Addr} {cmd : GraphOpenCmd} {srcs dsts : List UInt32} {v v' : PortView}

section

variable (h : Phase base cmd srcs dsts v)
include h

/-- The phase goes on if its modules are the same or blank. -/
lemma of_same (hinv : Inv srcs dsts v') (hnext : v.next ≤ v'.next)
    (hmod : ∀ m ∈ v'.openModules, (m ∈ v.openModules ∧ SameModule v v' m) ∨ (base ≤ m ∧ v'.Blank m))
    : Phase base cmd srcs dsts v' := by
  refine ⟨hinv, h.base_le.trans hnext, ?_, ?_⟩
  · intro m hm hlt
    rcases hmod m hm with ⟨hm', hsame⟩ | ⟨hle, -⟩
    · rw [hsame.iid]
      exact ⟨(h.old m hm' hlt).1, hsame.covers (h.old m hm' hlt).2⟩
    · exact absurd hlt hle.not_gt
  · intro m hm hle
    rcases hmod m hm with ⟨hm', hsame⟩ | ⟨-, hblank⟩
    · exact hsame.blank (h.new m hm' hle)
    · exact hblank

/-- An allocation keeps the phase. -/
lemma alloc : Phase base cmd srcs dsts { v with next := v.next + 1 } :=
  h.of_same h.inv.alloc (Nat.le_succ _) fun _ hm =>
    Or.inl ⟨hm, rfl, rfl, .refl .., .refl ..⟩

/-- Only being new matters of the status. -/
lemma of_status {status : Addr → GuStatus} (hstatus : ∀ m, status m = .new ↔ v.status m = .new) :
    Phase base cmd srcs dsts { v with status := status } :=
  h.of_same (h.inv.of_status hstatus) le_rfl fun _ hm =>
    Or.inl ⟨hm, rfl, rfl, .refl .., .refl ..⟩

end

/-- The phase survives allocations. -/
lemma robust (base : Addr) (cmd : GraphOpenCmd) (srcs dsts : List UInt32) :
    Robust (Phase base cmd srcs dsts) :=
  ⟨fun _ h => h.alloc, fun _ _ hstatus h => h.of_status hstatus⟩

/-- A subgraph that is listed is the last of the command. -/
lemma openSgs_listSg (v : PortView) (sg : Addr) : (v.listSg sg).openSgs = v.openSgs ++ [sg] := by
  unfold PortView.listSg openSgs
  cases v.async with
  | none => rfl
  | some a => rfl

section

variable (h : Phase base cmd srcs dsts v)
include h

/-- A new subgraph keeps the phase. -/
lemma newSg : Phase base cmd srcs dsts
      { v with sgModules := update v.sgModules v.next [], next := v.next + 1 } := by
  refine h.of_same h.inv.newSg (Nat.le_succ _) ?_
  intro m hm
  refine Or.inl ⟨?_, rfl, rfl, .refl .., .refl ..⟩
  obtain ⟨sg, hsg, hm⟩ := mem_flatMap.mp hm
  have hne : sg ≠ v.next := (h.inv.openSgs_lt sg hsg).1.ne
  simp only [update_of_ne hne] at hm
  exact mem_flatMap.mpr ⟨sg, hsg, hm⟩

/-- The new subgraph joins the graph of the current command. -/
lemma listSg {sg : Addr} (hsg : sg < v.next) (hnew : sg ∉ v.sgs) (hempty : v.sgModules sg = []) :
    Phase base cmd srcs dsts (v.listSg sg) := by
  have hsame : (v.listSg sg).openModules = v.openModules := by
    have hmods : (v.listSg sg).sgModules = v.sgModules := by
      unfold PortView.listSg
      cases v.async with
      | none => rfl
      | some a => rfl
    unfold openModules
    rw [openSgs_listSg, hmods, flatMap_append]
    simp [hempty]
  refine h.of_same (h.inv.listSg hsg hnew hempty) ?_ ?_
  · unfold PortView.listSg
    cases v.async with
    | none => exact le_rfl
    | some a => exact le_rfl
  · intro m hm
    rw [hsame] at hm
    refine Or.inl ⟨hm, ?_⟩
    unfold PortView.listSg
    cases v.async with
    | none => exact ⟨rfl, rfl, .refl .., .refl ..⟩
    | some a => exact ⟨rfl, rfl, .refl .., .refl ..⟩

/-- A new module keeps the phase. -/
lemma newModule : Phase base cmd srcs dsts v.newModule := by
  refine h.of_same h.inv.newModule (Nat.le_succ _) ?_
  intro m hm
  have hm' : m ∈ v.openModules := hm
  have hne : m ≠ v.next := (h.inv.openModules_lt hm').ne
  refine Or.inl ⟨hm', update_of_ne hne _ _, update_of_ne hne _ _,
    ⟨update_of_ne hne _ _, update_of_ne hne _ _, fun _ _ => rfl⟩,
    ⟨update_of_ne hne _ _, update_of_ne hne _ _, fun _ _ => rfl⟩⟩

/-- The module `m` of the command is not listed yet. -/
structure Unlisted (base : Addr) (cmd : GraphOpenCmd) (srcs dsts : List UInt32) (m : Addr)
    (v : PortView) : Prop where
  phase : Phase base cmd srcs dsts v
  allocated : base ≤ m ∧ m < v.next
  new : v.status m = .new
  zero : v.ins.max m = 0 ∧ v.outs.max m = 0
  unlisted : m ∉ v.openModules ∧ ∀ sg ∈ v.sgs, m ∉ v.sgModules sg

/-- The module `m` of the command is listed and has no ports. -/
structure Listed (base : Addr) (cmd : GraphOpenCmd) (srcs dsts : List UInt32) (m : Addr)
    (cfg : ApmModuleCfg) (v : PortView) : Prop where
  phase : Phase base cmd srcs dsts v
  allocated : base ≤ m
  listed : m ∈ v.openModules
  iid : v.iid m = cfg.instanceId
  moduleId : v.moduleId m = cfg.moduleId
  zero : v.ins.max m = 0 ∧ v.outs.max m = 0

/-- A new module is not listed yet. -/
lemma unlisted_newModule : Unlisted base cmd srcs dsts v.next v.newModule := by
  refine ⟨h.newModule, ⟨h.base_le, Nat.lt_succ_self _⟩, update_self _ _ _,
    ⟨update_self _ _ _, update_self _ _ _⟩, ?_, ?_⟩
  · intro hm
    exact absurd (h.inv.openModules_lt hm) (lt_irrefl _)
  · intro sg hsg hm
    exact absurd ((h.inv.sgs sg hsg).2 _ hm) (lt_irrefl _)

end

/-- The new module joins a subgraph of the current command. -/
lemma Unlisted.listModule {m sg : Addr} (h : Unlisted base cmd srcs dsts m v) (hsg : sg ∈ v.openSgs)
    (cfg : ApmModuleCfg) :
    Listed base cmd srcs dsts m cfg (v.listModule sg m cfg.instanceId cfg.moduleId) := by
  have hinv := h.phase.inv.listModule hsg h.allocated.2 h.new h.unlisted.2 cfg.instanceId
    cfg.moduleId
  have hmem : m ∈ (v.listModule sg m cfg.instanceId cfg.moduleId).openModules := by
    refine mem_flatMap.mpr ⟨sg, hsg, ?_⟩
    simp [PortView.listModule]
  refine ⟨h.phase.of_same hinv le_rfl ?_, h.allocated.1, hmem, update_self _ _ _,
    update_self _ _ _, h.zero⟩
  intro m' hm'
  by_cases hmm : m' = m
  · subst hmm
    exact Or.inr ⟨h.allocated.1, Or.inr h.zero⟩
  · refine Or.inl ⟨?_, update_of_ne hmm _ _, update_of_ne hmm _ _, .refl .., .refl ..⟩
    obtain ⟨sg', hsg', hm'⟩ := mem_flatMap.mp hm'
    refine mem_flatMap.mpr ⟨sg', hsg', ?_⟩
    by_cases hss : sg' = sg
    · subst hss
      simp only [PortView.listModule, update_self, mem_append, mem_singleton] at hm'
      exact hm'.resolve_right hmm
    · simp only [PortView.listModule, update_of_ne hss] at hm'
      exact hm'

/-- An end point gets its limits when it is listed. -/
lemma Listed.endPoint {m : Addr} {cfg : ApmModuleCfg} (h : Listed base cmd srcs dsts m cfg v)
    (hend : isEndPoint cfg.moduleId) :
    Phase base cmd srcs dsts { v with ins := v.ins.setMax m 1, outs := v.outs.setMax m 1 } := by
  obtain ⟨hin, hout⟩ := h.phase.inv.fits_of_zero h.zero.1 h.zero.2 1 1
  refine h.phase.of_same (h.phase.inv.setMax (by decide) (by decide) hin hout
    (h.phase.inv.openModules_new h.listed)) le_rfl ?_
  intro m' hm'
  by_cases hmm : m' = m
  · subst hmm
    refine Or.inr ⟨h.allocated, Or.inl ?_⟩
    rw [h.moduleId]
    exact hend
  · exact Or.inl ⟨hm', rfl, rfl, ⟨rfl, update_of_ne hmm _ _, fun _ _ => rfl⟩,
      ⟨rfl, update_of_ne hmm _ _, fun _ _ => rfl⟩⟩

/-- An instance of the command was created by it. -/
lemma base_le_of_new (h : Phase base cmd srcs dsts v) {m : Addr} (hm : m ∈ v.openModules)
    (hiid : v.iid m ∈ cmd.newIids) : base ≤ m := by
  by_contra hlt
  exact (h.old m hm (not_le.mp hlt)).1 hiid

end Phase

end PortView

/-! ## The links of the end points -/

section EndPoints

open PortView (Inv Phase SameModule)

variable {base : Addr} {cmd : GraphOpenCmd} {srcs dsts : List UInt32} {v v' : PortView} {m : Addr}

/-- A port created at the next address and inserted into `m` changes no other module. -/
lemma PortTable.Ok.sameAt_insert {t : PortTable} {next : Addr} (h : t.Ok next) {m' : Addr}
    (hm : m' ≠ m) : t.SameAt ((t.create next m).insert m next) m' := by
  refine ⟨update_of_ne hm _ _, rfl, ?_⟩
  intro p hp
  have hne : p ≠ next := (h.allocated m' p hp).ne
  simp only [PortTable.insert, PortTable.create, update_of_ne hne]

/-- A new port changes no module. -/
lemma PortTable.Ok.sameAt_create {t : PortTable} {next : Addr} (h : t.Ok next) (m' : Addr) :
    t.SameAt (t.create next m) m' := by
  refine ⟨rfl, rfl, ?_⟩
  intro p hp
  have hne : p ≠ next := (h.allocated m' p hp).ne
  simp only [PortTable.create, update_of_ne hne]

/-- Whether the open is asynchronous, and the subgraphs of the current command. -/
def PortView.openPart (v : PortView) : Bool × List Addr := (v.async.isSome, v.openSgs)

/-- A port that waits is not part of the open graph's lists. -/
lemma openPart_push (v : PortView) (port : GuCmnPort) :
    PortView.openPart { v with async := v.async.map fun a => (a.1, a.2 ++ [port]) } =
      v.openPart := by
  unfold PortView.openPart PortView.openSgs
  cases v.async with
  | none => rfl
  | some a => rfl

/-- A source end changes no list of subgraphs. -/
lemma PlacedOut.openPart (hp : PlacedOut m v v') : v'.openPart = v.openPart := by
  cases hp with
  | insert room now status same eq => exact eq ▸ rfl
  | push room old eq => exact eq ▸ openPart_push v _

/-- A destination end changes no list of subgraphs. -/
lemma PlacedIn.openPart (hp : PlacedIn m v v') : v'.openPart = v.openPart := by
  cases hp with
  | insert room now status same eq => exact eq ▸ rfl
  | push room old eq => exact eq ▸ openPart_push v _

/-- The modules of the command depend on the lists only. -/
lemma openModules_eq (hpart : v'.openPart = v.openPart) (hmods : v'.sgModules = v.sgModules) :
    v'.openModules = v.openModules := by
  unfold PortView.openModules
  rw [hmods, show v'.openSgs = v.openSgs from congrArg Prod.snd hpart]

/-- A module of the command is a link end. -/
lemma Inv.linkEnd_openModules (h : Inv srcs dsts v) (hm : m ∈ v.openModules) (iid : UInt32) :
    LinkEnd false iid (some m) v := by
  rintro a ⟨⟩
  refine ⟨h.openModules_lt hm, ?_⟩
  intro hold hasync
  rcases h.openModules_new hm with hnew | hsync
  · exact absurd hnew hold
  · exact absurd hsync hasync

/-- What a port placed in `m` leaves alone, in either direction. -/
structure PlacedAt (m : Addr) (v v' : PortView) : Prop where
  next_le : v.next ≤ v'.next
  modules : v'.openModules = v.openModules
  blank : v.Blank m → v'.Blank m
  same : ∀ m', m' ≠ m → SameModule v v' m'

/-- A source end leaves the other modules alone. -/
lemma PlacedOut.placedAt (h : Inv srcs dsts v) (hp : PlacedOut m v v') : PlacedAt m v v' := by
  have hpart := hp.openPart
  cases hp with
  | insert room now status same eq =>
    subst eq
    exact ⟨Nat.le_succ _, openModules_eq hpart rfl, id, fun m' hm =>
      ⟨rfl, rfl, .refl .., h.outs.sameAt_insert hm⟩⟩
  | push room old eq =>
    subst eq
    exact ⟨Nat.le_succ _, openModules_eq hpart rfl, id, fun m' _ =>
      ⟨rfl, rfl, .refl .., h.outs.sameAt_create m'⟩⟩

/-- A destination end leaves the other modules alone. -/
lemma PlacedIn.placedAt (h : Inv srcs dsts v) (hp : PlacedIn m v v') : PlacedAt m v v' := by
  have hpart := hp.openPart
  cases hp with
  | insert room now status same eq =>
    subst eq
    exact ⟨Nat.le_succ _, openModules_eq hpart rfl, id, fun m' hm =>
      ⟨rfl, rfl, h.ins.sameAt_insert hm, .refl ..⟩⟩
  | push room old eq =>
    subst eq
    exact ⟨Nat.le_succ _, openModules_eq hpart rfl, id, fun m' _ =>
      ⟨rfl, rfl, h.ins.sameAt_create m', .refl ..⟩⟩

/-- A port of a module of the command keeps the phase. -/
lemma PlacedAt.phase (hp : PlacedAt m v v') (h : Phase base cmd srcs dsts v)
    (hm : m ∈ v.openModules) (hbase : base ≤ m) (hinv : Inv srcs dsts v') :
    Phase base cmd srcs dsts v' := by
  refine h.of_same hinv hp.next_le fun m' hm' => ?_
  rw [hp.modules] at hm'
  by_cases hmm : m' = m
  · subst hmm
    exact Or.inr ⟨hbase, hp.blank (h.new m' hm hbase)⟩
  · exact Or.inl ⟨hm', hp.same m' hmm⟩

/-- A link end in the graph of the current command. -/
lemma connModule_open {w : GuWorld} {iid : UInt32} {m : Addr}
    (h : w.connModule false iid = some m) :
    iid ≠ 0 ∧ m ∈ w.portView.openModules ∧ w.moduleInstanceId m = iid := by
  have hfind : (if iid = 0 then none else w.guFindModule w.openGu iid) = some m := by
    unfold GuWorld.connModule at h
    cases hopen : (if iid = 0 then none else w.guFindModule w.openGu iid) with
    | none =>
      rw [hopen] at h
      cases h
    | some m' =>
      rw [hopen] at h
      exact h
  by_cases hiid : iid = 0
  · rw [if_pos hiid] at hfind
    cases hfind
  · rw [if_neg hiid] at hfind
    have heq : w.moduleInstanceId m = iid := by simpa using find?_some hfind
    refine ⟨hiid, ?_, heq⟩
    have hmem := mem_of_find?_eq_some hfind
    unfold GuWorld.openGu at hmem
    unfold PortView.openModules PortView.openSgs GuWorld.portView
    cases ha : w.asyncGu with
    | none =>
      rw [ha] at hmem
      exact hmem
    | some a =>
      rw [ha] at hmem
      exact hmem

/-- The ends of a link lie among the modules of the command. -/
def NewEnd (base : Addr) (m : Option Addr) (v : PortView) : Prop :=
  ∀ a, m = some a → a ∈ v.openModules ∧ base ≤ a

/-- The end of a link between new modules is new. -/
lemma Phase.newEnd {w : GuWorld} (h : Phase base cmd srcs dsts w.portView) {iid : UInt32}
    (hiid : iid ≠ 0 → iid ∈ cmd.newIids) : NewEnd base (w.connModule false iid) w.portView := by
  intro a ha
  obtain ⟨hne, hmem, heq⟩ := connModule_open ha
  refine ⟨hmem, h.base_le_of_new hmem ?_⟩
  rw [show w.portView.iid a = iid from heq]
  exact hiid hne

/-- **A link towards the client keeps the phase.** -/
theorem guHandleConnection_phase (conn : ApmModuleConnCfg)
    (hsrc : conn.srcModInstId ≠ 0 → conn.srcModInstId ∈ cmd.newIids)
    (hdst : conn.dstModInstId ≠ 0 → conn.dstModInstId ∈ cmd.newIids) :
    Triple (On (Phase base cmd srcs dsts)) (guHandleConnection false conn)
      (fun _ => On (Phase base cmd srcs dsts)) (On (Inv [] [])) := by
  refine Triple.get_bind fun w hw => ?_
  have hse := Phase.newEnd hw hsrc
  have hde := Phase.newEnd hw hdst
  let src := w.connModule false conn.srcModInstId
  let dst := w.connModule false conn.dstModInstId
  let P : PortView → Prop := fun v =>
    Phase base cmd srcs dsts v ∧ NewEnd base src v ∧ NewEnd base dst v
  refine Triple.bind (Q := fun _ => On P) ?_ fun _ =>
    Triple.ite (fun _ => Triple.throw fun _ h => h.1.inv.nil) fun _ =>
      Triple.bind (Q := fun _ => On P) ?_ fun o =>
        Triple.bind ?_ fun i =>
          (guLinkPorts_keeps (Phase.robust base cmd srcs dsts) conn o i).exits
            fun _ h => h.inv.nil
  · refine (verify_spec _).post ?_ ?_
    · rintro _ w' ⟨⟨rfl, hw'⟩, -⟩
      exact ⟨hw', hse, hde⟩
    · rintro w' ⟨rfl, hw'⟩
      exact hw'.inv.nil
  · change Triple (On P) (onModule src _) _ _
    cases hs : src with
    | none => exact Triple.pure fun w' h => h
    | some m =>
      refine Triple.bind ?_ fun p => Triple.pure fun _ h => h
      refine (guHandleSrcPort_on m _ _).post ?_ ?_
      · rintro p w' ⟨v, ⟨hphase, hse, hde⟩, hplaced⟩
        obtain ⟨hm, hbase⟩ := hse m hs
        have hat := hplaced.placedAt hphase.inv
        have hinv := @PlacedOut.inv _ _ _ _ (v.iid m) _ false hphase.inv
          (Inv.linkEnd_openModules hphase.inv hm _) hplaced
        refine ⟨hat.phase hphase hm hbase hinv, ?_, ?_⟩
        · intro a ha
          rw [hat.modules]
          exact hse a ha
        · intro a ha
          rw [hat.modules]
          exact hde a ha
      · rintro w' ⟨v, ⟨hphase, -, -⟩, heq | heq⟩
        · exact (heq ▸ hphase.inv : Inv _ _ w'.portView).nil
        · change Inv [] [] w'.portView
          rw [heq]
          exact (hphase.inv.createOut m).nil
  · change Triple (On P) (onModule dst _) _ _
    cases hd : dst with
    | none => exact Triple.pure fun w' h => h.1
    | some m =>
      refine Triple.bind ?_ fun p =>
        Triple.pure fun _ h => h
      refine (guHandleDstPort_on m _ _).post ?_ ?_
      · rintro p w' ⟨v, ⟨hphase, -, hde⟩, hplaced⟩
        obtain ⟨hm, hbase⟩ := hde m hd
        exact (hplaced.placedAt hphase.inv).phase hphase hm hbase
          (@PlacedIn.inv _ _ _ _ (v.iid m) _ false hphase.inv
            (Inv.linkEnd_openModules hphase.inv hm _) hplaced)
      · rintro w' ⟨v, ⟨hphase, -, -⟩, heq | heq⟩
        · exact (heq ▸ hphase.inv : Inv _ _ w'.portView).nil
        · change Inv [] [] w'.portView
          rw [heq]
          exact (hphase.inv.createIn m).nil

end EndPoints

/-! ## The graph a command works on -/

section OpenPart

/-- The resources of a subgraph leave the ports alone. -/
lemma guSgAllocateResource_leaves (size : ℕ) :
    Leaves GuWorld.portView (guSgAllocateResource size) :=
  Leaves.ite (Leaves.pure _) (Leaves.bind malloc_leaves fun _ => malloc_leaves)

/-- The same of a graph. -/
def openPart (w : GuWorld) : Bool × List Addr := w.portView.openPart

/-- What leaves the ports alone leaves the lists alone. -/
lemma leaves_openPart {α : Type} {x : GuM α} (h : Leaves GuWorld.portView x) : Leaves openPart x :=
  h.comp PortView.openPart

/-- A change of the open graph that keeps its subgraphs. -/
lemma setOpenGu_openPart {f : Gu → Gu} (hf : ∀ gu, (f gu).sgList = gu.sgList) (w : GuWorld) :
    openPart (w.setOpenGu f) = openPart w := by
  unfold openPart
  rw [setOpenGu_portView hf]

/-- The lists survive allocations. -/
lemma robust_openPart (part : Bool × List Addr) : Robust fun v => v.openPart = part :=
  ⟨fun _ h => h, fun _ _ _ h => h⟩

/-- A new object leaves the lists alone. -/
lemma mallocObj_leaves_openPart : Leaves openPart mallocObj :=
  Leaves.of_keeps fun part => mallocObj_keeps (robust_openPart part)

section

variable (m : Addr) (id : UInt32) (internal : Bool)

/-- The source of a link leaves the lists alone. -/
lemma guHandleSrcPort_leaves_openPart : Leaves openPart (guHandleSrcPort m id internal) := by
  refine Leaves.of_keeps fun part =>
    (guHandleSrcPort_on (P := (·.openPart = part)) m id internal).post ?_ ?_
  · rintro _ w ⟨v, hv, hplaced⟩
    exact hplaced.openPart.trans hv
  · rintro w ⟨v, hv, heq | heq⟩
    · exact (congrArg PortView.openPart heq).trans hv
    · exact (congrArg PortView.openPart heq).trans hv

/-- The destination of a link leaves the lists alone. -/
lemma guHandleDstPort_leaves_openPart : Leaves openPart (guHandleDstPort m id internal) := by
  refine Leaves.of_keeps fun part =>
    (guHandleDstPort_on (P := (·.openPart = part)) m id internal).post ?_ ?_
  · rintro _ w ⟨v, hv, hplaced⟩
    exact hplaced.openPart.trans hv
  · rintro w ⟨v, hv, heq | heq⟩
    · exact (congrArg PortView.openPart heq).trans hv
    · exact (congrArg PortView.openPart heq).trans hv

end

/-- A link leaves the lists alone. -/
lemma guHandleConnection_leaves_openPart (fromMain : Bool) (conn : ApmModuleConnCfg) :
    Leaves openPart (guHandleConnection fromMain conn) := by
  have hend : ∀ (m : Option Addr) (f : Addr → GuM Addr), (∀ a, Leaves openPart (f a)) →
      Leaves openPart (onModule m f) := by
    intro m f hf
    cases m with
    | none => exact Leaves.pure _
    | some a => exact Leaves.bind (hf a) fun _ => Leaves.pure _
  exact Leaves.get_bind fun _ => Leaves.bind (Leaves.ite (Leaves.pure _) (Leaves.throw _)) fun _ =>
    Leaves.ite (Leaves.throw _)
      (Leaves.bind (hend _ _ fun _ => guHandleSrcPort_leaves_openPart _ _ _) fun _ =>
        Leaves.bind (hend _ _ fun _ => guHandleDstPort_leaves_openPart _ _ _) fun _ =>
          Leaves.of_keeps fun part => guLinkPorts_keeps (robust_openPart part) _ _ _)

/-- The modules at the boundary leave the lists alone. -/
lemma guHandleGraphBoundaryModules_leaves_openPart (m : Addr) :
    Leaves openPart (guHandleGraphBoundaryModules m) :=
  Leaves.get_bind fun _ => Leaves.ite
    (Leaves.bind (Leaves.modify fun _ => rfl) fun _ => guHandleConnection_leaves_openPart _ _)
    (Leaves.ite
      (Leaves.bind (Leaves.modify fun _ => rfl) fun _ => guHandleConnection_leaves_openPart _ _)
      (Leaves.pure _))

/-- New modules leave the lists of subgraphs alone. -/
lemma guCreateModules_leaves_openPart (l : ApmModulesList) :
    Leaves openPart (guCreateModules l) := by
  refine Leaves.get_bind fun w => ?_
  split
  · exact Leaves.throw _
  · refine Leaves.bind (Leaves.modify fun _ => rfl) fun _ => Leaves.bind
      (leaves_openPart (guSgAllocateResource_leaves _)) fun _ => Leaves.mapM fun cfg => ?_
    exact Leaves.get_bind fun w => Leaves.bind (Leaves.modify fun _ => rfl) fun _ =>
      Leaves.bind (Leaves.modify fun _ => rfl) fun _ => Leaves.bind (leaves_openPart malloc_leaves)
        fun _ => Leaves.bind (Leaves.modify fun _ => rfl) fun _ =>
          Leaves.bind (guHandleGraphBoundaryModules_leaves_openPart _) fun _ =>
            Leaves.bind (leaves_openPart malloc_leaves) fun _ =>
              Leaves.bind (leaves_openPart malloc_leaves) fun _ => Leaves.pure _

end OpenPart

/-! ## Subgraphs, modules and their limits -/

section Objects

open PortView (Inv Phase)
open PortView.Phase (Unlisted Listed)

variable {base : Addr} {cmd : GraphOpenCmd} {srcs dsts : List UInt32}

/-- What a program of the object phase does. -/
abbrev KeepsPhase (base : Addr) (cmd : GraphOpenCmd) (srcs dsts : List UInt32) {α : Type}
    (x : GuM α) : Prop :=
  Triple (On (Phase base cmd srcs dsts)) x (fun _ => On (Phase base cmd srcs dsts)) (On (Inv [] []))

/-- The open subgraphs, on the view. -/
lemma openSgs_portView (w : GuWorld) : w.portView.openSgs = w.openGu.sgList := by
  unfold PortView.openSgs GuWorld.portView GuWorld.openGu
  cases w.asyncGu with
  | none => rfl
  | some a => rfl

/-- A subgraph that is listed, on the view. -/
lemma listSg_portView (w : GuWorld) (sg : Addr) :
    (w.setOpenGu fun gu => { gu with sgList := gu.sgList ++ [sg] }).portView =
      w.portView.listSg sg := by
  unfold GuWorld.setOpenGu GuWorld.portView PortView.listSg
  cases w.asyncGu with
  | none => simp [GuWorld.ins, GuWorld.outs]
  | some a => rfl

/-- The subgraph `sg` was created and is not listed yet. -/
def NewSg (base : Addr) (cmd : GraphOpenCmd) (srcs dsts : List UInt32) (sg : Addr)
    (v : PortView) : Prop :=
  Phase base cmd srcs dsts v ∧ sg < v.next ∧ sg ∉ v.sgs ∧ v.sgModules sg = []

/-- A new subgraph is in its phase. -/
lemma guCreateSubgraph_phase (cfg : ApmSubGraphCfg) :
    KeepsPhase base cmd srcs dsts (guCreateSubgraph cfg) := by
  refine Triple.get_bind fun w hw =>
    Triple.bind (Q := fun _ => On (Phase base cmd srcs dsts)) ?_ fun _ =>
      Triple.bind (Q := fun sg w => ∃ v, Phase base cmd srcs dsts v ∧ sg = v.next ∧
        w.portView = { v with next := v.next + 1 }) ?_ fun sg =>
        Triple.bind (Q := fun _ => On (NewSg base cmd srcs dsts sg)) (Triple.modify ?_) fun _ =>
        Triple.bind (Q := fun _ => On (NewSg base cmd srcs dsts sg)) ?_ fun _ =>
        Triple.bind (Q := fun _ => On (NewSg base cmd srcs dsts sg)) ?_ fun _ =>
        Triple.bind (Q := fun _ => On (Phase base cmd srcs dsts)) (Triple.modify ?_) fun _ => ?_
  · exact (keepsOn (verify_leaves _)).conseq (fun _ h => h.2) (fun _ _ h => h) fun _ h => h.inv.nil
  · exact mallocObj_on.exits fun _ h => h.inv.nil
  · rintro w' ⟨v, hv, rfl, heq⟩
    have hview : GuWorld.portView { w' with
        sgId := update w'.sgId v.next cfg.subGraphId
        sgGuStatus := update w'.sgGuStatus v.next .new
        sgNumModules := update w'.sgNumModules v.next 0
        sgModuleList := update w'.sgModuleList v.next [] } =
        { v with sgModules := update v.sgModules v.next [], next := v.next + 1 } := by
      change { w'.portView with sgModules := update w'.portView.sgModules v.next [] } = _
      rw [heq]
    change NewSg base cmd srcs dsts v.next _
    rw [hview]
    refine ⟨hv.newSg, Nat.lt_succ_self _, ?_, update_self _ _ _⟩
    intro hsg
    exact absurd (hv.inv.sgs _ hsg).1 (lt_irrefl _)
  · refine Triple.modify fun w' hw' => ?_
    change NewSg base cmd srcs dsts sg _
    rw [setOpenGu_portView]
    · exact hw'
    · exact fun _ => rfl
  · exact (keepsOn malloc_leaves).exits fun _ h => h.1.inv.nil
  · rintro w' ⟨hphase, hsg, hnew, hempty⟩
    change Phase base cmd srcs dsts _
    rw [listSg_portView]
    exact hphase.listSg hsg hnew hempty
  · exact (keepsOn (verify_leaves _)).exits fun _ h => h.inv.nil

section

variable {cfg : ApmModuleCfg} (hcfg : cfg.instanceId ∈ cmd.newIids)
include hcfg

/-- The end points get their port towards the client. -/
lemma guHandleGraphBoundaryModules_phase {m : Addr} :
    Triple (On (Listed base cmd srcs dsts m cfg)) (guHandleGraphBoundaryModules m)
      (fun _ => On (Phase base cmd srcs dsts)) (On (Inv [] [])) := by
  have hlimits : ∀ {w : GuWorld}, isEndPoint (w.moduleId m) →
      Triple (fun w' => w' = w ∧ On (Listed base cmd srcs dsts m cfg) w')
        (modify fun w => { w with
          maxInputPorts := update w.maxInputPorts m 1
          maxOutputPorts := update w.maxOutputPorts m 1 } : GuM Unit)
        (fun _ => On (Phase base cmd srcs dsts)) (On (Inv [] [])) := by
    intro w hend
    refine Triple.modify ?_
    rintro w' ⟨rfl, hw'⟩
    refine hw'.endPoint ?_
    rw [← hw'.moduleId]
    exact hend
  refine Triple.get_bind fun w hw => Triple.ite (fun hwr => ?_) fun _ =>
    Triple.ite (fun hrd => ?_) fun _ => Triple.pure fun _ h => h.2.phase
  · have hend : isEndPoint (w.moduleId m) := by simp [isEndPoint, hwr]
    refine Triple.bind (hlimits hend) fun _ => guHandleConnection_phase _ ?_ ?_
    · intro h
      exact absurd rfl h
    · intro _
      rw [show w.moduleInstanceId m = cfg.instanceId from hw.iid]
      exact hcfg
  · have hend : isEndPoint (w.moduleId m) := by simp [isEndPoint, hrd]
    refine Triple.bind (hlimits hend) fun _ => guHandleConnection_phase _ ?_ ?_
    · intro _
      rw [show w.moduleInstanceId m = cfg.instanceId from hw.iid]
      exact hcfg
    · intro h
      exact absurd rfl h

/-- The phase, with a subgraph of the current command. -/
def PhaseSg (base : Addr) (cmd : GraphOpenCmd) (srcs dsts : List UInt32) (sg : Addr)
    (v : PortView) : Prop :=
  Phase base cmd srcs dsts v ∧ sg ∈ v.openSgs

/-- A new module is in its phase. -/
lemma guCreateModule_phase {sg : Addr} :
    Triple (On (PhaseSg base cmd srcs dsts sg)) (guCreateModule sg cfg)
      (fun _ => On (PhaseSg base cmd srcs dsts sg)) (On (Inv [] [])) := by
  let Fresh (m : Addr) (v : PortView) : Prop := Unlisted base cmd srcs dsts m v ∧ sg ∈ v.openSgs
  let Ready (m : Addr) (v : PortView) : Prop :=
    Listed base cmd srcs dsts m cfg v ∧ sg ∈ v.openSgs
  refine Triple.get_bind fun w hw =>
    Triple.bind (Q := fun _ w' => w' = { w with next := w.next + 1 }) (Triple.modify ?_) fun _ =>
    Triple.bind (Q := fun _ => On (Fresh w.next)) (Triple.modify ?_) fun _ =>
    Triple.bind (Q := fun _ => On (Fresh w.next)) ?_ fun _ =>
    Triple.bind (Q := fun _ => On (Ready w.next)) (Triple.modify ?_) fun _ =>
    Triple.bind (Q := fun _ => On (PhaseSg base cmd srcs dsts sg)) ?_ fun _ => ?_
  · rintro w' ⟨rfl, -⟩
    rfl
  · rintro w' rfl
    exact ⟨hw.1.unlisted_newModule, hw.2⟩
  · exact (keepsOn malloc_leaves).exits fun _ h => h.1.phase.inv.nil
  · intro w' hw'
    exact ⟨hw'.1.listModule hw'.2 cfg, hw'.2⟩
  · have hphase : Triple (On (Listed base cmd srcs dsts w.next cfg))
        (guHandleGraphBoundaryModules w.next) (fun _ => On (Phase base cmd srcs dsts))
        (On (Inv [] [])) := guHandleGraphBoundaryModules_phase hcfg
    refine (hphase.and
      ((guHandleGraphBoundaryModules_leaves_openPart w.next).keeps (sg ∈ ·.2))).conseq ?_ ?_ ?_
    · intro w' hw'
      exact hw'
    · rintro _ w' hw'
      exact hw'
    · exact fun _ h => h.1
  · have hmalloc : Triple (On (PhaseSg base cmd srcs dsts sg)) malloc
        (fun _ => On (PhaseSg base cmd srcs dsts sg)) (On (Inv [] [])) :=
      (keepsOn malloc_leaves).exits fun _ h => h.1.inv.nil
    exact Triple.bind hmalloc fun _ => Triple.bind hmalloc fun _ => Triple.pure fun _ h => h

end

/-- The modules of a list are in their phase. -/
lemma guCreateModules_phase {l : ApmModulesList} (hl : l ∈ cmd.modList) :
    KeepsPhase base cmd srcs dsts (guCreateModules l) := by
  refine Triple.get_bind fun w hw => ?_
  split
  · exact Triple.throw fun _ h => h.2.inv.nil
  · rename_i sg hsg
    have hmem : sg ∈ w.portView.openSgs := by
      rw [openSgs_portView]
      exact mem_of_find?_eq_some hsg
    refine Triple.bind (Q := fun _ => On (PhaseSg base cmd srcs dsts sg))
      (Triple.modify ?_) fun _ =>
      Triple.bind (Q := fun _ => On (PhaseSg base cmd srcs dsts sg)) ?_ fun _ => ?_
    · rintro w' ⟨rfl, hw'⟩
      exact ⟨hw', hmem⟩
    · exact (keepsOn (guSgAllocateResource_leaves _)).conseq
        (fun _ h => h) (fun _ _ h => h) fun _ h => h.1.inv.nil
    · refine (Triple.mapM fun cfg hcfg => guCreateModule_phase ?_).post
        (fun _ _ h => h.1) fun _ h => h
      exact mem_map_of_mem (mem_flatMap.mpr ⟨l, hl, hcfg⟩)

/-- The invariant while limits are set: they cover the ports of all modules of the command. -/
structure Setting (cmd : GraphOpenCmd) (srcs dsts : List UInt32) (v : PortView) : Prop where
  inv : Inv srcs dsts v
  covers : ∀ m ∈ v.openModules, v.Covers cmd m

/-- After the objects the limits may be set. -/
lemma Phase.setting {v : PortView} (h : Phase base cmd srcs dsts v) : Setting cmd srcs dsts v := by
  refine ⟨h.inv, ?_⟩
  intro m hm
  by_cases hbase : m < base
  · exact (h.old m hm hbase).2
  · intro cfg _ _ prop _ l hl
    rcases h.new m hm (not_lt.mp hbase) with hend | ⟨hin, hout⟩
    · cases prop with
      | portInfo size ip op =>
        simp only [propLimits, hend, if_true] at hl
        cases hl
      | heapId id => cases hl
      | unsupported => cases hl
    · exact h.inv.fits_of_zero hin hout _ _

/-- Limits that cover the ports may be set. -/
lemma Setting.setMax {v : PortView} (h : Setting cmd srcs dsts v) {m : Addr}
    (hm : m ∈ v.openModules) {a b : ℕ} (ha : a ≤ 100) (hb : b ≤ 100) (hin : v.ins.Fits m a)
    (hout : v.outs.Fits m b) :
    Setting cmd srcs dsts { v with ins := v.ins.setMax m a, outs := v.outs.setMax m b } :=
  ⟨h.inv.setMax ha hb hin hout (h.inv.openModules_new hm), h.covers⟩

/-- The properties of the module `m` are being set. -/
def SettingAt (cmd : GraphOpenCmd) (srcs dsts : List UInt32) (m : Addr) (cfg : ApmModulePropCfg)
    (v : PortView) : Prop :=
  Setting cmd srcs dsts v ∧ m ∈ v.openModules ∧ v.iid m = cfg.instanceId

variable {cfg : ApmModulePropCfg}

/-- A property sets limits that cover the ports. -/
lemma setLimits_setting {m : Addr} (hcfg : cfg ∈ cmd.modPropCfgList)
    {prop : ApmModuleProp} (hprop : prop ∈ cfg.props) {w : GuWorld} {c : Bool} {a b : ℕ}
    (hab : c = true → a ≤ 100 ∧ b ≤ 100 ∧ propLimits (w.moduleId m) prop = some (a, b)) :
    Triple (fun w' => w' = w ∧ On (SettingAt cmd srcs dsts m cfg) w') (do
        verify c
        modify fun w => { w with
          maxInputPorts := update w.maxInputPorts m a
          maxOutputPorts := update w.maxOutputPorts m b })
      (fun _ => On (SettingAt cmd srcs dsts m cfg)) (On (SettingAt cmd srcs dsts m cfg)) := by
  refine Triple.bind ((verify_spec c).exits fun _ h => h.2)
    fun _ => Triple.modify ?_
  rintro w' ⟨⟨rfl, hsetting, hm, hiid⟩, hc⟩
  obtain ⟨ha, hb, hl⟩ := hab hc
  obtain ⟨hin, hout⟩ := hsetting.covers m hm cfg hcfg hiid.symm _ hprop _ hl
  exact ⟨hsetting.setMax hm ha hb hin hout, hm, hiid⟩

/-- One property of a module. -/
lemma guParseModuleProp_setting (env : OpenEnv) {m : Addr}
    (hcfg : cfg ∈ cmd.modPropCfgList) {prop : ApmModuleProp} (hprop : prop ∈ cfg.props) :
    Keeps (On (SettingAt cmd srcs dsts m cfg)) (guParseModuleProp env m prop) := by
  cases prop with
  | unsupported => exact Keeps.throw _
  | heapId id => exact Keeps.ite (Keeps.throw _) (Keeps.pure _)
  | portInfo size ip op =>
    refine Keeps.bind (keepsOn (verify_leaves _)) fun _ => Triple.get_bind fun w hw =>
      Triple.ite (fun _ => ?_) fun hwrEp => Triple.ite (fun _ => ?_) fun hrdEp =>
        Triple.ite (fun hwr => setLimits_setting hcfg hprop ?_) fun hwr =>
          Triple.ite (fun hrd => setLimits_setting hcfg hprop ?_) fun hrd =>
            setLimits_setting hcfg hprop ?_
    · exact (keepsOn (verify_leaves _)).pre fun _ h => h.2
    · exact (keepsOn (verify_leaves _)).pre fun _ h => h.2
    · intro hc
      obtain ⟨rfl, rfl⟩ := of_decide_eq_true hc
      refine ⟨by decide, by decide, ?_⟩
      rw [hwr]
      rfl
    · intro hc
      obtain ⟨rfl, rfl⟩ := of_decide_eq_true hc
      refine ⟨by decide, by decide, ?_⟩
      rw [hrd]
      rfl
    · intro hc
      obtain ⟨hip, hop⟩ := of_decide_eq_true hc
      refine ⟨UInt32.le_iff_toNat_le.mp hip, UInt32.le_iff_toNat_le.mp hop, ?_⟩
      simp [propLimits, isEndPoint, hwrEp, hrdEp, hwr, hrd]

/-- The properties of a module set limits that cover its ports. -/
lemma guParseModuleProps_setting (env : OpenEnv) (hcfg : cfg ∈ cmd.modPropCfgList) :
    Keeps (On (Setting cmd srcs dsts)) (guParseModuleProps env cfg) := by
  refine Triple.get_bind fun w hw => ?_
  split
  · exact Triple.throw fun _ h => h.2
  · rename_i m hm
    have hmem : m ∈ w.portView.openModules := by
      unfold PortView.openModules
      rw [openSgs_portView]
      exact mem_of_find?_eq_some hm
    have hiid : w.moduleInstanceId m = cfg.instanceId := by simpa using find?_some hm
    have hloop : Keeps (On (SettingAt cmd srcs dsts m cfg))
        (cfg.props.forM (guParseModuleProp env m)) :=
      Keeps.forM fun prop hprop => guParseModuleProp_setting env hcfg hprop
    refine hloop.conseq ?_ (fun _ _ h => h.1) fun _ h => h.1
    rintro w' ⟨rfl, hw'⟩
    exact ⟨hw', hmem, hiid⟩

/-- **The objects of a command keep the budget for its links.** -/
theorem guCreateObjects_on (env : OpenEnv) :
    Triple (On (Phase base cmd srcs dsts)) (guCreateObjects env cmd) (fun _ => On (Inv srcs dsts))
      (On (Inv [] [])) := by
  refine Triple.bind (Triple.forM fun cfg _ => guCreateSubgraph_phase cfg) fun _ =>
    Triple.bind (Triple.mapM fun l hl => guCreateModules_phase hl) fun handles =>
      Triple.bind (Q := fun _ => On (Setting cmd srcs dsts)) ?_ fun _ =>
        Triple.bind ?_ fun _ => Triple.pure fun _ h => h
  · exact (Keeps.forM fun cfg hcfg => guParseModuleProps_setting env hcfg).conseq
      (fun _ h => Phase.setting h) (fun _ _ h => h) fun _ h => h.inv.nil
  · refine (keepsOn (Leaves.get_bind fun w => Leaves.forM fun sg => ?_)).conseq (fun _ h => h.inv)
      (fun _ _ h => h) fun _ h => h.nil
    exact guSgAllocateResource_leaves _

end Objects

/-! ## Links, control links and the rest -/

section Rest

open PortView (Inv Phase)

variable {P : PortView → Prop}

/-- What survives allocations does not see control ports. -/
lemma Robust.ctrlBlind (hP : Robust P) : CtrlBlind (On P) where
  malloc := keepsOn malloc_leaves
  alloc w h := hP.alloc w.portView h
  mark w m h := hP.status w.portView _ (markUpdated_status m w) h
  list w ext h := by
    refine (congrArg P (setOpenGu_portView ?_ w)).mpr h
    exact fun _ => rfl
  ports _ _ _ _ _ _ _ _ _ _ _ _ h := h

/-- Loading modules leaves the ports alone. -/
lemma guHandleModuleLoading_leaves (env : OpenEnv) (handles : List Addr) :
    Leaves GuWorld.portView (guHandleModuleLoading env handles) :=
  Leaves.bind (Leaves.forM fun _ => Leaves.get_bind fun _ => Leaves.ite
    (Leaves.bind (verify_leaves _) fun _ => Leaves.modify fun _ => rfl) (Leaves.pure _)) fun _ =>
      Leaves.get_bind fun _ => verify_leaves _

/-- The query of a module leaves its ports alone. -/
lemma queryModule_portView (env : OpenEnv) (w : GuWorld) (m : Addr) :
    (w.queryModule env m).portView = w.portView := by
  unfold GuWorld.queryModule
  split
  · split
    · rfl
    · rfl
  · split
    · rfl
    · rfl

/-- The queries leave the ports alone. -/
lemma guQueryForModuleStaticProp_leaves (env : OpenEnv) :
    Leaves GuWorld.portView (guQueryForModuleStaticProp env) :=
  Leaves.get_bind fun _ => Leaves.forM fun m => Leaves.modify fun w => queryModule_portView env w m

/-- **The budget over `gu_create_graph`.** -/
theorem guCreateGraph_on (env : OpenEnv) (cmd : GraphOpenCmd) (base : Addr) :
    Triple (On (Phase base cmd (cmd.modConnList.map ApmModuleConnCfg.srcModInstId)
        (cmd.modConnList.map ApmModuleConnCfg.dstModInstId)))
      (guCreateGraph env cmd) (fun _ => On (Inv [] [])) (On (Inv [] [])) := by
  refine Triple.bind (guCreateObjects_on env) fun handles =>
    Triple.bind ?_ fun _ =>
      Keeps.bind (Keeps.forM fun link _ =>
        guCreateControlLink_keeps (Inv.robust [] []).ctrlBlind env cmd link) fun _ =>
        Keeps.bind (keepsOn (guHandleModuleLoading_leaves env handles)) fun _ =>
          Keeps.bind (keepsOn (guQueryForModuleStaticProp_leaves env)) fun _ =>
            Keeps.bind (keepsOn (Leaves.forM fun conn =>
              Leaves.get_bind fun w => guParseAndAttach_leaves _ _)) fun _ =>
              Keeps.bind Keeps.get fun w =>
                Keeps.ite (keepsOn guUpdateSortedList_leaves) (Keeps.pure _)
  exact @Triple.forM_rest _ _ _ _ (fun l => On (Inv (l.map ApmModuleConnCfg.srcModInstId)
    (l.map ApmModuleConnCfg.dstModInstId))) _ _ fun conn l => guHandleConnection_on true conn

/-- Whether the open is asynchronous. -/
def isAsync (w : GuWorld) : Bool := w.portView.async.isSome

/-- What leaves the lists alone leaves the open as it is. -/
lemma leaves_isAsync {α : Type} {x : GuM α} (h : Leaves openPart x) : Leaves isAsync x :=
  h.comp Prod.fst

/-- A new subgraph leaves the open as it is. -/
lemma guCreateSubgraph_leaves_isAsync (cfg : ApmSubGraphCfg) :
    Leaves isAsync (guCreateSubgraph cfg) := by
  have hmalloc : Leaves isAsync malloc := leaves_isAsync (leaves_openPart malloc_leaves)
  refine Leaves.get_bind fun _ => Leaves.bind (Leaves.ite (Leaves.pure _) (Leaves.throw _)) fun _ =>
    Leaves.bind (leaves_isAsync mallocObj_leaves_openPart) fun sg =>
      Leaves.bind (Leaves.modify fun _ => rfl) fun _ => Leaves.bind (Leaves.modify fun w => ?_)
        fun _ => Leaves.bind hmalloc fun _ => Leaves.bind (Leaves.modify fun w => ?_) fun _ =>
          Leaves.ite (Leaves.pure _) (Leaves.throw _)
  · exact congrArg Prod.fst (setOpenGu_openPart (by intro gu; rfl) w)
  · unfold isAsync
    rw [listSg_portView]
    unfold PortView.listSg
    cases w.portView.async with
    | none => rfl
    | some a => rfl

/-- The properties of a module leave the lists alone. -/
lemma guParseModuleProps_leaves_openPart (env : OpenEnv) (cfg : ApmModulePropCfg) :
    Leaves openPart (guParseModuleProps env cfg) := by
  have hverify : ∀ c, Leaves openPart (verify c) := fun c => leaves_openPart (verify_leaves c)
  have hlimits : ∀ {c : Bool} {f : GuWorld → GuWorld}, (∀ w, openPart (f w) = openPart w) →
      Leaves openPart (do verify c; modify f : GuM Unit) :=
    fun hf => Leaves.bind (hverify _) fun _ => Leaves.modify hf
  refine Leaves.get_bind fun w => ?_
  split
  · exact Leaves.throw _
  · refine Leaves.forM fun prop => ?_
    cases prop with
    | unsupported => exact Leaves.throw _
    | heapId id => exact Leaves.ite (Leaves.throw _) (Leaves.pure _)
    | portInfo size ip op =>
      exact Leaves.bind (hverify _) fun _ => Leaves.get_bind fun _ => Leaves.ite (hverify _)
        (Leaves.ite (hverify _) (Leaves.ite (hlimits fun _ => rfl)
          (Leaves.ite (hlimits fun _ => rfl) (hlimits fun _ => rfl))))

/-- An open stays what it is, synchronous or asynchronous. -/
theorem guCreateGraph_leaves_isAsync (env : OpenEnv) (cmd : GraphOpenCmd) :
    Leaves isAsync (guCreateGraph env cmd) := by
  refine Leaves.bind (Leaves.bind (Leaves.forM guCreateSubgraph_leaves_isAsync) fun _ =>
    Leaves.bind (Leaves.mapM fun l => leaves_isAsync (guCreateModules_leaves_openPart l)) fun _ =>
      Leaves.bind (Leaves.forM fun cfg => leaves_isAsync (guParseModuleProps_leaves_openPart env cfg))
        fun _ => Leaves.bind ?_ fun _ => Leaves.pure _) fun handles =>
    Leaves.bind (Leaves.forM fun conn =>
      leaves_isAsync (guHandleConnection_leaves_openPart true conn)) fun _ =>
      Leaves.bind (Leaves.forM fun link =>
        leaves_isAsync (Leaves.of_keeps fun part =>
          guCreateControlLink_keeps (robust_openPart part).ctrlBlind env cmd link)) fun _ =>
        leaves_isAsync (leaves_openPart (Leaves.bind (guHandleModuleLoading_leaves env handles)
          fun _ => Leaves.bind (guQueryForModuleStaticProp_leaves env) fun _ =>
            Leaves.bind (Leaves.forM fun conn => Leaves.get_bind fun w =>
              guParseAndAttach_leaves _ _) fun _ => Leaves.get_bind fun w =>
                Leaves.ite guUpdateSortedList_leaves (Leaves.pure _)))
  exact Leaves.get_bind fun w => Leaves.forM fun sg =>
    leaves_isAsync (leaves_openPart (guSgAllocateResource_leaves _))

end Rest

end AudioReach
