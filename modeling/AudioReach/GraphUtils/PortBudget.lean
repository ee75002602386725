import Mathlib.Data.List.Find
import AudioReach.GraphUtils.PortTable

/-!
# The budget of an open

The limit of a module is checked when a port is created and its counter is incremented
when the port is inserted.  In an asynchronous open the two moments are apart for modules that already
run: their ports wait on the pending list.  The invariant of an open, `PortView.Inv`,
therefore budgets for them: the ports of a running module, those that wait and the links
still to come fit its limit.

All of this depends only on a small part of the graph, the `PortView`.  Programs are
described by what they do to the view.
-/

namespace AudioReach

open Function (update update_of_ne update_self)
open Library List Option

namespace PortTable

/-- The ports of the module fit below a limit. -/
def Fits (t : PortTable) (m : Addr) (limit : ℕ) : Prop :=
  (t.ports m).length ≤ limit ∧ ∀ p ∈ t.ports m, t.index p < limit

instance (t : PortTable) (m : Addr) (limit : ℕ) : Decidable (t.Fits m limit) :=
  inferInstanceAs (Decidable (_ ∧ _))

/-- How many of the ports belong to the module. -/
def waiting (t : PortTable) (pending : List Addr) (m : Addr) : ℕ :=
  pending.countP fun p => t.owner p = m

end PortTable

/-! ## What an open looks at -/

/-- The input ports of a pending list. -/
def pendingIns (ports : List GuCmnPort) : List Addr :=
  ports.filterMap fun
    | .input p => some p
    | .output _ => none

/-- The output ports of a pending list. -/
def pendingOuts (ports : List GuCmnPort) : List Addr :=
  ports.filterMap fun
    | .input _ => none
    | .output p => some p

/-- The part of the graph that decides about port limits. -/
structure PortView where
  ins : PortTable
  outs : PortTable
  status : Addr → GuStatus
  moduleId : Addr → UInt32
  iid : Addr → UInt32
  sgModules : Addr → List Addr
  sgs : List Addr
  /-- Subgraphs and pending ports of the asynchronous graph. -/
  async : Option (List Addr × List GuCmnPort)
  next : Addr

/-- The view of a graph. -/
def GuWorld.portView (w : GuWorld) : PortView :=
  ⟨w.ins, w.outs, w.moduleGuStatus, w.moduleId, w.moduleInstanceId, w.sgModuleList, w.gu.sgList,
    w.asyncGu.map fun a => (a.gu.sgList, a.portList), w.next⟩

namespace PortView

/-- The subgraphs of the graph of the current command. -/
def openSgs (v : PortView) : List Addr :=
  match v.async with
  | none => v.sgs
  | some a => a.1

/-- `gu_find_module` in the main graph. -/
def find (v : PortView) (iid : UInt32) : Option Addr :=
  (v.sgs.flatMap v.sgModules).find? fun m => v.iid m = iid

/-- The links still to come that end at a module of the main graph. -/
def links (v : PortView) (iids : List UInt32) (m : Addr) : ℕ :=
  iids.countP fun iid => v.find iid = some m

/-- The budget of one direction: `pending` are the ports that wait, `links m` the links to
come for a module. -/
structure Budget (next : Addr) (status : Addr → GuStatus) (links : Addr → ℕ) (t : PortTable)
    (pending : List Addr) : Prop where
  nodup : pending.Nodup
  unlisted : ∀ p ∈ pending, p ∉ t.ports (t.owner p)
  /-- A port that waits, and its module, were allocated. -/
  allocated : ∀ p ∈ pending, p < next ∧ t.owner p < next
  new : ∀ m, status m = .new → t.waiting pending m = 0
  /-- A module that runs is full and takes no further port, or the links to come fit. -/
  room : ∀ m, status m ≠ .new → ((t.ports m).length = t.max m ∧ t.waiting pending m = 0) ∨
      (t.ports m).length + t.waiting pending m + links m ≤ t.max m

/-- The invariant of an open; `srcs` and `dsts` are the sources and destinations of the
links to come. -/
structure Inv (srcs dsts : List UInt32) (v : PortView) : Prop where
  ins : v.ins.Ok v.next
  outs : v.outs.Ok v.next
  sgs : ∀ sg ∈ v.sgs, sg < v.next ∧ ∀ m ∈ v.sgModules sg, m < v.next
  /-- The same for those of an asynchronous open, whose modules are new. -/
  async_sgs : ∀ a, v.async = some a → ∀ sg ∈ a.1, sg < v.next ∧ sg ∉ v.sgs ∧
    ∀ m ∈ v.sgModules sg, m < v.next ∧ v.status m = .new
  in_budget : ∀ a, v.async = some a → Budget v.next v.status (v.links dsts) v.ins (pendingIns a.2)
  out_budget : ∀ a, v.async = some a →
    Budget v.next v.status (v.links srcs) v.outs (pendingOuts a.2)

/-! ## Steps on one table -/

namespace Budget

variable {next : Addr} {status : Addr → GuStatus} {links : Addr → ℕ} {t : PortTable}
  {pending : List Addr}

section

variable (h : Budget next status links t pending)
include h

/-- Fewer links to come and more addresses do not hurt. -/
lemma mono {next' : Addr} {links' : Addr → ℕ} (hnext : next ≤ next')
    (hlinks : ∀ m, links' m ≤ links m) : Budget next' status links' t pending := by
  refine ⟨h.nodup, h.unlisted, ?_, h.new, ?_⟩
  · intro p hp
    exact ⟨(h.allocated p hp).1.trans_le hnext, (h.allocated p hp).2.trans_le hnext⟩
  · intro m hm
    refine (h.room m hm).imp id fun hroom => ?_
    have := hlinks m
    omega

/-- Only being new matters of the status. -/
lemma of_status {status' : Addr → GuStatus} (hstatus : ∀ m, status' m = .new ↔ status m = .new) :
    Budget next status' links t pending :=
  ⟨h.nodup, h.unlisted, h.allocated, fun m hm => h.new m ((hstatus m).mp hm),
    fun m hm => h.room m fun hnew => hm ((hstatus m).mpr hnew)⟩

/-- A table that differs only at new modules has the same budget. -/
lemma of_table {t' : PortTable} (howner : ∀ p ∈ pending, t'.owner p = t.owner p)
    (hsame : ∀ m, status m ≠ .new → t'.ports m = t.ports m ∧ t'.max m = t.max m) :
    Budget next status links t' pending := by
  have hwaiting : ∀ m, t'.waiting pending m = t.waiting pending m := by
    intro m
    refine countP_congr ?_
    intro p hp
    rw [howner p hp]
  refine ⟨h.nodup, ?_, ?_, ?_, ?_⟩
  · intro p hp
    -- the module of a waiting port is not new, so its list is the old one
    have hne : status (t.owner p) ≠ .new := by
      intro hnew
      have := countP_eq_zero.mp (h.new _ hnew) p hp
      simp at this
    rw [howner p hp, (hsame _ hne).1]
    exact h.unlisted p hp
  · intro p hp
    rw [howner p hp]
    exact h.allocated p hp
  · intro m hm
    rw [hwaiting]
    exact h.new m hm
  · intro m hm
    rw [hwaiting, (hsame m hm).1, (hsame m hm).2]
    exact h.room m hm

/-- A new port costs nothing until it is inserted. -/
lemma create (m : Addr) : Budget (next + 1) status links (t.create next m) pending := by
  refine (h.mono (Nat.le_succ next) fun _ => le_rfl).of_table ?_ fun _ _ => ⟨rfl, rfl⟩
  intro p hp
  have hne : p ≠ next := ((h.allocated p hp).1).ne
  simp only [PortTable.create, update_of_ne hne]

/-- A port is put on the pending list: one link to come has come. -/
lemma push {m p : Addr} {links' : Addr → ℕ} (howner : t.owner p = m) (hp : p < next) (hm : m < next)
    (hunlisted : p ∉ t.ports m) (hnew : p ∉ pending) (hstatus : status m ≠ .new)
    (hroom : (t.ports m).length < t.max m) (hself : links' m + 1 ≤ links m)
    (hother : ∀ m', links' m' ≤ links m') : Budget next status links' t (pending ++ [p]) := by
  have hwaiting : ∀ m', t.waiting (pending ++ [p]) m' =
      t.waiting pending m' + if m = m' then 1 else 0 := by
    intro m'
    simp only [PortTable.waiting, countP_append, countP_singleton, howner, decide_eq_true_eq]
  refine ⟨?_, ?_, ?_, ?_, ?_⟩
  · rw [nodup_append]
    refine ⟨h.nodup, by simp, ?_⟩
    intro q hq q' hq' heq
    rw [mem_singleton.mp hq'] at heq
    exact hnew (heq ▸ hq)
  · intro q hq
    rcases mem_append.mp hq with hq | hq
    · exact h.unlisted q hq
    · rw [mem_singleton.mp hq, howner]
      exact hunlisted
  · intro q hq
    rcases mem_append.mp hq with hq | hq
    · exact h.allocated q hq
    · rw [mem_singleton.mp hq, howner]
      exact ⟨hp, hm⟩
  · intro m' hm'
    have hne : m ≠ m' := by
      rintro rfl
      exact hstatus hm'
    rw [hwaiting, if_neg hne, h.new m' hm']
  · intro m' hm'
    rw [hwaiting]
    have hlinks := hother m'
    by_cases hmm : m = m'
    · subst hmm
      rw [if_pos rfl]
      rcases h.room m hm' with hfull | hfits
      · exact absurd hfull.1 hroom.ne
      · right
        omega
    · rw [if_neg hmm]
      refine (h.room m' hm').imp id fun hfits => ?_
      omega

end

end Budget

/-! ## Steps on the whole view -/

/-- One link more, for the module it leads to. -/
lemma links_cons (v : PortView) (iid : UInt32) (iids : List UInt32) (m : Addr) :
    v.links (iid :: iids) m = v.links iids m + if v.find iid = some m then 1 else 0 := by
  unfold links
  rw [countP_cons]
  simp only [decide_eq_true_eq]

/-- The links to come depend on the look-up only. -/
lemma links_congr {v v' : PortView} (h : v'.find = v.find) (iids : List UInt32) :
    v'.links iids = v.links iids := by
  unfold links
  rw [h]

/-- The subgraph joins the graph of the current command. -/
def listSg (v : PortView) (sg : Addr) : PortView :=
  match v.async with
  | none => { v with sgs := v.sgs ++ [sg] }
  | some a => { v with async := some (a.1 ++ [sg], a.2) }

/-- A module created at the next address. -/
def newModule (v : PortView) : PortView :=
  { v with
    ins := v.ins.clear v.next 0
    outs := v.outs.clear v.next 0
    status := update v.status v.next .new
    moduleId := update v.moduleId v.next 0
    iid := update v.iid v.next 0
    next := v.next + 1 }

/-- The module joins a subgraph. -/
def listModule (v : PortView) (sg m : Addr) (i id : UInt32) : PortView :=
  { v with
    sgModules := update v.sgModules sg (v.sgModules sg ++ [m])
    iid := update v.iid m i
    moduleId := update v.moduleId m id }

/-- A new module is not found before it is listed. -/
lemma find_newModule {v : PortView} (h : ∀ sg ∈ v.sgs, ∀ m ∈ v.sgModules sg, m < v.next) :
    v.newModule.find = v.find := by
  funext i
  refine find?_congr ?_
  intro m hm
  obtain ⟨sg, hsg, hm⟩ := mem_flatMap.mp hm
  simp only [newModule, update_of_ne (h sg hsg m hm).ne]

namespace Inv

variable {v : PortView} {srcs dsts : List UInt32}

/-- In a synchronous open the budget is that of the tables. -/
lemma of_sync (hins : v.ins.Ok v.next) (houts : v.outs.Ok v.next)
    (hsgs : ∀ sg ∈ v.sgs, sg < v.next ∧ ∀ m ∈ v.sgModules sg, m < v.next)
    (hasync : v.async = none) : Inv srcs dsts v := by
  have hnone : ∀ a, v.async ≠ some a := by
    intro a ha
    rw [hasync] at ha
    cases ha
  exact ⟨hins, houts, hsgs, fun a ha => absurd ha (hnone a), fun a ha => absurd ha (hnone a),
    fun a ha => absurd ha (hnone a)⟩

variable {iid : UInt32} {m p : Addr}

/-- A source that is done is left out. -/
lemma tail_src (h : Inv (iid :: srcs) dsts v) : Inv srcs dsts v :=
  { h with
    out_budget := fun a ha => (h.out_budget a ha).mono le_rfl fun m => by
      rw [links_cons]
      exact Nat.le_add_right _ _ }

/-- A destination that is done is left out. -/
lemma tail_dst (h : Inv srcs (iid :: dsts) v) : Inv srcs dsts v :=
  { h with
    in_budget := fun a ha => (h.in_budget a ha).mono le_rfl fun m => by
      rw [links_cons]
      exact Nat.le_add_right _ _ }

section

variable (h : Inv srcs dsts v)
include h

/-- With no links to come the budget holds still. -/
lemma nil : Inv [] [] v :=
  { h with
    in_budget := fun a ha => (h.in_budget a ha).mono le_rfl fun _ => Nat.zero_le _
    out_budget := fun a ha => (h.out_budget a ha).mono le_rfl fun _ => Nat.zero_le _ }

/-- An allocation keeps the budget. -/
lemma alloc : Inv srcs dsts { v with next := v.next + 1 } := by
  have hlt : ∀ {a : Addr}, a < v.next → a < v.next + 1 := fun ha => ha.trans (Nat.lt_succ_self _)
  refine ⟨h.ins.mono (Nat.le_succ _), h.outs.mono (Nat.le_succ _), ?_, ?_, ?_, ?_⟩
  · intro sg hsg
    exact ⟨hlt (h.sgs sg hsg).1, fun m hm => hlt ((h.sgs sg hsg).2 m hm)⟩
  · intro a ha sg hsg
    obtain ⟨hsg', hapart, hms⟩ := h.async_sgs a ha sg hsg
    exact ⟨hlt hsg', hapart, fun m hm => ⟨hlt (hms m hm).1, (hms m hm).2⟩⟩
  · intro a ha
    exact (h.in_budget a ha).mono (Nat.le_succ _) fun _ => le_rfl
  · intro a ha
    exact (h.out_budget a ha).mono (Nat.le_succ _) fun _ => le_rfl

/-- A new output port keeps the budget. -/
lemma createOut (m : Addr) :
    Inv srcs dsts { v with outs := v.outs.create v.next m, next := v.next + 1 } :=
  { h.alloc with
    outs := h.outs.create m
    out_budget := fun a ha => (h.out_budget a ha).create m }

/-- A new input port keeps the budget. -/
lemma createIn (m : Addr) :
    Inv srcs dsts { v with ins := v.ins.create v.next m, next := v.next + 1 } :=
  { h.alloc with
    ins := h.ins.create m
    in_budget := fun a ha => (h.in_budget a ha).create m }

/-- Only being new matters of the status. -/
lemma of_status {status : Addr → GuStatus} (hstatus : ∀ m, status m = .new ↔ v.status m = .new) :
    Inv srcs dsts { v with status := status } :=
  { h with
    async_sgs := fun a ha sg hsg =>
      have hsgs := h.async_sgs a ha sg hsg
      ⟨hsgs.1, hsgs.2.1, fun m hm => ⟨(hsgs.2.2 m hm).1, (hstatus m).mpr (hsgs.2.2 m hm).2⟩⟩
    in_budget := fun a ha => (h.in_budget a ha).of_status hstatus
    out_budget := fun a ha => (h.out_budget a ha).of_status hstatus }

/-- The output port `p` of `m` waits nowhere and fits the module. -/
structure FreeOut (v : PortView) (m p : Addr) : Prop where
  owner : v.outs.owner p = m
  allocated : p < v.next ∧ m < v.next
  unlisted : p ∉ v.outs.ports m
  unpending : ∀ a, v.async = some a → p ∉ pendingOuts a.2
  room : (v.outs.ports m).length < v.outs.max m

/-- The input port `p` of `m` waits nowhere and fits the module. -/
structure FreeIn (v : PortView) (m p : Addr) : Prop where
  owner : v.ins.owner p = m
  allocated : p < v.next ∧ m < v.next
  unlisted : p ∉ v.ins.ports m
  unpending : ∀ a, v.async = some a → p ∉ pendingIns a.2
  room : (v.ins.ports m).length < v.ins.max m

/-- A new output port waits nowhere and fits. -/
lemma freeOut_create (hm : m < v.next) (hroom : (v.outs.ports m).length < v.outs.max m) :
    FreeOut { v with outs := v.outs.create v.next m, next := v.next + 1 } m v.next := by
  refine ⟨?_, ⟨Nat.lt_succ_self _, hm.trans (Nat.lt_succ_self _)⟩, ?_, ?_, hroom⟩
  · simp only [PortTable.create, update_self]
  · intro hp
    exact absurd (h.outs.allocated m _ hp) (lt_irrefl _)
  · intro a ha hp
    exact absurd ((h.out_budget a ha).allocated _ hp).1 (lt_irrefl _)

/-- A new input port waits nowhere and fits. -/
lemma freeIn_create (hm : m < v.next) (hroom : (v.ins.ports m).length < v.ins.max m) :
    FreeIn { v with ins := v.ins.create v.next m, next := v.next + 1 } m v.next := by
  refine ⟨?_, ⟨Nat.lt_succ_self _, hm.trans (Nat.lt_succ_self _)⟩, ?_, ?_, hroom⟩
  · simp only [PortTable.create, update_self]
  · intro hp
    exact absurd (h.ins.allocated m _ hp) (lt_irrefl _)
  · intro a ha hp
    exact absurd ((h.in_budget a ha).allocated _ hp).1 (lt_irrefl _)

/-- An output port is inserted at once. -/
lemma insertOut (hp : FreeOut v m p) (hnow : v.status m = .new ∨ v.async = none) :
    Inv srcs dsts { v with outs := v.outs.insert m p } :=
  { h with
    outs := h.outs.insert hp.owner hp.unlisted hp.allocated.1 hp.room
    out_budget := fun a ha => (h.out_budget a ha).of_table (fun _ _ => rfl) fun m' hm' => by
      have hne : m' ≠ m := by
        rintro rfl
        rcases hnow with hnew | hsync
        · exact hm' hnew
        · rw [hsync] at ha
          cases ha
      exact ⟨update_of_ne hne _ _, rfl⟩ }

/-- An input port is inserted at once. -/
lemma insertIn (hp : FreeIn v m p) (hnow : v.status m = .new ∨ v.async = none) :
    Inv srcs dsts { v with ins := v.ins.insert m p } :=
  { h with
    ins := h.ins.insert hp.owner hp.unlisted hp.allocated.1 hp.room
    in_budget := fun a ha => (h.in_budget a ha).of_table (fun _ _ => rfl) fun m' hm' => by
      have hne : m' ≠ m := by
        rintro rfl
        rcases hnow with hnew | hsync
        · exact hm' hnew
        · rw [hsync] at ha
          cases ha
      exact ⟨update_of_ne hne _ _, rfl⟩ }

end

/-- The port joins the pending list of an asynchronous open, on account of a link to come. -/
lemma pushOut (h : Inv (iid :: srcs) dsts v) (hp : FreeOut v m p)
    (hstatus : v.status m ≠ .new) (hfind : v.find iid = some m) :
    Inv srcs dsts { v with async := v.async.map fun a => (a.1, a.2 ++ [.output p]) } := by
  refine ⟨h.ins, h.outs, h.sgs, ?_, ?_, ?_⟩
  · intro a ha
    obtain ⟨a₀, ha₀, rfl⟩ := map_eq_some_iff.mp ha
    exact h.async_sgs a₀ ha₀
  · intro a ha
    obtain ⟨a₀, ha₀, rfl⟩ := map_eq_some_iff.mp ha
    have hins : pendingIns (a₀.2 ++ [.output p]) = pendingIns a₀.2 := by simp [pendingIns]
    simp only [hins]
    exact h.in_budget a₀ ha₀
  · intro a ha
    obtain ⟨a₀, ha₀, rfl⟩ := map_eq_some_iff.mp ha
    have houts : pendingOuts (a₀.2 ++ [.output p]) = pendingOuts a₀.2 ++ [p] := by
      simp [pendingOuts]
    simp only [houts]
    refine (h.out_budget a₀ ha₀).push hp.owner hp.allocated.1 hp.allocated.2 hp.unlisted
      (hp.unpending a₀ ha₀) hstatus hp.room ?_ ?_
    · rw [links_cons, if_pos hfind]
      exact le_rfl
    · intro m'
      rw [links_cons]
      exact Nat.le_add_right _ _

/-- An input port waits for the merge. -/
lemma pushIn (h : Inv srcs (iid :: dsts) v) (hp : FreeIn v m p)
    (hstatus : v.status m ≠ .new) (hfind : v.find iid = some m) :
    Inv srcs dsts { v with async := v.async.map fun a => (a.1, a.2 ++ [.input p]) } := by
  refine ⟨h.ins, h.outs, h.sgs, ?_, ?_, ?_⟩
  · intro a ha
    obtain ⟨a₀, ha₀, rfl⟩ := map_eq_some_iff.mp ha
    exact h.async_sgs a₀ ha₀
  · intro a ha
    obtain ⟨a₀, ha₀, rfl⟩ := map_eq_some_iff.mp ha
    have hins : pendingIns (a₀.2 ++ [.input p]) = pendingIns a₀.2 ++ [p] := by
      simp [pendingIns]
    simp only [hins]
    refine (h.in_budget a₀ ha₀).push hp.owner hp.allocated.1 hp.allocated.2 hp.unlisted
      (hp.unpending a₀ ha₀) hstatus hp.room ?_ ?_
    · rw [links_cons, if_pos hfind]
      exact le_rfl
    · intro m'
      rw [links_cons]
      exact Nat.le_add_right _ _
  · intro a ha
    obtain ⟨a₀, ha₀, rfl⟩ := map_eq_some_iff.mp ha
    have houts : pendingOuts (a₀.2 ++ [.input p]) = pendingOuts a₀.2 := by simp [pendingOuts]
    simp only [houts]
    exact h.out_budget a₀ ha₀

/-! ### New subgraphs and modules -/

section

variable (h : Inv srcs dsts v)
include h

/-- What does not change the look-up in the main graph leaves the budget alone. -/
lemma of_find {iid moduleId : Addr → UInt32} {sgModules : Addr → List Addr}
    (hmain : ∀ sg ∈ v.sgs, sgModules sg = v.sgModules sg)
    (hiid : ∀ sg ∈ v.sgs, ∀ m ∈ v.sgModules sg, iid m = v.iid m)
    (hasync : ∀ a, v.async = some a →
      ∀ sg ∈ a.1, ∀ m ∈ sgModules sg, m < v.next ∧ v.status m = .new)
    : Inv srcs dsts { v with iid := iid, moduleId := moduleId, sgModules := sgModules } := by
  have hfind : PortView.find { v with iid := iid, moduleId := moduleId, sgModules := sgModules } =
      v.find := by
    funext i
    have hflat : v.sgs.flatMap sgModules = v.sgs.flatMap v.sgModules :=
      flatMap_congr hmain
    simp only [PortView.find, hflat]
    refine find?_congr ?_
    intro m hm
    obtain ⟨sg, hsg, hm⟩ := mem_flatMap.mp hm
    simp only [hiid sg hsg m hm]
  refine ⟨h.ins, h.outs, ?_, ?_, ?_, ?_⟩
  · intro sg hsg
    refine ⟨(h.sgs sg hsg).1, ?_⟩
    intro m hm
    exact (h.sgs sg hsg).2 m (hmain sg hsg ▸ hm)
  · intro a ha sg hsg
    obtain ⟨hsg', hapart, -⟩ := h.async_sgs a ha sg hsg
    exact ⟨hsg', hapart, hasync a ha sg hsg⟩
  · intro a ha
    rw [links_congr hfind]
    exact h.in_budget a ha
  · intro a ha
    rw [links_congr hfind]
    exact h.out_budget a ha

/-- A new subgraph keeps the budget. -/
lemma newSg :
    Inv srcs dsts { v with sgModules := update v.sgModules v.next [], next := v.next + 1 } := by
  have hne : ∀ sg, sg < v.next → sg ≠ v.next := fun sg hsg => hsg.ne
  refine h.alloc.of_find ?_ (fun _ _ _ _ => rfl) ?_
  · intro sg hsg
    exact update_of_ne (hne sg (h.sgs sg hsg).1) _ _
  · intro a ha sg hsg m hm
    obtain ⟨hsg', -, hms⟩ := h.async_sgs a ha sg hsg
    rw [update_of_ne (hne sg hsg')] at hm
    exact ⟨(hms m hm).1.trans (Nat.lt_succ_self _), (hms m hm).2⟩

/-- The new subgraph joins the graph of the current command. -/
lemma listSg {sg : Addr} (hsg : sg < v.next) (hnew : sg ∉ v.sgs) (hempty : v.sgModules sg = []) :
    Inv srcs dsts (v.listSg sg) := by
  cases ha : v.async with
  | none =>
    simp only [PortView.listSg, ha]
    refine of_sync h.ins h.outs ?_ rfl
    intro sg' hsg'
    rcases mem_append.mp hsg' with hsg' | hsg'
    · exact h.sgs sg' hsg'
    · rw [mem_singleton.mp hsg']
      refine ⟨hsg, ?_⟩
      intro m hm
      rw [hempty] at hm
      cases hm
  | some a₀ =>
    simp only [PortView.listSg, ha]
    refine ⟨h.ins, h.outs, h.sgs, ?_, ?_, ?_⟩
    · intro a ha' sg' hsg'
      cases ha'
      rcases mem_append.mp hsg' with hsg' | hsg'
      · exact h.async_sgs a₀ ha sg' hsg'
      · rw [mem_singleton.mp hsg']
        refine ⟨hsg, hnew, ?_⟩
        intro m hm
        rw [hempty] at hm
        cases hm
    · intro a ha'
      cases ha'
      exact h.in_budget a₀ ha
    · intro a ha'
      cases ha'
      exact h.out_budget a₀ ha

/-- A module created at the next address. -/
lemma newModule : Inv srcs dsts v.newModule := by
  have hne : ∀ m, m < v.next → m ≠ v.next := fun m hm => hm.ne
  have hstatus : ∀ m, m < v.next → update v.status v.next .new m = v.status m :=
    fun m hm => update_of_ne (hne m hm) _ _
  -- no port waits for the new module, and the other modules are as before
  have hbudget : ∀ {links : Addr → ℕ} {t : PortTable} {pending : List Addr},
      Budget v.next v.status links t pending →
      Budget (v.next + 1) (update v.status v.next .new) links (t.clear v.next 0) pending := by
    intro links t pending hb
    have hclear : Budget (v.next + 1) (update v.status v.next .new) links t pending := by
      refine ⟨hb.nodup, hb.unlisted, (hb.mono (Nat.le_succ _) fun _ => le_rfl).allocated, ?_, ?_⟩
      · intro m hm
        by_cases hmn : m = v.next
        · subst hmn
          refine countP_eq_zero.mpr ?_
          intro p hp
          simpa using (hb.allocated p hp).2.ne
        · rw [update_of_ne hmn] at hm
          exact hb.new m hm
      · intro m hm
        have hmn : m ≠ v.next := by
          rintro rfl
          exact hm (update_self _ _ _)
        rw [update_of_ne hmn] at hm
        exact hb.room m hm
    refine hclear.of_table (fun _ _ => rfl) ?_
    intro m hm
    have hmn : m ≠ v.next := by
      rintro rfl
      exact hm (update_self _ _ _)
    exact ⟨update_of_ne hmn _ _, update_of_ne hmn _ _⟩
  have halloc : Inv srcs dsts { v with
      iid := update v.iid v.next 0, moduleId := update v.moduleId v.next 0
      next := v.next + 1 } := by
    refine h.alloc.of_find (fun _ _ => rfl) ?_ ?_
    · intro sg hsg m hm
      exact update_of_ne (hne m ((h.sgs sg hsg).2 m hm)) _ _
    · intro a ha sg hsg m hm
      obtain ⟨-, -, hms⟩ := h.async_sgs a ha sg hsg
      exact ⟨(hms m hm).1.trans (Nat.lt_succ_self _), (hms m hm).2⟩
  refine ⟨(h.ins.mono (Nat.le_succ _)).clear _ (Nat.zero_le _),
    (h.outs.mono (Nat.le_succ _)).clear _ (Nat.zero_le _), halloc.sgs, ?_, ?_, ?_⟩
  · intro a ha sg hsg
    obtain ⟨hsg', hapart, hms⟩ := h.async_sgs a ha sg hsg
    refine ⟨hsg'.trans (Nat.lt_succ_self _), hapart, ?_⟩
    intro m hm
    refine ⟨(hms m hm).1.trans (Nat.lt_succ_self _), ?_⟩
    exact (hstatus m (hms m hm).1).trans (hms m hm).2
  · intro a ha
    have hlinks : v.newModule.links dsts = v.links dsts :=
      links_congr (find_newModule fun sg hsg m hm => (h.sgs sg hsg).2 m hm) dsts
    rw [hlinks]
    exact hbudget (h.in_budget a ha)
  · intro a ha
    have hlinks : v.newModule.links srcs = v.links srcs :=
      links_congr (find_newModule fun sg hsg m hm => (h.sgs sg hsg).2 m hm) srcs
    rw [hlinks]
    exact hbudget (h.out_budget a ha)

/-- The new module joins a subgraph of the current command. -/
lemma listModule {sg : Addr} (hsg : sg ∈ v.openSgs) (hm : m < v.next) (hnew : v.status m = .new)
    (hfresh : ∀ sg ∈ v.sgs, m ∉ v.sgModules sg) (i id : UInt32) :
    Inv srcs dsts (v.listModule sg m i id) := by
  unfold PortView.openSgs at hsg
  cases ha : v.async with
  | none =>
    refine of_sync h.ins h.outs ?_ ha
    intro sg' hsg'
    refine ⟨(h.sgs sg' hsg').1, ?_⟩
    intro m' hm'
    by_cases hss : sg' = sg
    · subst hss
      simp only [PortView.listModule, update_self, mem_append, mem_singleton] at hm'
      rcases hm' with hm' | rfl
      · exact (h.sgs sg' hsg').2 m' hm'
      · exact hm
    · simp only [PortView.listModule, update_of_ne hss] at hm'
      exact (h.sgs sg' hsg').2 m' hm'
  | some a₀ =>
    rw [ha] at hsg
    have hapart := (h.async_sgs a₀ ha sg hsg).2.1
    refine h.of_find ?_ ?_ ?_
    · intro sg' hsg'
      have hss : sg' ≠ sg := by
        rintro rfl
        exact hapart hsg'
      exact update_of_ne hss _ _
    · intro sg' hsg' m' hm'
      have hmm : m' ≠ m := by
        rintro rfl
        exact hfresh sg' hsg' hm'
      exact update_of_ne hmm _ _
    · intro a ha' sg' hsg' m' hm'
      by_cases hss : sg' = sg
      · subst hss
        simp only [update_self, mem_append, mem_singleton] at hm'
        rcases hm' with hm' | rfl
        · exact (h.async_sgs a ha' sg' hsg').2.2 m' hm'
        · exact ⟨hm, hnew⟩
      · simp only [update_of_ne hss] at hm'
        exact (h.async_sgs a ha' sg' hsg').2.2 m' hm'

/-- Limits may be set if the ports keep to them. -/
lemma setMax {a b : ℕ} (ha : a ≤ 100) (hb : b ≤ 100) (hin : v.ins.Fits m a) (hout : v.outs.Fits m b)
    (hnow : v.status m = .new ∨ v.async = none) :
    Inv srcs dsts { v with ins := v.ins.setMax m a, outs := v.outs.setMax m b } := by
  have hsame : ∀ {t : PortTable} {l : ℕ} {c : List Addr × List GuCmnPort},
      v.async = some c → ∀ m', v.status m' ≠ .new →
        (t.setMax m l).ports m' = t.ports m' ∧ (t.setMax m l).max m' = t.max m' := by
    intro t l c hc m' hm'
    have hmm : m' ≠ m := by
      rintro rfl
      rcases hnow with hnew | hsync
      · exact hm' hnew
      · rw [hsync] at hc
        cases hc
    exact ⟨rfl, update_of_ne hmm _ _⟩
  exact { h with
    ins := h.ins.setMax ha hin.2 hin.1
    outs := h.outs.setMax hb hout.2 hout.1
    in_budget := fun c hc => (h.in_budget c hc).of_table (fun _ _ => rfl) (hsame hc)
    out_budget := fun c hc => (h.out_budget c hc).of_table (fun _ _ => rfl) (hsame hc) }

end

end Inv

end PortView

end AudioReach
