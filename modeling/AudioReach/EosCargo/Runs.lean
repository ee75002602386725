import AudioReach.EosCargo.Counts
import AudioReach.Library.Runs

/-!
# Runs of end-of-stream markers through a container

Markers are created, cloned, moved between lists, destroyed, dropped when data follows and
handed to a peer container, any number of them and in any order.  After every call the count of
each cargo is the number of markers that refer to it.
-/

namespace AudioReach

open Function (update)
open Library List Option

/-- A call. -/
inductive EosCall (κ : Type*)
  /-- `gen_topo_create_eos_for_cntr`. -/
  | createEosForCntr (l : κ) (input : Option EosTopo.EosInput) (flags : EosFlags)
      (offset : UInt32) (tracking cargo newNode : Option Addr)
  /-- A flushing marker from a peer container gets a cargo. -/
  | receiveEos (l : κ) (a : Addr) (inp : EosTopo.EosInput) (cargo : Option Addr)
  /-- A module or a peer container puts metadata into a list. -/
  | insertMd (l : κ) (node : MdNode)
  /-- `gen_topo_capi_metadata_clone`. -/
  | capiMetadataClone (l : κ) (a : Addr) (out : κ) (newNode : Option Addr)
  /-- A node moves to another list. -/
  | moveNode (l : κ) (a : Addr) (out : κ) (offset : UInt32)
  /-- `gen_topo_capi_metadata_destroy`. -/
  | capiMetadataDestroy (l : κ) (a : Addr) (isDropped overridden : Bool)
  /-- `gen_topo_capi_metadata_modify_at_data_flow_start`. -/
  | modifyAtDataFlowStart (l : κ) (a : Addr)
  /-- `gen_topo_populate_metadata_for_peer_cntr`. -/
  | populateMetadataForPeerCntr (l : κ) (connected : Bool)

/-- The topology and the cargos created so far. -/
structure EosRun (κ : Type*) where
  topo : EosTopo κ
  created : List Addr

namespace EosRun

open EosTopo (Counted EosInput numRefs SameCargos)

variable {κ : Type*}

/-- A container without metadata. -/
def init (κ : Type*) (hasClearEos : Bool) : EosRun κ :=
  ⟨⟨fun _ => [], fun _ => none, hasClearEos, [], [], []⟩, []⟩

/-- The cargo that a call creates. -/
def creates (s : EosRun κ) : EosCall κ → List Addr
  | .createEosForCntr _ (some _) flags _ _ (some c) (some _) =>
    if flags.isFlushingEos then [c] else []
  | .receiveEos l a _ (some c) =>
    match (s.topo.findNode l a).map MdNode.body with
    | some (.eos flags _) => if flags.isFlushingEos then [c] else []
    | _ => []
  | _ => []

variable [DecidableEq κ]

/-- The topology after a call, and the list that a peer container gets. -/
def call (s : EosRun κ) : EosCall κ → Option (EosTopo κ × List MdNode)
  | .createEosForCntr l input flags offset tracking cargo newNode =>
    some (s.topo.createEosForCntr l input flags offset tracking cargo newNode, [])
  | .receiveEos l a inp cargo => (s.topo.receiveEos l a inp cargo).map fun t => (t, [])
  | .insertMd l node => some (s.topo.insertTail l node, [])
  | .capiMetadataClone l a out newNode =>
    (s.topo.capiMetadataClone l a out newNode).map fun t => (t, [])
  | .moveNode l a out offset => (s.topo.moveNode l a out offset).map fun t => (t, [])
  | .capiMetadataDestroy l a isDropped overridden =>
    (s.topo.capiMetadataDestroy l a isDropped overridden).map fun t => (t, [])
  | .modifyAtDataFlowStart l a => (s.topo.modifyAtDataFlowStart l a).map fun t => (t, [])
  | .populateMetadataForPeerCntr l connected => s.topo.populateMetadataForPeerCntr l connected

/-- The state after a call; one that does not return leaves everything as it was. -/
def step (s : EosRun κ) (c : EosCall κ) : EosRun κ :=
  ((s.call c).map fun r => ⟨r.1, s.created ++ s.creates c⟩).getD s

omit [DecidableEq κ] in
/-- The lists are lists of the container, a node is in the list it is said to be in, the heap
returns cargos that are not in use, and metadata comes without a cargo from elsewhere. -/
def Admitted (ls : List κ) (s : EosRun κ) : EosCall κ → Prop
  | .createEosForCntr l _ _ _ _ cargo _ => l ∈ ls ∧ ∀ c ∈ cargo, s.topo.cargos c = none
  | .receiveEos l a _ cargo => l ∈ ls ∧
      (∃ node, s.topo.findNode l a = some node ∧ node.cntrRefPtr = none) ∧
      ∀ c ∈ cargo, s.topo.cargos c = none
  | .insertMd l node => l ∈ ls ∧ node.cntrRefPtr = none
  | .capiMetadataClone l a out _ => l ∈ ls ∧ out ∈ ls ∧ s.topo.findNode l a ≠ none
  | .moveNode l a out _ => l ∈ ls ∧ out ∈ ls ∧ s.topo.findNode l a ≠ none
  | .capiMetadataDestroy l a _ _ => l ∈ ls ∧ s.topo.findNode l a ≠ none
  | .modifyAtDataFlowStart l a => l ∈ ls ∧ s.topo.findNode l a ≠ none
  | .populateMetadataForPeerCntr l _ => l ∈ ls

/-- The call returns, and nothing that leaves the container refers to a cargo. -/
def Served (s : EosRun κ) (c : EosCall κ) : Prop :=
  ∃ r, s.call c = some r ∧ ∀ node ∈ r.2, node.cntrRefPtr = none

omit [DecidableEq κ] in
/-- What holds between the calls. -/
structure Exact (ls : List κ) (s : EosRun κ) : Prop where
  /-- The count of a cargo is the number of markers in the lists that refer to it. -/
  refCount : ∀ c cargo, s.topo.cargos c = some cargo → cargo.refCount = numRefs ls s.topo c
  /-- A cargo is allocated as long as a marker refers to it. -/
  live : ∀ c, (∃ cargo, s.topo.cargos c = some cargo) ↔ numRefs ls s.topo c ≠ 0
  /-- A cargo that was created is still allocated, or it was freed once. -/
  once : ∀ c, s.created.count c = s.topo.freed.count c + if s.topo.cargos c = none then 0 else 1
  /-- `clear_eos` was called once for each cargo that was freed, and for no other. -/
  cleared : s.topo.cleared.filterMap ClearEosCall.cntrRefPtr =
    if s.topo.hasClearEos then s.topo.freed else []

/-! ## One call -/

omit [DecidableEq κ] in
/-- The cargos are counted right. -/
def Held (ls : List κ) (t : EosTopo κ) (created : List Addr) : Prop :=
  Counted t created (numRefs ls t)

variable {ls : List κ} {t t' : EosTopo κ} {created : List Addr} {l : κ} {a : Addr} {node : MdNode}

omit [DecidableEq κ] in
lemma numRefs_congr (h : t'.lists = t.lists) : numRefs ls t' = numRefs ls t := by
  funext c
  unfold numRefs
  rw [h]

lemma numRefs_update (hnodup : ls.Nodup) (hl : l ∈ ls) {xs : List MdNode}
    (h : t'.lists = update t.lists l xs) (c : Addr) :
    numRefs ls t' c + (t.lists l).countP (fun node => node.cntrRefPtr = some c) =
      numRefs ls t c + xs.countP fun node => node.cntrRefPtr = some c := by
  unfold numRefs
  rw [h]
  exact countP_flatMap_update hnodup t.lists hl xs _

lemma countP_singleton_ref (node : MdNode) (c : Addr) :
    [node].countP (fun node => node.cntrRefPtr = some c) =
      if node.cntrRefPtr = some c then 1 else 0 := by
  simp [countP_singleton]

omit [DecidableEq κ] in
lemma countP_of_findNode (h : t.findNode l a = some node) (c : Addr) :
    (t.lists l).countP (fun node => node.cntrRefPtr = some c) =
      ((t.lists l).eraseP fun node => node.nodePtr = a).countP
        (fun node => node.cntrRefPtr = some c) + if node.cntrRefPtr = some c then 1 else 0 := by
  rw [(perm_cons_eraseP h).countP_eq, countP_cons]
  simp

lemma numRefs_ne_zero (hl : l ∈ ls) (h : t.findNode l a = some node) {c : Addr}
    (hc : node.cntrRefPtr = some c) : numRefs ls t c ≠ 0 := by
  have hsplit := (flatMap_erase_perm t.lists hl).countP_eq fun node => node.cntrRefPtr = some c
  have hnode := countP_of_findNode h c
  rw [if_pos hc] at hnode
  rw [countP_append] at hsplit
  unfold numRefs
  omega

lemma numRefs_insertTail (hnodup : ls.Nodup) (hl : l ∈ ls) (node : MdNode) :
    numRefs ls (t.insertTail l node) =
      fun c => numRefs ls t c + if node.cntrRefPtr = some c then 1 else 0 := by
  funext c
  have hup : numRefs ls (t.insertTail l node) c + _ = numRefs ls t c + _ :=
    numRefs_update hnodup hl rfl c
  rw [countP_append, countP_singleton_ref] at hup
  omega

lemma numRefs_setBody (hnodup : ls.Nodup) (hl : l ∈ ls) (hfind : t.findNode l a = some node)
    (body : MdBody) (c : Addr) :
    numRefs ls (t.setBody l a body) c + (if node.cntrRefPtr = some c then 1 else 0) =
      numRefs ls t c + if ({ node with body := body } : MdNode).cntrRefPtr = some c then 1 else 0 := by
  have hup : numRefs ls (t.setBody l a body) c + _ = numRefs ls t c + _ :=
    numRefs_update hnodup hl rfl c
  rw [countP_of_findNode hfind c, (updateFirst_perm _ hfind).countP_eq, countP_cons] at hup
  simp only [decide_eq_true_eq] at hup
  omega

section

variable (hnodup : ls.Nodup) (h : Held ls t created) (hl : l ∈ ls)
include hnodup h hl

/-- `gen_topo_capi_metadata_destroy`. -/
lemma Held.capiMetadataDestroy (hfind : t.findNode l a = some node) (isDropped overridden : Bool) :
    ∃ t', t.capiMetadataDestroy l a isDropped overridden = some t' ∧
      t'.lists = update t.lists l ((t.lists l).eraseP fun node => node.nodePtr = a) ∧
      Held ls t' created := by
  have hdelete : ∀ t₁ : EosTopo κ, t₁.lists = t.lists →
      Counted t₁ created (fun c => numRefs ls t c - if node.cntrRefPtr = some c then 1 else 0) →
      Held ls (t₁.deleteNode l a) created := by
    intro t₁ hlists h₁
    have hn : numRefs ls (t₁.deleteNode l a) =
        fun c => numRefs ls t c - if node.cntrRefPtr = some c then 1 else 0 := by
      funext c
      have hup : numRefs ls (t₁.deleteNode l a) c + _ = numRefs ls t c + _ :=
        numRefs_update hnodup hl (by rw [EosTopo.deleteNode, hlists]) c
      rw [countP_of_findNode hfind c] at hup
      omega
    rw [Held, hn]
    exact h₁.congr ⟨rfl, rfl, rfl, rfl⟩
  have hraised : Counted (t.raiseTrackingEvent node (!isDropped) overridden) created
      (numRefs ls t) := Counted.congr h ⟨rfl, rfl, rfl, rfl⟩
  unfold EosTopo.capiMetadataDestroy
  rw [hfind, bind_some]
  cases hbody : node.body with
  | eos flags ref =>
    have href : node.cntrRefPtr = ref := by rw [MdNode.cntrRefPtr, hbody]
    obtain ⟨t₁, hfree, hlists, h₁⟩ := hraised.freeEosCargo flags ref
      (fun c hc => numRefs_ne_zero hl hfind (href.trans hc))
    refine ⟨t₁.deleteNode l a, ?_, ?_, hdelete t₁ hlists (by rw [href]; exact h₁)⟩
    · dsimp only
      rw [hfree]
      rfl
    · rw [EosTopo.deleteNode, hlists]
      rfl
  | dfg =>
    have href : node.cntrRefPtr = none := by rw [MdNode.cntrRefPtr, hbody]
    exact ⟨_, rfl, rfl, hdelete (t.raiseTrackingEvent node (!isDropped) overridden) rfl
      (by simpa [href] using hraised)⟩
  | other id =>
    have href : node.cntrRefPtr = none := by rw [MdNode.cntrRefPtr, hbody]
    exact ⟨_, rfl, rfl, hdelete (t.raiseTrackingEvent node (!isDropped) overridden) rfl
      (by simpa [href] using hraised)⟩

lemma Held.insertTail {node : MdNode} (href : node.cntrRefPtr = none) :
    Held ls (t.insertTail l node) created := by
  have hsame : Counted (t.insertTail l node) created (numRefs ls t) :=
    Counted.congr h ⟨rfl, rfl, rfl, rfl⟩
  rw [Held, numRefs_insertTail hnodup hl, href]
  simpa using hsame

/-- `gen_topo_create_eos_for_cntr`. -/
lemma Held.createEosForCntr (input : Option EosInput) (flags : EosFlags) (offset : UInt32)
    (tracking : Option Addr) {cargo : Option Addr} (hcargo : ∀ c ∈ cargo, t.cargos c = none)
    (newNode : Option Addr) :
    Held ls (t.createEosForCntr l input flags offset tracking cargo newNode)
      (created ++ creates ⟨t, created⟩
        (.createEosForCntr l input flags offset tracking cargo newNode)) := by
  have hplain : Held ls (t.insertPlainEos l flags offset tracking newNode) created := by
    cases newNode with
    | none => exact h
    | some new => exact h.insertTail hnodup hl rfl
  cases input with
  | none => simpa only [EosTopo.createEosForCntr, creates, append_nil] using hplain
  | some inp =>
    cases hflush : flags.isFlushingEos with
    | false =>
      have hnone : creates ⟨t, created⟩
          (.createEosForCntr l (some inp) flags offset tracking cargo newNode) = [] := by
        cases cargo with
        | none => rfl
        | some c =>
          cases newNode with
          | none => rfl
          | some new => simp [creates, hflush]
      rw [hnone, append_nil]
      simpa only [EosTopo.createEosForCntr, hflush, Bool.false_eq_true, if_false] using hplain
    | true =>
      simp only [EosTopo.createEosForCntr, hflush, if_true]
      cases cargo with
      | none => simpa only [creates, append_nil] using h
      | some c =>
        cases newNode with
        | none => simpa only [creates, append_nil] using h
        | some new =>
          simp only [creates, hflush, if_true]
          rw [Held, numRefs_insertTail hnodup hl]
          exact (Counted.createEosCntrRef h inp (hcargo c rfl)).congr ⟨rfl, rfl, rfl, rfl⟩

section

variable {out : κ} (hout : out ∈ ls) (hfind : t.findNode l a = some node)
include hout hfind

/-- `gen_topo_capi_metadata_clone`. -/
lemma Held.capiMetadataClone (newNode : Option Addr) :
    ∃ t', t.capiMetadataClone l a out newNode = some t' ∧ Held ls t' created := by
  unfold EosTopo.capiMetadataClone
  rw [hfind, bind_some]
  cases newNode with
  | none => exact ⟨t, rfl, h⟩
  | some new =>
    cases hbody : node.body with
    | eos flags ref =>
      have href : node.cntrRefPtr = ref := by rw [MdNode.cntrRefPtr, hbody]
      generalize hcopy : ({ node with
        nodePtr := new
        trackingPtr := if flags.isInternalEos then none else node.trackingPtr } : MdNode) = copy
      have hcopyref : copy.cntrRefPtr = ref := by
        rw [← href, ← hcopy]
        rfl
      have hinsert : Counted (t.insertTail out copy) created (numRefs ls t) :=
        Counted.congr h ⟨rfl, rfl, rfl, rfl⟩
      obtain ⟨t₁, hadd, hlists, h₁⟩ := hinsert.addRef
        (fun c hc => numRefs_ne_zero hl hfind (href.trans hc))
      refine ⟨t₁, ?_, ?_⟩
      · rw [← hadd, ← hcopy, hbody]
      · rw [Held, numRefs_congr hlists, numRefs_insertTail hnodup hout, hcopyref]
        exact h₁
    | dfg => exact ⟨_, rfl, h.insertTail hnodup hout (by simp [MdNode.cntrRefPtr])⟩
    | other id => exact ⟨_, rfl, h.insertTail hnodup hout (by simp [MdNode.cntrRefPtr])⟩

lemma Held.moveNode (offset : UInt32) :
    ∃ t', t.moveNode l a out offset = some t' ∧ Held ls t' created := by
  unfold EosTopo.moveNode
  rw [hfind, map_some]
  refine ⟨_, rfl, ?_⟩
  have hsame : numRefs ls ((t.deleteNode l a).insertTail out { node with offset := offset }) =
      numRefs ls t := by
    rw [numRefs_insertTail hnodup hout]
    funext c
    have hup : numRefs ls (t.deleteNode l a) c + _ = numRefs ls t c + _ :=
      numRefs_update hnodup hl rfl c
    rw [countP_of_findNode hfind c] at hup
    have hmoved : ({ node with offset := offset } : MdNode).cntrRefPtr = node.cntrRefPtr := rfl
    rw [hmoved]
    omega
  rw [Held, hsame]
  exact Counted.congr h ⟨rfl, rfl, rfl, rfl⟩

end

/-- `gen_topo_capi_metadata_modify_at_data_flow_start`. -/
lemma Held.modifyAtDataFlowStart (hfind : t.findNode l a = some node) :
    ∃ t', t.modifyAtDataFlowStart l a = some t' ∧ Held ls t' created := by
  obtain ⟨t₁, hdestroy, -, h₁⟩ := h.capiMetadataDestroy hnodup hl hfind true false
  unfold EosTopo.modifyAtDataFlowStart
  rw [hfind, bind_some]
  cases hbody : node.body with
  | eos flags ref =>
    dsimp only
    split
    · exact ⟨t₁, hdestroy, h₁⟩
    · split
      · refine ⟨_, rfl, ?_⟩
        have hsame : numRefs ls
            (t.setBody l a (.eos { flags with isFlushingEos := false } ref)) = numRefs ls t := by
          funext c
          have hset := numRefs_setBody hnodup hl hfind
            (.eos { flags with isFlushingEos := false } ref) c
          have href : node.cntrRefPtr = ref := by rw [MdNode.cntrRefPtr, hbody]
          rw [href] at hset
          exact Nat.add_right_cancel hset
        rw [Held, hsame]
        exact Counted.congr h ⟨rfl, rfl, rfl, rfl⟩
      · exact ⟨t, rfl, h⟩
  | dfg => exact ⟨t₁, hdestroy, h₁⟩
  | other id => exact ⟨t, rfl, h⟩

/-- A marker from a peer container. -/
lemma Held.receiveEos (hfind : t.findNode l a = some node) (href : node.cntrRefPtr = none)
    (inp : EosInput) {cargo : Option Addr} (hcargo : ∀ c ∈ cargo, t.cargos c = none) :
    ∃ t', t.receiveEos l a inp cargo = some t' ∧
      Held ls t' (created ++ creates ⟨t, created⟩ (.receiveEos l a inp cargo)) := by
  obtain ⟨t₁, hdestroy, -, h₁⟩ := h.capiMetadataDestroy hnodup hl hfind true false
  unfold EosTopo.receiveEos
  rw [hfind, bind_some]
  cases hbody : node.body with
  | eos flags ref =>
    cases cargo with
    | none =>
      simp only [creates, append_nil]
      split
      · exact ⟨t₁, hdestroy, h₁⟩
      · exact ⟨t, rfl, h⟩
    | some c =>
      simp only [creates, hfind, hbody, map_some]
      split
      · refine ⟨_, rfl, ?_⟩
        have hn : numRefs ls ((t.createEosCntrRef inp c).setBody l a (.eos flags (some c))) =
            fun d => numRefs ls t d + if some c = some d then 1 else 0 := by
          funext d
          have hset : numRefs ls ((t.createEosCntrRef inp c).setBody l a (.eos flags (some c))) d +
              _ = numRefs ls t d + _ :=
            numRefs_setBody hnodup hl hfind _ d
          rw [href, if_neg (by simp), Nat.add_zero] at hset
          exact hset
        rw [Held, hn]
        exact (Counted.createEosCntrRef h inp (hcargo c rfl)).congr ⟨rfl, rfl, rfl, rfl⟩
      · rw [append_nil]
        exact ⟨t, rfl, h⟩
  | dfg =>
    refine ⟨t, rfl, ?_⟩
    cases cargo with
    | none => simpa only [creates, append_nil] using h
    | some c => simpa only [creates, hfind, hbody, map_some, append_nil] using h
  | other id =>
    refine ⟨t, rfl, ?_⟩
    cases cargo with
    | none => simpa only [creates, append_nil] using h
    | some c => simpa only [creates, hfind, hbody, map_some, append_nil] using h

end

lemma Held.destroyAllMetadata (hnodup : ls.Nodup) (hl : l ∈ ls) {nodes : List MdNode}
    (h : Held ls t created) (hnodes : t.lists l = nodes) :
    ∃ t', EosTopo.destroyAllMetadata l t nodes = some t' ∧ Held ls t' created := by
  induction nodes generalizing t with
  | nil => exact ⟨t, rfl, h⟩
  | cons node nodes ih =>
    have hfind : t.findNode l node.nodePtr = some node := by
      rw [EosTopo.findNode, hnodes]
      exact find?_cons_of_pos (by simp)
    obtain ⟨t₁, hdestroy, hlists, h₁⟩ := h.capiMetadataDestroy hnodup hl hfind true false
    have hrest : t₁.lists l = nodes := by
      rw [hlists, Function.update_self, hnodes]
      exact eraseP_cons_of_pos (by simp)
    obtain ⟨t₂, hloop, h₂⟩ := ih h₁ hrest
    refine ⟨t₂, ?_, h₂⟩
    rw [EosTopo.destroyAllMetadata, hdestroy, bind_some, hloop]

omit [DecidableEq κ] in
/-- The loop over a list that is handed over: each marker in it gives up its cargo. -/
lemma freeAllCargos_spec {m : Addr → ℕ} {nodes : List MdNode}
    (h : Counted t created fun c => m c + nodes.countP fun node => node.cntrRefPtr = some c) :
    ∃ r, EosTopo.freeAllCargos t nodes = some r ∧ r.1.lists = t.lists ∧ Counted r.1 created m ∧
      ∀ node ∈ r.2, node.cntrRefPtr = none := by
  induction nodes generalizing t with
  | nil =>
    refine ⟨_, rfl, rfl, ?_, fun node hnode => absurd hnode not_mem_nil⟩
    simpa using h
  | cons node nodes ih =>
    have hcons : ∀ c, (node :: nodes).countP (fun node => node.cntrRefPtr = some c) =
        nodes.countP (fun node => node.cntrRefPtr = some c) +
          if node.cntrRefPtr = some c then 1 else 0 := by
      intro c
      rw [countP_cons]
      simp only [decide_eq_true_eq]
    unfold EosTopo.freeAllCargos
    cases hbody : node.body with
    | eos flags ref =>
      have href : node.cntrRefPtr = ref := by rw [MdNode.cntrRefPtr, hbody]
      obtain ⟨t₁, hfree, hlists, h₁⟩ := h.freeEosCargo flags ref (fun c hc => by
        rw [hcons, if_pos (href.trans hc)]
        omega)
      have hn : (fun c => m c + (node :: nodes).countP (fun node => node.cntrRefPtr = some c) -
          if ref = some c then 1 else 0) =
          fun c => m c + nodes.countP fun node => node.cntrRefPtr = some c := by
        funext c
        rw [hcons, href]
        omega
      rw [hn] at h₁
      obtain ⟨r, hloop, hlists', hr, hnone⟩ := ih h₁
      refine ⟨(r.1, { node with body := .eos flags none } :: r.2), ?_, hlists'.trans hlists, hr, ?_⟩
      · dsimp only
        rw [hfree, bind_some, hloop, map_some]
      · exact forall_mem_cons.mpr ⟨rfl, hnone⟩
    | dfg =>
      have href : node.cntrRefPtr = none := by rw [MdNode.cntrRefPtr, hbody]
      obtain ⟨r, hloop, hlists, hr, hnone⟩ := ih (by simpa only [hcons, href, reduceCtorEq, if_false,
        Nat.add_zero] using h)
      refine ⟨(r.1, node :: r.2), ?_, hlists, hr, forall_mem_cons.mpr ⟨href, hnone⟩⟩
      rw [hloop, map_some]
    | other id =>
      have href : node.cntrRefPtr = none := by rw [MdNode.cntrRefPtr, hbody]
      obtain ⟨r, hloop, hlists, hr, hnone⟩ := ih (by simpa only [hcons, href, reduceCtorEq, if_false,
        Nat.add_zero] using h)
      refine ⟨(r.1, node :: r.2), ?_, hlists, hr, forall_mem_cons.mpr ⟨href, hnone⟩⟩
      rw [hloop, map_some]

/-- `gen_topo_populate_metadata_for_peer_cntr`. -/
lemma Held.populateMetadataForPeerCntr (hnodup : ls.Nodup) (h : Held ls t created) (hl : l ∈ ls)
    (connected : Bool) :
    ∃ r, t.populateMetadataForPeerCntr l connected = some r ∧ Held ls r.1 created ∧
      ∀ node ∈ r.2, node.cntrRefPtr = none := by
  unfold EosTopo.populateMetadataForPeerCntr
  cases connected with
  | false =>
    obtain ⟨t₁, hloop, h₁⟩ := h.destroyAllMetadata hnodup hl rfl
    refine ⟨(t₁, []), ?_, h₁, fun node hnode => absurd hnode not_mem_nil⟩
    simp only [Bool.not_false, if_true, hloop, map_some]
  | true =>
    generalize hempty : ({ t with lists := update t.lists l [] } : EosTopo κ) = t₀
    have hn : numRefs ls t = fun c =>
        numRefs ls t₀ c + (t.lists l).countP fun node => node.cntrRefPtr = some c := by
      funext c
      have hup : numRefs ls t₀ c + _ = numRefs ls t c + _ :=
        numRefs_update hnodup hl (by rw [← hempty]) c
      exact hup.symm
    rw [Held, hn] at h
    obtain ⟨r, hloop, hlists, hr, hnone⟩ := freeAllCargos_spec h
    refine ⟨({ r.1 with lists := update r.1.lists l [] }, r.2), ?_, ?_, hnone⟩
    · simp only [Bool.not_true, Bool.false_eq_true, if_false, hloop, map_some]
    · have hsame : numRefs ls { r.1 with lists := update r.1.lists l [] } = numRefs ls t₀ := by
        refine numRefs_congr ?_
        rw [← hempty, hlists]
      rw [Held, hsame]
      exact hr.congr ⟨rfl, rfl, rfl, rfl⟩

/-- Every call keeps the counts, and is served. -/
lemma Held.step (hnodup : ls.Nodup) {s : EosRun κ} (h : Held ls s.topo s.created)
    {c : EosCall κ} (hadm : Admitted ls s c) :
    Held ls (s.step c).topo (s.step c).created ∧ Served s c := by
  -- a call that returns `r` and keeps the counts
  have hserved : ∀ r, s.call c = some r → Held ls r.1 (s.created ++ s.creates c) →
      (∀ node ∈ r.2, node.cntrRefPtr = none) →
      Held ls (s.step c).topo (s.step c).created ∧ Served s c := by
    intro r hcall hheld hnone
    refine ⟨?_, r, hcall, hnone⟩
    rw [EosRun.step, hcall]
    exact hheld
  have hnil : ∀ node ∈ ([] : List MdNode), node.cntrRefPtr = none :=
    fun node hnode => absurd hnode not_mem_nil
  cases c with
  | createEosForCntr l input flags offset tracking cargo newNode =>
    exact hserved _ rfl
      (h.createEosForCntr hnodup hadm.1 input flags offset tracking hadm.2 newNode) hnil
  | receiveEos l a inp cargo =>
    obtain ⟨hl, ⟨node, hfind, href⟩, hcargo⟩ := hadm
    obtain ⟨t, hcall, ht⟩ := h.receiveEos hnodup hl hfind href inp hcargo
    exact hserved (t, []) (by rw [call, hcall, map_some]) ht hnil
  | insertMd l node =>
    have ht := h.insertTail hnodup hadm.1 hadm.2
    refine hserved _ rfl ?_ hnil
    simpa only [creates, append_nil] using ht
  | capiMetadataClone l a out newNode =>
    obtain ⟨node, hfind⟩ := ne_none_iff_exists'.mp hadm.2.2
    obtain ⟨t, hcall, ht⟩ := h.capiMetadataClone hnodup hadm.1 hadm.2.1 hfind newNode
    refine hserved (t, []) (by rw [call, hcall, map_some]) ?_ hnil
    simpa only [creates, append_nil] using ht
  | moveNode l a out offset =>
    obtain ⟨node, hfind⟩ := ne_none_iff_exists'.mp hadm.2.2
    obtain ⟨t, hcall, ht⟩ := h.moveNode hnodup hadm.1 hadm.2.1 hfind offset
    refine hserved (t, []) (by rw [call, hcall, map_some]) ?_ hnil
    simpa only [creates, append_nil] using ht
  | capiMetadataDestroy l a isDropped overridden =>
    obtain ⟨node, hfind⟩ := ne_none_iff_exists'.mp hadm.2
    obtain ⟨t, hcall, -, ht⟩ := h.capiMetadataDestroy hnodup hadm.1 hfind isDropped overridden
    refine hserved (t, []) (by rw [call, hcall, map_some]) ?_ hnil
    simpa only [creates, append_nil] using ht
  | modifyAtDataFlowStart l a =>
    obtain ⟨node, hfind⟩ := ne_none_iff_exists'.mp hadm.2
    obtain ⟨t, hcall, ht⟩ := h.modifyAtDataFlowStart hnodup hadm.1 hfind
    refine hserved (t, []) (by rw [call, hcall, map_some]) ?_ hnil
    simpa only [creates, append_nil] using ht
  | populateMetadataForPeerCntr l connected =>
    obtain ⟨r, hcall, hr, hnone⟩ := h.populateMetadataForPeerCntr hnodup hadm connected
    refine hserved r (by rw [call, hcall]) ?_ hnone
    simpa only [creates, append_nil] using hr

omit [DecidableEq κ] in
lemma held_init (ls : List κ) (hasClearEos : Bool) :
    Held ls (init κ hasClearEos).topo (init κ hasClearEos).created := by
  have hzero : numRefs ls (init κ hasClearEos).topo = fun _ => 0 := by
    funext c
    unfold numRefs init
    rw [countP_eq_zero]
    intro node hnode
    simp at hnode
  rw [Held, hzero]
  refine ⟨fun c cargo h => ?_, fun c => ?_, fun c => rfl, ?_⟩
  · simp [init] at h
  · simp [init]
  · cases hasClearEos with
    | false => rfl
    | true => rfl

omit [DecidableEq κ] in
lemma Held.exact {s : EosRun κ} (h : Held ls s.topo s.created) : Exact ls s where
  refCount := Counted.count h
  live := Counted.live h
  once := by
    intro c
    rw [Counted.once h c]
    congr 1
    have hlive := Counted.live h c
    by_cases hc : s.topo.cargos c = none
    · rw [hc] at hlive
      rw [if_pos hc, if_pos]
      simpa using hlive
    · rw [if_neg hc, if_neg (hlive.mp (ne_none_iff_exists'.mp hc))]
  cleared := Counted.cleared h

end EosRun

end AudioReach
