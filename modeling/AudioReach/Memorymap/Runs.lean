import AudioReach.Library.Runs
import AudioReach.Memorymap.Calls

/-!
# Runs of the memory map

The memory map answers as the registry does as long as nothing is freed: an entry of a hash table
is never removed, so after the first unmapping a handle leads to a node that is gone, and after a
client unregistered its token leads to a client that is gone.  A token or a handle that is in no
hash table is not refused either, the code follows the null pointer that the lookup gives; a
client can therefore choose an id only to be refused.  `Fits` says which calls are left.
-/

namespace AudioReach

open Function (update)
open Library Option
open Memorymap (MapArgs MapEnv RegisterEnv mapRegions)

/-- The memory map and the registry that it is to be. -/
structure MemorymapRun where
  s : Memorymap
  a : Registry

/-- The list of a client holds the mappings in order. -/
def Memorymap.Shows (s : Memorymap) (i : ℕ) (mappings : List Mapping) : Prop :=
  ∃ p ptrs, s.memMapClientList i = some p ∧ s.clients p = some ⟨i, ptrs.head?⟩ ∧
    Chained s.nodes ptrs ∧
    ptrs.map (fun p => (s.nodes p).map MemorymapNode.mapping) = mappings.map some

namespace MemorymapRun

/-- The next call. -/
def step (r : MemorymapRun) (c : MemorymapCall) : MemorymapRun :=
  ⟨((r.s.call c).map (·.2.2)).getD r.s, (r.a.call c).2.2⟩

/-- After `posal_memorymap_global_init`. -/
def init : MemorymapRun := ⟨Memorymap.init, fun _ => none⟩

/-- The heap gives memory that is not in use. -/
def Admitted (r : MemorymapRun) : MemorymapCall → Prop
  | .register env => ∀ p, env.client = some p → r.s.clients p = none
  | .shmMemMap _ env => ∀ p, env.node = some p → r.s.nodes p = none
  | .virtaddrMemMap _ env => ∀ p, env.node = some p → r.s.nodes p = none
  | _ => True

/-- **The registry in memory.** -/
structure Registers (r : MemorymapRun) : Prop where
  /-- Each client has its mappings, and no other slot is in use. -/
  mappings : ∀ i, (∀ mappings, r.a i = some mappings → r.s.Shows i mappings) ∧
    (r.a i = none → r.s.memMapClientList i = none)
  unique : ∀ i mappings, r.a i = some mappings → (mappings.map (·.handle)).Nodup
  /-- The tokens lead to clients that are allocated. -/
  clients : ∀ e ∈ r.s.memmapHt, (r.s.clients e.2).isSome
  nodes : ∀ e ∈ r.s.shmmapHt, (r.s.nodes e.2).isSome
  /-- `num_registered_memmap_clients` is the number of slots in use. -/
  number : r.s.numRegisteredMemmapClients.toNat
    = (List.range memoryMapMaxClients).countP fun i => (r.s.memMapClientList i).isSome

/-- The call succeeds as that of the registry does, with the same token or handle. -/
def Answered (r : MemorymapRun) (c : MemorymapCall) : Prop :=
  ∃ result v s', r.s.call c = some (result, v, s') ∧
    (result = .eok ↔ (r.a.call c).1 = true) ∧ ((r.a.call c).1 = true → v = (r.a.call c).2.1)

/-! ## When the code answers as the registry -/

/-- The token is that of a client. -/
def Registered (a : Registry) (t : UInt32) : Prop := (a.ofToken t).isSome

instance (a : Registry) (t : UInt32) : Decidable (Registered a t) :=
  inferInstanceAs (Decidable (_ = _))

/-- A mapping call: its id does not have 24 bits, or is one that the client has already (or is
known otherwise, and the mapping fails anyway), or it has no id and either its regions are ill
formed or its client is registered and the handle that it will get is not in use. -/
def MapFits (a : Registry) (args : MapArgs) (plan : MapPlan) : Prop :=
  args.uniqueShmemId24bit &&& 0xFF000000 ≠ 0 ∨
  args.uniqueShmemId24bit ≠ 0 ∧ Registered a args.clientToken ∧
    a.known args.uniqueShmemId24bit = true ∧
    (Registry.has ((a.ofToken args.clientToken).getD []) args.uniqueShmemId24bit = true ∨
      ¬ (plan.wellFormed = true ∧ plan.supplied = true)) ∨
  args.uniqueShmemId24bit = 0 ∧ (plan.wellFormed = false ∨ Registered a args.clientToken ∧
    (plan.supplied = true → plan.key ≠ 0 ∧ a.known plan.key = false))

instance (a : Registry) (args : MapArgs) (plan : MapPlan) : Decidable (MapFits a args plan) :=
  inferInstanceAs (Decidable (_ ∨ _ ∧ _ ∧ _ ∧ (_ ∨ ¬ (_ ∧ _)) ∨ _ ∧ (_ ∨ _ ∧ (_ → _ ∧ _))))

/-- The calls that the code answers. -/
def Fits (a : Registry) : MemorymapCall → Prop
  | .register env => a.freeSlot = none ∨ env.client.isSome ∧ env.hashNode
  | .unregister _ => False
  | .shmMemMap args env => MapFits a args (shmMemMapPlan args env)
  | .virtaddrMemMap args env => MapFits a args (virtaddrMemMapPlan args env)
  | .shmMemUnmap t handle => Registered a t ∧ a.known handle = true ∧
      ∀ m ∈ (a.ofToken t).getD [], m.handle = handle → m.refCount ≠ 0
  | .unmapAll t => a.ofToken t = some []
  | .incrRefcount t handle => Registered a t ∧ a.known handle = true
  | .decrRefcount t handle => Registered a t ∧ a.known handle = true
  | .getMemMapHandle t shmemId => Registered a t ∧ a.known shmemId = true

instance (a : Registry) (c : MemorymapCall) : Decidable (Fits a c) :=
  match c with
  | .register _ => inferInstanceAs (Decidable (_ ∨ _ ∧ _))
  | .unregister _ => inferInstanceAs (Decidable False)
  | .shmMemMap args env => inferInstanceAs (Decidable (MapFits a args (shmMemMapPlan args env)))
  | .virtaddrMemMap args env =>
    inferInstanceAs (Decidable (MapFits a args (virtaddrMemMapPlan args env)))
  | .shmMemUnmap _ _ => inferInstanceAs (Decidable (_ ∧ _ ∧ ∀ m ∈ _, _ → _))
  | .unmapAll _ => inferInstanceAs (Decidable (_ = _))
  | .incrRefcount _ _ => inferInstanceAs (Decidable (_ ∧ _))
  | .decrRefcount _ _ => inferInstanceAs (Decidable (_ ∧ _))
  | .getMemMapHandle _ _ => inferInstanceAs (Decidable (_ ∧ _))

/-! ## One call -/

variable {s : Memorymap} {a : Registry} {ptrs : ℕ → List Addr} {t handle : UInt32}

/-- The result of a call, and what it keeps. -/
def Follows (s : Memorymap) (a : Registry) (c : MemorymapCall) : Prop :=
  ∃ result v s', s.call c = some (result, v, s') ∧
    (result = .eok ↔ (a.call c).1 = true) ∧ ((a.call c).1 = true → v = (a.call c).2.1) ∧
    ∃ ptrs', s'.HeldBy (a.call c).2.2 ptrs'

lemma ofToken_of_registered (h : Registered a t) : ∃ mappings, a.ofToken t = some mappings :=
  isSome_iff_exists.mp h

variable {c : MemorymapCall}

lemma onMapping_refused {f : List Mapping → Mapping → Registry.Answer} {mappings : List Mapping}
    (ht : a.ofToken t = some mappings) (hhas : Registry.has mappings handle = false) :
    a.onMapping t handle f = a.refused := by
  simp only [Registry.onMapping, ht, Registry.find?_eq_none_of_has hhas]

section

variable (h : s.HeldBy a ptrs)
include h

lemma follows_of_refused {result : ArResult} {v : UInt32} (hne : result ≠ .eok)
    (hcall : s.call c = some (result, v, s)) (hrefused : a.call c = a.refused) : Follows s a c := by
  refine ⟨result, v, s, hcall, ?_, ?_, ptrs, ?_⟩ <;> rw [hrefused]
  · simp [hne, Registry.refused]
  · simp [Registry.refused]
  · exact h

lemma follows_register {env : RegisterEnv} (hadm : Admitted ⟨s, a⟩ (.register env))
    (hfits : Fits a (.register env)) : Follows s a (.register env) := by
  cases hslot : a.freeSlot with
  | none =>
    have hcall : s.register env = (.efailed, 0, s) := by
      rw [Memorymap.register, h.find_slot, hslot]
      split <;> rfl
    refine follows_of_refused h (by decide) (congrArg some hcall) ?_
    simp only [Registry.call, hslot]
  | some i =>
    obtain ⟨hclient, hhash⟩ : env.client.isSome ∧ env.hashNode := by
      rcases hfits with hnone | hsupplied
      · rw [hslot] at hnone
        contradiction
      · exact hsupplied
    obtain ⟨p, hp⟩ := isSome_iff_exists.mp hclient
    obtain ⟨s', hcall, hheld⟩ := h.register hslot (hadm p hp)
    have henv : env = ⟨some p, true⟩ := by
      rw [← hp, ← hhash]
    have hspec : a.call (.register env) = (true, tokenOf i, update a i (some [])) := by
      simp only [Registry.call, hslot]
      rw [if_pos ⟨hclient, hhash⟩]
    refine ⟨.eok, tokenOf i, s', ?_, ?_, ?_, ptrs, ?_⟩
    · rw [henv]
      exact congrArg some hcall
    · simp [hspec]
    · simp [hspec]
    · rw [hspec]
      exact hheld

/-- Incrementing and decrementing. -/
lemma follows_count (hregistered : Registered a t) (hknown : a.known handle = true) (count : Int16)
    (hcall : s.call c = (s.utilCmdHandler t handle (.updateRefCount count)).map fun r => (r.1, 0,
      r.2))
    (hspec : a.call c = a.onMapping t handle fun mappings _ => (true, 0,
      update a (Registry.slotOf t) (some (Registry.count mappings handle count))))
    : Follows s a c := by
  obtain ⟨mappings, ht⟩ := ofToken_of_registered hregistered
  rcases h.utilCmdHandler_eq ht hknown (.updateRefCount count) with
    ⟨hhas, hcmd⟩ | ⟨p, n, client, prev, hp, hn, hid, hhas, hcmd⟩
  · rw [hcmd, map_some] at hcall
    exact follows_of_refused h (by simp) hcall (hspec.trans (onMapping_refused ht hhas))
  · rw [hcmd, Memorymap.execCmd, map_some] at hcall
    obtain ⟨m, -, -, hfind⟩ := Registry.find?_of_has hhas
    have hspec' : a.call c = (true, 0,
        update a (Registry.slotOf t) (some (Registry.count mappings handle count))) := by
      rw [hspec]
      simp only [Registry.onMapping, ht, hfind]
    refine ⟨_, _, _, hcall, ?_, ?_, ptrs, ?_⟩
    · simp [hspec']
    · simp [hspec']
    · rw [hspec']
      exact h.updateRefCount ht hp hn hid count rfl rfl rfl

lemma follows_unmap (hfits : Fits a (.shmMemUnmap t handle)) :
    Follows s a (.shmMemUnmap t handle) := by
  obtain ⟨hregistered, hknown, hused⟩ := hfits
  obtain ⟨mappings, ht⟩ := ofToken_of_registered hregistered
  rw [ht, getD_some] at hused
  have hcall : s.call (.shmMemUnmap t handle)
      = (s.utilCmdHandler t handle .shmMemUnmap).map fun r => (r.1, 0, r.2) := rfl
  rcases h.utilCmdHandler_eq ht hknown .shmMemUnmap with
    ⟨hhas, hcmd⟩ | ⟨p, n, client, prev, hp, hn, hid, hhas, hcmd⟩
  · rw [hcmd, map_some] at hcall
    exact follows_of_refused h (by simp) hcall (onMapping_refused ht hhas)
  · have hcount : n.refCount ≠ 0 :=
      hused n.mapping (h.mem_mappings (Registry.ofToken_eq_some ht).1 hp hn) hid
    rw [hcmd, Memorymap.execCmd, if_pos hcount, map_some] at hcall
    obtain ⟨m, hm, hhandle, hfind⟩ := Registry.find?_of_has hhas
    refine follows_of_refused h (by simp) hcall ?_
    simp only [Registry.call, Registry.onMapping, ht, hfind]
    rw [if_pos (hused m hm hhandle)]

/-- A client without mappings unmaps all of them. -/
lemma follows_unmapAll (ht : a.ofToken t = some []) : Follows s a (.unmapAll t) := by
  obtain ⟨c, hlist, hfind, hclient⟩ := h.findClient ht
  obtain ⟨hslot, -⟩ := Registry.ofToken_eq_some ht
  have hempty : ptrs (Registry.slotOf t) = [] := by
    have hmaps := h.mappings _ _ hslot
    exact List.map_eq_nil_iff.mp hmaps
  obtain ⟨c', hlist', hc', -⟩ := h.client _ _ hslot
  rw [hlist, Option.some.injEq] at hlist'
  subst hlist'
  rw [hempty, List.head?_nil] at hfind hc'
  have hcall : s.call (.unmapAll t) = some (.eok, 0, s) := by
    have hloop : Memorymap.unmapNodes s.allocated s none = some (true, s) := by
      cases s.allocated <;> rfl
    have hsame : update s.clients c (some ⟨Registry.slotOf t, none⟩) = s.clients := by
      rw [← hc', Function.update_eq_self]
    simp only [Memorymap.call, Memorymap.unmapAll, hclient, hfind, bind_some, hloop,
      map_some, if_true, hsame, ne_eq, not_true_eq_false, if_false]
  have hspec : a.call (.unmapAll t) = (true, 0, a) := by
    have hsame : update a (Registry.slotOf t) (some []) = a := by
      rw [← hslot, Function.update_eq_self]
    simp only [Registry.call, ht, List.all_nil, if_true, hsame]
  refine ⟨_, _, _, hcall, by simp [hspec], by simp [hspec], ptrs, ?_⟩
  rw [hspec]
  exact h

lemma follows_getMemMapHandle (hregistered : Registered a t) (hknown : a.known handle = true) :
    Follows s a (.getMemMapHandle t handle) := by
  obtain ⟨mappings, ht⟩ := ofToken_of_registered hregistered
  have hcall : s.call (.getMemMapHandle t handle)
      = (s.getMemMapHandle t handle).map fun r => (r.1, r.2, s) := rfl
  rw [h.getMemMapHandle_eq ht hknown, map_some] at hcall
  cases hhas : Registry.has mappings handle with
  | false =>
    rw [hhas] at hcall
    exact follows_of_refused h (by simp) hcall (onMapping_refused ht hhas)
  | true =>
    rw [hhas] at hcall
    obtain ⟨m, -, -, hfind⟩ := Registry.find?_of_has hhas
    have hspec : a.call (.getMemMapHandle t handle) = (true, handle, a) := by
      simp only [Registry.call, Registry.onMapping, ht, hfind]
    refine ⟨_, _, _, hcall, by simp [hspec], by simp [hspec], ptrs, ?_⟩
    rw [hspec]
    exact h

end

/-! ### Mapping -/

/-- The two mapping functions after their plan. -/
def mapWith (s : Memorymap) (args : MapArgs) (env : MapEnv) (plan : MapPlan) (key : Addr → UInt32)
    (mmap : ℕ → ShmRegion → Option UInt64) (mode : MappingMode) : Option Returned :=
  (s.checkShmemId args).bind fun idOk =>
    if ¬ idOk then some (.efailed, 0, s)
    else if ¬ plan.wellFormed then some (.ebadparam, 0, s)
    else s.mapNode args env key mmap mode

lemma shmMemMapV2_eq (args : MapArgs) (env : MapEnv) :
    s.shmMemMapV2 args env = mapWith s args env (shmMemMapPlan args env)
      (fun _ => (shmMemMapPlan args env).key) (fun i _ => env.mmap i)
      (if args.isOffsetMap then .physicalOffset else .physicalAddr) := by
  rw [Memorymap.shmMemMapV2, mapWith]
  congr 1
  funext idOk
  cases hregs : args.shmMemReg with
  | nil => simp [shmMemMapPlan, hregs]
  | cons first rest =>
    have hwell : ((shmMemMapPlan args env).wellFormed = true) =
        ¬ (1 < (first :: rest).length ∧ args.isOffsetMap = true) := by
      rw [shmMemMapPlan, hregs, decide_eq_true_eq]
      exact propext (and_iff_right (List.cons_ne_nil _ _))
    have hkey : (shmMemMapPlan args env).key = first.shmAddrLsw := by
      simp [shmMemMapPlan, hregs]
    simp only [hwell, hkey, not_not]

lemma virtaddrMemMapV2_eq (args : MapArgs) (env : MapEnv) :
    s.virtaddrMemMapV2 args env = mapWith s args env (virtaddrMemMapPlan args env)
      UInt32.ofNat (fun _ r => some (Memorymap.virtAddr r))
      (if args.isOffsetMap then .virtualOffset else .virtualAddr) := by
  rw [Memorymap.virtaddrMemMapV2, mapWith]
  simp [virtaddrMemMapPlan]

lemma mapRegions_virt (f : ShmRegion → UInt64) (idx : ℕ) (regs : List ShmRegion) :
    (mapRegions (fun _ r => some (f r)) idx regs).isSome = true := by
  induction regs generalizing idx with
  | nil => rfl
  | cons r regs ih =>
    rw [mapRegions, bind_some, isSome_map]
    exact ih (idx + 1)

lemma mapMem_refused {args : MapArgs} {plan : MapPlan}
    (h : ∀ mappings, a.ofToken args.clientToken = some mappings →
      ¬ (args.uniqueShmemId24bit &&& 0xFF000000 = 0 ∧ plan.wellFormed ∧ plan.supplied ∧
        ¬ (args.uniqueShmemId24bit ≠ 0 ∧ Registry.has mappings args.uniqueShmemId24bit))) :
    a.mapMem args plan = a.refused := by
  rw [Registry.mapMem]
  cases ht : a.ofToken args.clientToken with
  | none => rfl
  | some mappings => exact if_neg (h mappings ht)

/-- A client maps memory. -/
lemma follows_map (h : s.HeldBy a ptrs) {args : MapArgs} {env : MapEnv}
    {plan : MapPlan} {key : Addr → UInt32} {mmap : ℕ → ShmRegion → Option UInt64}
    {mode : MappingMode} (hcall : s.call c = mapWith s args env plan key mmap mode)
    (hspec : a.call c = a.mapMem args plan) (hfresh : ∀ p, env.node = some p → s.nodes p = none)
    (hsupplied : plan.supplied = true ↔ env.node.isSome ∧ env.hashNode ∧
      (mapRegions mmap 0 args.shmMemReg).isSome)
    (hkey : ∀ p, env.node = some p → key p = plan.key) (hfits : MapFits a args plan) :
    Follows s a c := by
  have hwide : args.uniqueShmemId24bit &&& 0xFF000000 ≠ 0 → Follows s a c := by
    intro hne
    have hcheck : s.checkShmemId args = some false := if_pos hne
    rw [mapWith, hcheck, bind_some, if_pos (by simp)] at hcall
    exact follows_of_refused h (by simp) hcall
      (hspec.trans (mapMem_refused fun _ _ hall => hne hall.1))
  by_cases hmask : args.uniqueShmemId24bit &&& 0xFF000000 ≠ 0
  · exact hwide hmask
  · -- the id has passed both checks: what is left is the same for every id
    have hrest : s.checkShmemId args = some true → (∀ mappings,
        a.ofToken args.clientToken = some mappings → plan.supplied = true →
        plan.wellFormed = true →
        args.uniqueShmemId24bit = 0 ∧ plan.key ≠ 0 ∧ a.known plan.key = false) →
        (plan.wellFormed = true → Registered a args.clientToken) → Follows s a c := by
      intro hcheck hid hregistered
      rw [mapWith, hcheck, bind_some, if_neg (by simp)] at hcall
      by_cases hwell : plan.wellFormed = true
      · obtain ⟨mappings, ht⟩ := ofToken_of_registered (hregistered hwell)
        rw [if_neg (not_not_intro hwell)] at hcall
        obtain ⟨r, v, s', hmap, hiff, hv, ptrs', hheld⟩ := h.mapNode mode ht hfresh
          hsupplied hkey fun hsup => hid mappings ht hsup hwell
        have hanswer : a.call c = if plan.supplied then (true, plan.key,
            update a (Registry.slotOf args.clientToken) (some (⟨plan.key, 0⟩ :: mappings)))
            else a.refused := by
          rw [hspec, Registry.mapMem, ht]
          by_cases hsup : plan.supplied = true
          · obtain ⟨hzero, -, -⟩ := hid mappings ht hsup hwell
            simp [hzero, hwell, hsup]
          · simp [hsup]
        refine ⟨r, v, s', hcall.trans hmap, ?_, ?_, ptrs', ?_⟩ <;> rw [hanswer]
        · rw [hiff]
          cases plan.supplied <;> simp [Registry.refused]
        · intro htrue
          cases hsup : plan.supplied with
          | false =>
            rw [hsup] at htrue
            contradiction
          | true => exact hv hsup
        · cases hsup : plan.supplied <;> rw [hsup] at hheld <;> exact hheld
      · rw [if_pos hwell] at hcall
        exact follows_of_refused h (by simp) hcall
          (hspec.trans (mapMem_refused fun _ _ hall => hwell hall.2.1))
    rcases hfits with hne | ⟨hne, hregistered, hknown, hmine⟩ | ⟨hzero, hplan⟩
    · exact hwide hne
    · obtain ⟨mappings, ht⟩ := ofToken_of_registered hregistered
      rw [ht, getD_some] at hmine
      have hcheck : s.checkShmemId args
          = some (!Registry.has mappings args.uniqueShmemId24bit) := by
        rw [Memorymap.checkShmemId, if_neg hmask, if_neg hne, h.getMemMapHandle_eq ht hknown,
          map_some]
        cases Registry.has mappings args.uniqueShmemId24bit <;> rfl
      cases hhas : Registry.has mappings args.uniqueShmemId24bit with
      | true =>
        rw [hhas] at hcheck
        rw [mapWith, hcheck, bind_some, if_pos (by simp)] at hcall
        refine follows_of_refused h (by simp) hcall (hspec.trans (mapMem_refused ?_))
        intro mappings' ht' hall
        rw [ht, Option.some.injEq] at ht'
        subst ht'
        exact hall.2.2.2 ⟨hne, hhas⟩
      | false =>
        rw [hhas] at hcheck
        have hnot : ¬ (plan.wellFormed = true ∧ plan.supplied = true) := by
          rcases hmine with htrue | hnot
          · rw [hhas] at htrue
            contradiction
          · exact hnot
        exact hrest hcheck (fun _ _ hsup hwell => absurd ⟨hwell, hsup⟩ hnot) fun _ => hregistered
    · have hcheck : s.checkShmemId args = some true := by
        rw [Memorymap.checkShmemId, if_neg hmask, if_pos hzero]
      refine hrest hcheck (fun _ _ hsup hwell => ?_) fun hwell => ?_
      · rcases hplan with hill | ⟨-, hunused⟩
        · rw [hwell] at hill
          contradiction
        · exact ⟨hzero, hunused hsup⟩
      · rcases hplan with hill | ⟨hregistered, -⟩
        · rw [hwell] at hill
          contradiction
        · exact hregistered

/-- **One call.** -/
lemma follows (h : s.HeldBy a ptrs) (hadm : Admitted ⟨s, a⟩ c)
    (hfits : Fits a c) : Follows s a c := by
  cases c with
  | register env => exact follows_register h hadm hfits
  | unregister t => exact absurd hfits id
  | shmMemMap args env =>
    refine follows_map h (shmMemMapV2_eq args env) rfl hadm ?_ (fun _ _ => rfl) hfits
    simp [shmMemMapPlan]
  | virtaddrMemMap args env =>
    refine follows_map h (virtaddrMemMapV2_eq args env) rfl hadm ?_ (fun p hp => ?_) hfits
    · simp [virtaddrMemMapPlan, mapRegions_virt]
    · simp [virtaddrMemMapPlan, hp]
  | shmMemUnmap t handle => exact follows_unmap h hfits
  | unmapAll t => exact follows_unmapAll h hfits
  | incrRefcount t handle => exact follows_count h hfits.1 hfits.2 1 rfl rfl
  | decrRefcount t handle => exact follows_count h hfits.1 hfits.2 (-1) rfl rfl
  | getMemMapHandle t shmemId => exact follows_getMemMapHandle h hfits.1 hfits.2

/-! ## Runs -/

lemma heldBy_init : Memorymap.init.HeldBy (fun _ => none) (fun _ => []) := by
  refine ⟨fun _ _ => rfl, fun _ _ => ⟨rfl, rfl⟩, ?_, ?_, fun _ => trivial, ?_, ?_, ?_, ?_, ?_, rfl,
    fun _ => Nat.zero_le _⟩
  · intro i m hi
    contradiction
  · intro e he
    contradiction
  · intro i m hi
    contradiction
  · intro i m hi
    contradiction
  · intro i p hp
    contradiction
  · intro e he
    contradiction
  · intro i j p hp
    contradiction

lemma registers_of_heldBy (h : s.HeldBy a ptrs) : Registers ⟨s, a⟩ := by
  refine ⟨fun i => ⟨fun m hi => ?_, fun hi => (h.free i hi).1⟩, h.unique, ?_, ?_, h.number⟩
  · obtain ⟨p, hlist, hclient, -⟩ := h.client i m hi
    exact ⟨p, ptrs i, hlist, hclient, h.chain i, h.mappings i m hi⟩
  · intro e he
    obtain ⟨i, m, hi, hlist⟩ := h.tokens e he
    obtain ⟨p, hlist', hclient, -⟩ := h.client i m hi
    rw [show s.memMapClientList i = some p from hlist', Option.some.injEq] at hlist
    rw [← hlist]
    exact isSome_iff_exists.mpr ⟨_, hclient⟩
  · intro e he
    obtain ⟨i, -, n, hn, -⟩ := h.nodes e he
    exact isSome_iff_exists.mpr ⟨n, hn⟩

/-- **The shared-memory map is a registry** along every run whose calls the code answers. -/
theorem memorymap_registers (calls : List MemorymapCall) (hadm : Meets step Admitted init calls)
    (hfits : Meets step (fun r c => Fits r.a c) init calls) :
    Along step Registers init calls ∧ Meets step Answered init calls := by
  have hheld : Along step (fun r => ∃ ptrs, r.s.HeldBy r.a ptrs) init calls := by
    refine along_of_meets ?_ ⟨_, heldBy_init⟩ (hadm.and hfits)
    rintro r c ⟨ptrs, h⟩ hc
    obtain ⟨result, v, s', hcall, -, -, ptrs', h'⟩ := follows h hc.1 hc.2
    refine ⟨ptrs', ?_⟩
    rw [step, hcall]
    exact h'
  refine ⟨hheld.mono fun r hr => ?_, meets_of_along ?_ hheld (hadm.and hfits)⟩
  · obtain ⟨ptrs, h⟩ := hr
    exact registers_of_heldBy h
  · rintro r c ⟨ptrs, h⟩ hc
    obtain ⟨result, v, s', hcall, hiff, hv, -⟩ := follows h hc.1 hc.2
    exact ⟨result, v, s', hcall, hiff, hv⟩

/-! ## Two runs -/

/-- The heap gives the address `p`. -/
def heapGives (p : Addr) : MapEnv := ⟨some p, true, fun _ => some 0x1000⟩

/-- One region with the file descriptor `fd`, for the client with the token `t`. -/
def oneRegion (t fd id : UInt32) : MapArgs := ⟨t, [⟨fd, 0, 64⟩], false, 0, id⟩

instance (r : MemorymapRun) (c : MemorymapCall) : Decidable (Admitted r c) :=
  match c with
  | .register env => decidable_of_iff (env.client.all fun p => (r.s.clients p).isNone)
      (by simp [Admitted, all_eq_true])
  | .shmMemMap _ env => decidable_of_iff (env.node.all fun p => (r.s.nodes p).isNone)
      (by simp [Admitted, all_eq_true])
  | .virtaddrMemMap _ env => decidable_of_iff (env.node.all fun p => (r.s.nodes p).isNone)
      (by simp [Admitted, all_eq_true])
  | .unregister _ => isTrue trivial
  | .shmMemUnmap _ _ => isTrue trivial
  | .unmapAll _ => isTrue trivial
  | .incrRefcount _ _ => isTrue trivial
  | .decrRefcount _ _ => isTrue trivial
  | .getMemMapHandle _ _ => isTrue trivial

/-- Two clients; the first maps two regions and uses one, which is not unmapped; the second is
refused the handle of the first. -/
def twoClients : List MemorymapCall :=
  [.register ⟨some 10, true⟩, .register ⟨some 11, true⟩, .shmMemMap (oneRegion 1 5 0) (heapGives 20),
    .virtaddrMemMap (oneRegion 1 6 0) (heapGives 21), .incrRefcount 1 5, .shmMemUnmap 1 5,
    .getMemMapHandle 1 21, .getMemMapHandle 2 5, .shmMemMap (oneRegion 1 7 5) (heapGives 22)]

theorem memorymap_registers_twoClients :
    Along step Registers init twoClients ∧ Meets step Answered init twoClients :=
  memorymap_registers twoClients (by decide) (by decide)

/-- **The claim fails.** After a mapping is removed, the hash table of the handles still leads to
its node, which is freed. -/
theorem not_memorymap_registers : ¬ ∀ calls : List MemorymapCall, Meets step Admitted init calls →
      Along step Registers init calls ∧ Meets step Answered init calls := by
  intro h
  have hregisters := (h [.register ⟨some 10, true⟩, .shmMemMap (oneRegion 1 5 0) (heapGives 20),
    .shmMemUnmap 1 5] (by decide)).1.last
  have hnode := hregisters.nodes (5, 20) (by decide)
  revert hnode
  decide

end MemorymapRun

end AudioReach
