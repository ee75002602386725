import AudioReach.EosCargo.Model
import AudioReach.Library.Assign
import AudioReach.Library.Owners

/-!
# Counting the markers that refer to a cargo

`Counted` relates the cargos to the number of references that each should have: the counts are
these numbers, a cargo is allocated exactly as long as its number is positive, and each cargo
that was created is allocated or was freed, once, after the container was told.  Freeing a
reference and adding one change one number; everything else that the functions do leaves the
cargos alone.
-/

namespace AudioReach

open Function (update update_of_ne update_self)
open Library List

/-- The cargo that the metadata in a node refers to. -/
def MdNode.cntrRefPtr (node : MdNode) : Option Addr :=
  match node.body with
  | .eos _ cntrRefPtr => cntrRefPtr
  | _ => none

namespace EosTopo

variable {κ : Type*} {t t' : EosTopo κ} {created : List Addr} {n : Addr → ℕ}

/-- The number of markers, in the lists named by `ls`, that refer to a cargo. -/
def numRefs (ls : List κ) (t : EosTopo κ) (c : Addr) : ℕ :=
  (ls.flatMap t.lists).countP fun node => node.cntrRefPtr = some c

/-- The cargos are right for the numbers of references `n`, of all cargos ever created. -/
structure Counted (t : EosTopo κ) (created : List Addr) (n : Addr → ℕ) : Prop where
  count : ∀ c cargo, t.cargos c = some cargo → cargo.refCount = n c
  /-- A cargo is allocated as long as it is referred to. -/
  live : ∀ c, (∃ cargo, t.cargos c = some cargo) ↔ n c ≠ 0
  /-- A cargo that was created is in use, or was freed once. -/
  once : ∀ c, created.count c = t.freed.count c + if n c = 0 then 0 else 1
  /-- The container is told of each cargo that is freed, and of no other. -/
  cleared : t.cleared.filterMap ClearEosCall.cntrRefPtr = if t.hasClearEos then t.freed else []

/-- The cargos and what was done with them. -/
structure SameCargos (t t' : EosTopo κ) : Prop where
  cargos : t'.cargos = t.cargos
  hasClearEos : t'.hasClearEos = t.hasClearEos
  cleared : t'.cleared.filterMap ClearEosCall.cntrRefPtr =
    t.cleared.filterMap ClearEosCall.cntrRefPtr
  freed : t'.freed = t.freed

/-- One reference more or less is an assignment. -/
lemma fun_ite_eq (op : ℕ → ℕ → ℕ) (hop : ∀ k, op k 0 = k) {c : Addr} :
    (fun d => op (n d) (if some c = some d then 1 else 0)) = update n c (op (n c) 1) := by
  funext d
  by_cases hd : d = c
  · subst hd
    simp
  · rw [update_of_ne hd, if_neg (by simpa using Ne.symm hd), hop]

section

variable (h : Counted t created n)
include h

lemma Counted.congr (hsame : SameCargos t t') : Counted t' created n := by
  obtain ⟨hcargos, hhas, hcleared, hfreed⟩ := hsame
  refine ⟨?_, ?_, ?_, ?_⟩
  · rw [hcargos]
    exact h.count
  · rw [hcargos]
    exact h.live
  · rw [hfreed]
    exact h.once
  · rw [hcleared, hhas, hfreed]
    exact h.cleared

lemma Counted.count_update {c : Addr} {o : Option EosCargo} {m : ℕ}
    (ho : ∀ x, o = some x → x.refCount = m) :
    ∀ d x, update t.cargos c o d = some x → x.refCount = update n c m d :=
  forall_update₂ (p := fun _ (o : Option EosCargo) (k : ℕ) => ∀ x, o = some x → x.refCount = k)
    h.count ho

lemma Counted.live_update {c : Addr} {o : Option EosCargo} {m : ℕ}
    (ho : (∃ x, o = some x) ↔ m ≠ 0) :
    ∀ d, (∃ x, update t.cargos c o d = some x) ↔ update n c m d ≠ 0 :=
  forall_update₂ (p := fun _ o k => (∃ x, o = some x) ↔ k ≠ 0) h.live ho

/-- Another number of references changes the cargos only at one address. -/
lemma Counted.setAt {c : Addr} {cargo : EosCargo} {m : ℕ} (hm : m ≠ 0) (hc : n c ≠ 0)
    (hcount : cargo.refCount = m) :
    Counted { t with cargos := update t.cargos c (some cargo) } created (update n c m) := by
  refine ⟨?_, ?_, ?_, h.cleared⟩
  · exact h.count_update fun x hx => Option.some.inj hx ▸ hcount
  · exact h.live_update ⟨fun _ => hm, fun _ => ⟨cargo, rfl⟩⟩
  · refine forall_update (p := fun d k => created.count d =
      t.freed.count d + if k = 0 then 0 else 1) h.once ?_
    have honce := h.once c
    rw [if_neg hc] at honce
    rwa [if_neg hm]

/-- **Free.** A reference goes, and the cargo with the last one. -/
theorem Counted.freeEosCargo (flags : EosFlags) (ref : Option Addr)
    (href : ∀ c, ref = some c → n c ≠ 0) :
    ∃ t', t.freeEosCargo flags ref = some t' ∧ t'.lists = t.lists ∧
      Counted t' created fun c => n c - if ref = some c then 1 else 0 := by
  cases ref with
  | none =>
    refine ⟨_, rfl, rfl, ?_⟩
    refine h.congr ⟨rfl, rfl, ?_, rfl⟩
    rw [filterMap_append]
    split
    · exact append_nil _
    · exact append_nil _
  | some c =>
    have hc := href c rfl
    obtain ⟨cargo, hcargo⟩ := (h.live c).mpr hc
    have hcount := h.count c cargo hcargo
    rw [fun_ite_eq (· - ·) Nat.sub_zero]
    simp only [EosTopo.freeEosCargo, hcargo, Option.map_some]
    split
    · rename_i hlast
      have hone : n c = 1 := by omega
      refine ⟨_, rfl, rfl, ?_, ?_, fun d => ?_, ?_⟩
      · exact h.count_update nofun
      · exact h.live_update (by simp [hone])
      · have honce := h.once d
        rw [count_append]
        by_cases hd : d = c
        · subst hd
          rw [update_self, count_singleton_self, hone]
          rw [hone] at honce
          simpa using honce
        · rw [update_of_ne hd, count_singleton, if_neg (by simpa using Ne.symm hd)]
          exact honce
      · rw [filterMap_append, h.cleared]
        cases t.hasClearEos with
        | false => rfl
        | true => rfl
    · exact ⟨_, rfl, rfl, h.setAt (by omega) hc (by dsimp only; omega)⟩

/-- **Reference.** One more reference to a cargo that is in use. -/
theorem Counted.addRef {ref : Option Addr} (href : ∀ c, ref = some c → n c ≠ 0) :
    ∃ t', t.addRef ref = some t' ∧ t'.lists = t.lists ∧
      Counted t' created fun c => n c + if ref = some c then 1 else 0 := by
  cases ref with
  | none => exact ⟨t, rfl, rfl, by simpa using h⟩
  | some c =>
    have hc := href c rfl
    obtain ⟨cargo, hcargo⟩ := (h.live c).mpr hc
    have hcount := h.count c cargo hcargo
    rw [fun_ite_eq (· + ·) Nat.add_zero]
    simp only [EosTopo.addRef, hcargo, Option.map_some]
    exact ⟨_, rfl, rfl, h.setAt (by omega) hc (by dsimp only; omega)⟩

/-- **Creation.** A new cargo has one reference. -/
theorem Counted.createEosCntrRef (inp : EosInput) {c : Addr} (hfree : t.cargos c = none) :
    Counted (t.createEosCntrRef inp c) (created ++ [c])
      fun d => n d + if some c = some d then 1 else 0 := by
  have hc : n c = 0 := by
    by_contra hne
    obtain ⟨cargo, hcargo⟩ := (h.live c).mpr hne
    rw [hfree] at hcargo
    cases hcargo
  rw [fun_ite_eq (· + ·) Nat.add_zero, hc]
  refine ⟨?_, ?_, fun d => ?_, h.cleared⟩
  · exact h.count_update fun x hx => Option.some.inj hx ▸ rfl
  · exact h.live_update (by simp)
  · have honce := h.once d
    rw [count_append]
    change _ = t.freed.count d + _
    by_cases hd : d = c
    · subst hd
      rw [hc] at honce
      simpa using honce
    · rw [update_of_ne hd, count_singleton, if_neg (by simpa using Ne.symm hd)]
      exact honce

end

end EosTopo

end AudioReach
