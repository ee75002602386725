import Mathlib.Data.List.ReduceOption
import AudioReach.Gpr.Session

/-!
# The session lists as finite maps

What both lists are for: a finite map from ports to callbacks.  `GprRegistry` is that
map, as the list of its entries, with the answers a caller expects; the array-based list
holds only as many entries as it has slots, so the map takes an optional capacity.

Both implementations simulate it call by call, as long as a registration that is
accepted passes callback data or is given memory whose data field is null: data that are
null are not written, and the entry then keeps what the memory held.  The array-based
list moreover keeps the node of a registration that it refuses for want of a free slot.
-/

namespace AudioReach

open Library List

/-! ## The finite map -/

/-- The registered ports with their entries. -/
abbrev GprRegistry := List GprModuleNode

namespace GprRegistry

/-- Is the port registered? -/
def Has (reg : GprRegistry) (port : UInt32) : Prop :=
  ∃ n ∈ reg, n.myModulePort = port

instance (reg : GprRegistry) (port : UInt32) : Decidable (reg.Has port) :=
  inferInstanceAs (Decidable (∃ n ∈ reg, n.myModulePort = port))

/-- Is there no room for another port? -/
def Full (reg : GprRegistry) (capacity : Option ℕ) : Prop :=
  ∃ c ∈ capacity, c ≤ reg.length

instance (reg : GprRegistry) : ∀ capacity, Decidable (reg.Full capacity)
  | none => isFalse (by simp [Full])
  | some c => decidable_of_iff (c ≤ reg.length) (by simp [Full])

/-- The entry registered under the port. -/
def get (reg : GprRegistry) (port : UInt32) : GprAnswer :=
  .ofNode (reg.find? (fun n => n.myModulePort = port))

/-- What a caller of the registry expects.  A registration is refused when the port is
registered or there is no room; else the map gains exactly the given callback and
data, null data included. -/
def call (capacity : Option ℕ) (reg : GprRegistry) : GprSessionCall → GprAnswer × GprRegistry
  | .register _ none _ _ => ((.ebadparam, none), reg)
  | .register srcPort (some callbackFn) callbackData _ =>
      if reg.Has srcPort ∨ reg.Full capacity then ((.efailed, none), reg)
      else ((.eok, none), ⟨srcPort, ⟨some callbackFn, callbackData⟩⟩ :: reg)
  | .deregister srcPort => ((.eok, none), reg.filter (fun n => n.myModulePort ≠ srcPort))
  | .getSession port => (reg.get port, reg)

/-- A registration that will be accepted passes data, or gets memory whose data field is
null; every other call is unrestricted. -/
def CleanData (capacity : Option ℕ) (reg : GprRegistry) : GprSessionCall → Prop
  | .register srcPort (some _) callbackData recycled =>
      reg.Has srcPort ∨ reg.Full capacity ∨ callbackData ≠ none ∨ recycled.callbackData = none
  | _ => True

/-- No new port is registered while there is no room. -/
def HasRoom (capacity : Option ℕ) (reg : GprRegistry) : GprSessionCall → Prop
  | .register srcPort (some _) _ _ => reg.Has srcPort ∨ ¬ reg.Full capacity
  | _ => True

instance (capacity : Option ℕ) (reg : GprRegistry) : ∀ c, Decidable (reg.CleanData capacity c)
  | .register srcPort (some _) callbackData recycled => inferInstanceAs (Decidable
      (reg.Has srcPort ∨ reg.Full capacity ∨ callbackData ≠ none ∨ recycled.callbackData = none))
  | .register _ none _ _ => inferInstanceAs (Decidable True)
  | .deregister _ => inferInstanceAs (Decidable True)
  | .getSession _ => inferInstanceAs (Decidable True)

instance (capacity : Option ℕ) (reg : GprRegistry) : ∀ c, Decidable (reg.HasRoom capacity c)
  | .register srcPort (some _) _ _ =>
      inferInstanceAs (Decidable (reg.Has srcPort ∨ ¬ reg.Full capacity))
  | .register _ none _ _ => inferInstanceAs (Decidable True)
  | .deregister _ => inferInstanceAs (Decidable True)
  | .getSession _ => inferInstanceAs (Decidable True)

end GprRegistry

/-! ## What the entry of a new node holds -/

lemma GprModuleEntry.save_eq {recycled : GprModuleEntry} {callbackFn callbackData : Option Addr}
    (h : callbackData ≠ none ∨ recycled.callbackData = none) :
    recycled.save callbackFn callbackData = ⟨callbackFn, callbackData⟩ := by
  unfold GprModuleEntry.save
  cases callbackData with
  | some data => rfl
  | none =>
    have hnull : recycled.callbackData = none := by simpa using h
    simp [hnull]

/-! ## The general simulation argument -/

section Simulation

variable {L : Type}
  {gprInitSession : L → UInt32 → GprModuleEntry → (GprModuleEntry → GprModuleEntry) → ArResult × L}
  {gprDeinitSession : L → UInt32 → ArResult × L} {gprGetSession : L → UInt32 → GprAnswer}
  {capacity : Option ℕ} {exact : Prop} {R : L → GprRegistry → Prop}

/-- What an implementation has to provide: with the list related to a map, the three
functions act on it as the map's operations do.  If `exact` is asked for, which is for
relations that also account for the allocated nodes, registrations without room are
left out. -/
structure GprListRefines
    (gprInitSession : L → UInt32 → GprModuleEntry → (GprModuleEntry → GprModuleEntry) →
      ArResult × L)
    (gprDeinitSession : L → UInt32 → ArResult × L) (gprGetSession : L → UInt32 → GprAnswer)
    (capacity : Option ℕ) (exact : Prop) (R : L → GprRegistry → Prop) : Prop where
  /-- A new port is linked with the entry the caller wrote. -/
  accept : ∀ {list reg srcPort} recycled write, R list reg → ¬ reg.Has srcPort →
    ¬ reg.Full capacity →
    (gprInitSession list srcPort recycled write).1 = .eok ∧
      R (gprInitSession list srcPort recycled write).2 (⟨srcPort, write recycled⟩ :: reg)
  /-- A known port, or a port without room, is refused. -/
  refuse : ∀ {list reg srcPort} recycled write, R list reg →
    reg.Has srcPort ∨ (¬ exact ∧ ¬ reg.Has srcPort ∧ reg.Full capacity) →
    (gprInitSession list srcPort recycled write).1 = .efailed ∧
      R (gprInitSession list srcPort recycled write).2 reg
  deinit : ∀ {list reg} srcPort, R list reg →
    R (gprDeinitSession list srcPort).2 (reg.filter (fun n => n.myModulePort ≠ srcPort))
  get : ∀ {list reg} port, R list reg → gprGetSession list port = reg.get port

/-- The driver's calls over such an implementation simulate the map. -/
theorem GprListRefines.call
    (h : GprListRefines gprInitSession gprDeinitSession gprGetSession capacity exact R)
    {list : L} {reg : GprRegistry} (hR : R list reg) {c : GprSessionCall}
    (hclean : reg.CleanData capacity c) (hroom : exact → reg.HasRoom capacity c) :
    (gprCmd gprInitSession gprDeinitSession gprGetSession list c).1 = (reg.call capacity c).1 ∧
      R (gprCmd gprInitSession gprDeinitSession gprGetSession list c).2
        (reg.call capacity c).2 := by
  cases c with
  | register srcPort callbackFn callbackData recycled =>
    cases callbackFn with
    | none => exact ⟨rfl, hR⟩
    | some callbackFn =>
      simp only [gprCmd, GprRegistry.call, reduceCtorEq, if_false]
      split
      · next hrefused =>
        have hcase : reg.Has srcPort ∨ (¬ exact ∧ ¬ reg.Has srcPort ∧ reg.Full capacity) := by
          by_cases hhas : reg.Has srcPort
          · exact Or.inl hhas
          · have hfull := hrefused.resolve_left hhas
            refine Or.inr ⟨?_, hhas, hfull⟩
            intro hexact
            rcases hroom hexact with hhas' | hroom'
            · exact hhas hhas'
            · exact hroom' hfull
        obtain ⟨hrc, hR'⟩ := h.refuse recycled
          (fun entry => entry.save (some callbackFn) callbackData) hR hcase
        exact ⟨by rw [hrc], hR'⟩
      · next haccepted =>
        rw [not_or] at haccepted
        obtain ⟨hrc, hR'⟩ := h.accept recycled
          (fun entry => entry.save (some callbackFn) callbackData) hR haccepted.1 haccepted.2
        have hdata : callbackData ≠ none ∨ recycled.callbackData = none := by
          rcases hclean with hhas | hfull | hdata
          · exact absurd hhas haccepted.1
          · exact absurd hfull haccepted.2
          · exact hdata
        rw [GprModuleEntry.save_eq hdata] at hR'
        exact ⟨by rw [hrc], hR'⟩
  | deregister srcPort => exact ⟨rfl, h.deinit srcPort hR⟩
  | getSession port => exact ⟨h.get port hR, hR⟩

end Simulation

/-! ## The hash-based list -/

/-- The chains hold the registered ports, each in the chain of its hash, and the nodes
held are the linked ones. -/
structure GprHashList.Represents (list : GprHashList) (reg : GprRegistry) : Prop where
  size : 2 ≤ list.maxCbListSize
  placed : ∀ i, ∀ n ∈ list.cbList i, list.sessionHash n.myModulePort = i
  perm : (chains list.cbList list.maxCbListSize).Perm reg
  nodup : (reg.map GprModuleNode.myModulePort).Nodup
  held : list.held = reg.length

namespace GprHashList

variable {list : GprHashList} {reg : GprRegistry}

lemma Represents.nodup_chains (h : list.Represents reg) :
    ((chains list.cbList list.maxCbListSize).map GprModuleNode.myModulePort).Nodup :=
  (h.perm.map _).nodup_iff.mpr h.nodup

section

variable (h : list.Represents reg) (port : UInt32)
include h

lemma Represents.sessionHash_lt : list.sessionHash port < list.maxCbListSize := by
  have hsize := h.size
  have hlt : list.sessionHash port < list.maxCbListSize - 1 := Nat.mod_lt _ (by omega)
  omega

lemma Represents.find?_eq :
    (list.cbList (list.sessionHash port)).find? (fun n => n.myModulePort = port) =
      reg.find? (fun n => n.myModulePort = port) := by
  have hfilter : (chains list.cbList list.maxCbListSize).filter (fun n => n.myModulePort = port) =
      (list.cbList (list.sessionHash port)).filter (fun n => n.myModulePort = port) := by
    refine filter_chains (h.sessionHash_lt port) ?_
    intro j _ n hn hport
    rw [← of_decide_eq_true hport, h.placed j n hn]
  rw [← find?_perm h.perm h.nodup_chains port, ← head?_filter, ← head?_filter, hfilter]

lemma Represents.has_iff :
    reg.Has port ↔ ∃ n ∈ list.cbList (list.sessionHash port), n.myModulePort = port := by
  have hfind := h.find?_eq port
  constructor
  · rintro ⟨n, hn, hport⟩
    have hsome : (reg.find? fun n => n.myModulePort = port).isSome := by
      rw [find?_isSome]
      exact ⟨n, hn, decide_eq_true hport⟩
    rw [← hfind, find?_isSome] at hsome
    obtain ⟨m, hm, hmport⟩ := hsome
    exact ⟨m, hm, of_decide_eq_true hmport⟩
  · rintro ⟨n, hn, hport⟩
    have hsome : ((list.cbList (list.sessionHash port)).find?
        fun n => n.myModulePort = port).isSome := by
      rw [find?_isSome]
      exact ⟨n, hn, decide_eq_true hport⟩
    rw [hfind, find?_isSome] at hsome
    obtain ⟨m, hm, hmport⟩ := hsome
    exact ⟨m, hm, of_decide_eq_true hmport⟩

end

/-- `gpr_init_session` in one piece: append the node unless the chain has the port. -/
lemma gprInitSession_eq (list : GprHashList) (srcPort : UInt32) (recycled : GprModuleEntry)
    (write : GprModuleEntry → GprModuleEntry) :
    list.gprInitSession srcPort recycled write =
      if ∃ n ∈ list.cbList (list.sessionHash srcPort), n.myModulePort = srcPort then
        (.efailed, list)
      else
        (.eok, { list.setChain (list.sessionHash srcPort)
            (list.cbList (list.sessionHash srcPort) ++ [⟨srcPort, write recycled⟩]) with
          held := list.held + 1 }) := by
  have hhash : ({ list with held := list.held + 1 } : GprHashList).sessionHash srcPort =
      list.sessionHash srcPort := rfl
  unfold gprInitSession
  dsimp only
  rw [hhash]
  rcases hchain : list.cbList (list.sessionHash srcPort) with - | ⟨temp, rest⟩
  · simp [setChain]
  · by_cases htemp : temp.myModulePort = srcPort
    · simp [htemp]
    · by_cases hrest : ∃ n ∈ rest, n.myModulePort = srcPort
      · simp [htemp, hrest]
      · simp [htemp, setChain]

/-- `gpr_deinit_session` in one piece: take the node out if the chain has the port. -/
lemma gprDeinitSession_eq (list : GprHashList) (srcPort : UInt32) :
    (list.gprDeinitSession srcPort).2 =
      if ∃ n ∈ list.cbList (list.sessionHash srcPort), n.myModulePort = srcPort then
        { list.setChain (list.sessionHash srcPort) ((list.cbList (list.sessionHash srcPort)).eraseP
              (fun n => n.myModulePort = srcPort)) with
          held := list.held - 1 }
      else list := by
  unfold gprDeinitSession
  dsimp only
  rcases hchain : list.cbList (list.sessionHash srcPort) with - | ⟨temp, rest⟩
  · simp
  · cases rest with
    | nil => by_cases htemp : temp.myModulePort = srcPort <;> simp [htemp, setChain]
    | cons next rest =>
      dsimp only
      by_cases htemp : temp.myModulePort = srcPort
      · simp [htemp, setChain]
      · by_cases hrest : ∃ n ∈ next :: rest, n.myModulePort = srcPort
        · have hany : ((next :: rest).any fun n => n.myModulePort = srcPort) = true := by
            simpa using hrest
          have hsome : ∃ n ∈ temp :: next :: rest, n.myModulePort = srcPort := by
            obtain ⟨n, hn, hport⟩ := hrest
            exact ⟨n, mem_cons_of_mem temp hn, hport⟩
          have herase : (temp :: next :: rest).eraseP (fun n => n.myModulePort = srcPort) =
              temp :: (next :: rest).eraseP (fun n => n.myModulePort = srcPort) :=
            eraseP_cons_of_neg (by simpa using htemp)
          rw [if_neg htemp, if_pos hany, if_pos hsome, herase]
          rfl
        · have hany : ¬ ((next :: rest).any fun n => n.myModulePort = srcPort) = true := by
            simpa using hrest
          have hnone : ¬ ∃ n ∈ temp :: next :: rest, n.myModulePort = srcPort := by
            rintro ⟨n, hn, hport⟩
            rcases mem_cons.mp hn with rfl | hn
            · exact htemp hport
            · exact hrest ⟨n, hn, hport⟩
          rw [if_neg htemp, if_neg hany, if_neg hnone]

/-- The hash-based list refines the map, nodes accounted for. -/
theorem refines : GprListRefines gprInitSession gprDeinitSession gprGetSession none True
    GprHashList.Represents where
  accept := by
    intro list reg srcPort recycled write h hnew _
    have hchain : ¬ ∃ n ∈ list.cbList (list.sessionHash srcPort), n.myModulePort = srcPort :=
      fun hhas => hnew ((h.has_iff srcPort).mpr hhas)
    rw [gprInitSession_eq, if_neg hchain]
    refine ⟨rfl, h.size, ?_, ?_, ?_, ?_⟩
    · intro i n hn
      by_cases hi : i = list.sessionHash srcPort
      · subst hi
        simp only [setChain, Function.update_self, mem_append, mem_singleton] at hn
        rcases hn with hold | rfl
        · exact h.placed _ n hold
        · rfl
      · simp only [setChain, Function.update_of_ne hi] at hn
        exact h.placed i n hn
    · have hperm := chains_update_perm_cons (h.sessionHash_lt srcPort)
        (perm_append_singleton (⟨srcPort, write recycled⟩ : GprModuleNode)
          (list.cbList (list.sessionHash srcPort)))
      exact hperm.trans (h.perm.cons _)
    · rw [map_cons, nodup_cons]
      refine ⟨?_, h.nodup⟩
      intro hmem
      obtain ⟨n, hn, hport⟩ := mem_map.mp hmem
      exact hnew ⟨n, hn, hport⟩
    · rw [length_cons, ← h.held]
  refuse := by
    intro list reg srcPort recycled write h hcase
    have hhas : reg.Has srcPort := by
      rcases hcase with hhas | ⟨hexact, -⟩
      · exact hhas
      · exact absurd trivial hexact
    rw [gprInitSession_eq, if_pos ((h.has_iff srcPort).mp hhas)]
    exact ⟨rfl, h⟩
  deinit := by
    intro list reg srcPort h
    rw [gprDeinitSession_eq]
    split
    · next hhas =>
      obtain ⟨n, hn, hport⟩ := hhas
      obtain ⟨x, before, after, -, hx, hchain, herase⟩ :=
        @exists_of_eraseP _ (fun n => decide (n.myModulePort = srcPort)) _ n hn
          (decide_eq_true hport)
      have hxport : x.myModulePort = srcPort := of_decide_eq_true hx
      have hsplit : (list.cbList (list.sessionHash srcPort)).Perm (x :: (before ++ after)) := by
        rw [hchain]
        exact perm_middle
      have hall := chains_perm_cons_update (h.sessionHash_lt srcPort) hsplit
      have hrest := perm_filter_ne hall h.perm h.nodup_chains
      rw [hxport] at hrest
      rw [herase]
      refine ⟨h.size, ?_, hrest, ?_, ?_⟩
      · intro i m hm
        by_cases hi : i = list.sessionHash srcPort
        · subst hi
          simp only [setChain, Function.update_self] at hm
          exact h.placed _ m (hsplit.mem_iff.mpr (mem_cons_of_mem x hm))
        · simp only [setChain, Function.update_of_ne hi] at hm
          exact h.placed i m hm
      · exact h.nodup.sublist (filter_sublist.map _)
      · have hlen := hall.length_eq
        rw [length_cons, h.perm.length_eq] at hlen
        rw [← hrest.length_eq, h.held, hlen]
        rfl
    · next hnone =>
      have hsame : reg.filter (fun n => n.myModulePort ≠ srcPort) = reg := by
        rw [filter_eq_self]
        intro n hn
        refine decide_eq_true ?_
        intro hport
        exact hnone ((h.has_iff srcPort).mp ⟨n, hn, hport⟩)
      rw [hsame]
      exact h
  get := by
    intro list reg port h
    unfold gprGetSession GprRegistry.get
    rw [h.find?_eq port]

lemma represents_init {n : ℕ} (hn : 2 ≤ n) : (GprHashList.init n).Represents [] where
  size := hn
  placed := fun i m hm => absurd hm not_mem_nil
  perm := by
    have hempty : chains (GprHashList.init n).cbList (GprHashList.init n).maxCbListSize = [] := by
      simp [GprHashList.init, Library.chains]
    rw [hempty]
  nodup := nodup_nil
  held := rfl

end GprHashList

/-! ## The array-based list -/

/-- The occupied slots hold the registered ports.  With `exact`, the nodes held are the
linked ones. -/
structure GprArrayList.Represents (size : ℕ) (exact : Prop) (list : GprArrayList)
    (reg : GprRegistry) : Prop where
  /-- The slot numbers stay below the value used for "no free slot". -/
  bound : size ≤ 0xFFFF
  /-- There are as many slots as the list was given. -/
  length : list.cbList.length = size
  perm : list.cbList.reduceOption.Perm reg
  nodup : (reg.map GprModuleNode.myModulePort).Nodup
  held : exact → list.held = reg.length

namespace GprArrayList

variable {list : GprArrayList} {reg : GprRegistry} {size : ℕ} {exact : Prop}

/-- What the loop of `gpr_init_session` ends with. -/
lemma freeIndex_cases (srcPort : UInt32) (slots : List (Option GprModuleNode)) (i free : ℕ) :
    (freeIndex srcPort slots i free = none ∧ ∃ n ∈ slots.reduceOption, n.myModulePort = srcPort) ∨
    ((∀ n ∈ slots.reduceOption, n.myModulePort ≠ srcPort) ∧
      ((freeIndex srcPort slots i free = some free ∧ slots.reduceOption.length = slots.length) ∨
        ∃ before after, slots = before ++ none :: after ∧
          freeIndex srcPort slots i free = some (i + before.length))) := by
  induction slots generalizing i free with
  | nil => exact Or.inr ⟨by simp, Or.inl ⟨rfl, rfl⟩⟩
  | cons slot slots ih =>
    cases slot with
    | none =>
      simp only [freeIndex, reduceOption_cons_of_none]
      rcases ih (i + 1) i with hdup | ⟨hnew, ⟨hfree, -⟩ | ⟨before, after, hsplit, hfree⟩⟩
      · exact Or.inl hdup
      · exact Or.inr ⟨hnew, Or.inr ⟨[], slots, rfl, by simpa using hfree⟩⟩
      · refine Or.inr ⟨hnew, Or.inr ⟨none :: before, after, by rw [hsplit]; rfl, ?_⟩⟩
        rw [hfree, length_cons]
        congr 1
        omega
    | some temp =>
      simp only [freeIndex, reduceOption_cons_of_some]
      by_cases hport : temp.myModulePort = srcPort
      · rw [if_pos hport]
        exact Or.inl ⟨rfl, temp, mem_cons_self, hport⟩
      · rw [if_neg hport]
        rcases ih (i + 1) free with ⟨hfree, n, hn, hnport⟩ |
          ⟨hnew, ⟨hfree, hlen⟩ | ⟨before, after, hsplit, hfree⟩⟩
        · exact Or.inl ⟨hfree, n, mem_cons_of_mem temp hn, hnport⟩
        · refine Or.inr ⟨?_, Or.inl ⟨hfree, by simp [hlen]⟩⟩
          simpa [hport] using hnew
        · refine Or.inr ⟨by simpa [hport] using hnew,
            Or.inr ⟨some temp :: before, after, by rw [hsplit]; rfl, ?_⟩⟩
          rw [hfree, length_cons]
          congr 1
          omega

section

variable (slots : List (Option GprModuleNode)) (port : UInt32)

lemma find?_holdsPort :
    slots.find? (holdsPort port) =
      (slots.reduceOption.find? (fun n => n.myModulePort = port)).map some := by
  induction slots with
  | nil => rfl
  | cons slot slots ih =>
    cases slot with
    | none => simpa [holdsPort] using ih
    | some temp =>
      by_cases hport : temp.myModulePort = port
      · simp [holdsPort, hport]
      · simpa [holdsPort, hport] using ih

/-- The slot that `gpr_deinit_session` clears. -/
lemma findIdx?_holdsPort :
    (slots.findIdx? (holdsPort port) = none ∧ ∀ n ∈ slots.reduceOption, n.myModulePort ≠ port) ∨
    ∃ before x after, slots = before ++ some x :: after ∧ x.myModulePort = port ∧
      slots.findIdx? (holdsPort port) = some before.length := by
  induction slots with
  | nil => exact Or.inl ⟨rfl, by simp⟩
  | cons slot slots ih =>
    cases slot with
    | none =>
      rcases ih with ⟨hnone, hall⟩ | ⟨before, x, after, hsplit, hport, hidx⟩
      · exact Or.inl ⟨by simpa [findIdx?_cons, holdsPort] using hnone, by simpa using hall⟩
      · refine Or.inr ⟨none :: before, x, after, by rw [hsplit]; rfl, hport, ?_⟩
        simp [findIdx?_cons, holdsPort, hidx]
    | some temp =>
      by_cases htemp : temp.myModulePort = port
      · exact Or.inr ⟨[], temp, slots, rfl, htemp, by simp [findIdx?_cons, holdsPort, htemp]⟩
      · rcases ih with ⟨hnone, hall⟩ | ⟨before, x, after, hsplit, hport, hidx⟩
        · exact Or.inl ⟨by simpa [findIdx?_cons, holdsPort, htemp] using hnone,
            by simpa [htemp] using hall⟩
        · refine Or.inr ⟨some temp :: before, x, after, by rw [hsplit]; rfl, hport, ?_⟩
          simp [findIdx?_cons, holdsPort, htemp, hidx]

end

lemma Represents.has_iff (h : list.Represents size exact reg) (port : UInt32) :
    reg.Has port ↔ ∃ n ∈ list.cbList.reduceOption, n.myModulePort = port := by
  unfold GprRegistry.Has
  simp only [h.perm.mem_iff]

lemma Represents.full_iff (h : list.Represents size exact reg) :
    reg.Full (some size) ↔ list.cbList.reduceOption.length = list.cbList.length := by
  have hle := reduceOption_length_le list.cbList
  have hlen := h.perm.length_eq
  have hsize := h.length
  simp only [GprRegistry.Full, Option.mem_some_iff, exists_eq_left']
  omega

section

variable (before after : List (Option GprModuleNode)) (node : GprModuleNode)

lemma set_none_slot :
    ((before ++ none :: after).set before.length (some node)).reduceOption.Perm
      (node :: (before ++ none :: after).reduceOption) := by
  have hset : (before ++ none :: after).set before.length (some node) =
      before ++ some node :: after := by
    simp
  rw [hset, reduceOption_append, reduceOption_append, reduceOption_cons_of_some,
    reduceOption_cons_of_none]
  exact perm_middle

lemma set_some_slot :
    (before ++ some node :: after).reduceOption.Perm
      (node :: ((before ++ some node :: after).set before.length none).reduceOption) := by
  have hset : (before ++ some node :: after).set before.length none = before ++ none :: after := by
    simp
  rw [hset, reduceOption_append, reduceOption_append, reduceOption_cons_of_some,
    reduceOption_cons_of_none]
  exact perm_middle

end

/-- The array-based list refines the map of its capacity, nodes accounted for as long as
there is room. -/
theorem refines (size : ℕ) (exact : Prop) :
    GprListRefines gprInitSession gprDeinitSession gprGetSession (some size) exact
      (GprArrayList.Represents size exact) where
  accept := by
    intro list reg srcPort recycled write h hnew hroom
    unfold gprInitSession
    dsimp only
    rcases freeIndex_cases srcPort list.cbList 0 0xFFFF with ⟨-, hdup⟩ |
      ⟨-, ⟨-, hall⟩ | ⟨before, after, hsplit, hfree⟩⟩
    · exact absurd ((h.has_iff srcPort).mpr hdup) hnew
    · exact absurd (h.full_iff.mpr hall) hroom
    · rw [Nat.zero_add] at hfree
      have hlt : before.length < 0xFFFF := by
        have hlen := h.length
        have hbound := h.bound
        rw [hsplit] at hlen
        simp only [length_append, length_cons] at hlen
        omega
      rw [hfree]
      dsimp only
      rw [if_neg (Nat.ne_of_lt hlt)]
      refine ⟨rfl, h.bound, ?_, ?_, ?_, ?_⟩
      · simpa using h.length
      · have hset := set_none_slot before after ⟨srcPort, write recycled⟩
        rw [← hsplit] at hset
        exact hset.trans (h.perm.cons _)
      · rw [map_cons, nodup_cons]
        refine ⟨?_, h.nodup⟩
        intro hmem
        obtain ⟨n, hn, hport⟩ := mem_map.mp hmem
        exact hnew ⟨n, hn, hport⟩
      · intro hexact
        rw [length_cons, ← h.held hexact]
  refuse := by
    intro list reg srcPort recycled write h hcase
    unfold gprInitSession
    dsimp only
    rcases freeIndex_cases srcPort list.cbList 0 0xFFFF with ⟨hfree, hdup⟩ |
      ⟨hnew, ⟨hfree, hall⟩ | ⟨before, after, hsplit, -⟩⟩
    · rw [hfree]
      exact ⟨rfl, h.bound, h.length, h.perm, h.nodup, h.held⟩
    · -- the table is full: refused, but only a relation that ignores the nodes survives
      rw [hfree]
      refine ⟨rfl, h.bound, h.length, h.perm, h.nodup, ?_⟩
      intro hexact
      rcases hcase with hhas | ⟨hnot, -⟩
      · obtain ⟨n, hn, hport⟩ := (h.has_iff srcPort).mp hhas
        exact absurd hport (hnew n hn)
      · exact absurd hexact hnot
    · -- a free slot and a new port: neither reason to refuse applies
      rcases hcase with hhas | ⟨-, -, hfull⟩
      · obtain ⟨n, hn, hport⟩ := (h.has_iff srcPort).mp hhas
        exact absurd hport (hnew n hn)
      · have hlen := h.full_iff.mp hfull
        rw [reduceOption_length_eq_iff] at hlen
        have hnone := hlen none (by simp [hsplit])
        simp at hnone
  deinit := by
    intro list reg srcPort h
    unfold gprDeinitSession
    rcases findIdx?_holdsPort list.cbList srcPort with ⟨hidx, hall⟩ |
      ⟨before, x, after, hsplit, hport, hidx⟩
    · have hsame : reg.filter (fun n => n.myModulePort ≠ srcPort) = reg := by
        rw [filter_eq_self]
        intro n hn
        exact decide_eq_true (hall n (h.perm.mem_iff.mpr hn))
      rw [hidx, hsame]
      exact h
    · have hset := set_some_slot before after x
      rw [← hsplit] at hset
      have hnodup := (h.perm.map GprModuleNode.myModulePort).nodup_iff.mpr h.nodup
      have hrest := perm_filter_ne hset h.perm hnodup
      rw [hport] at hrest
      rw [hidx]
      refine ⟨h.bound, by simpa using h.length, hrest, ?_, ?_⟩
      · exact h.nodup.sublist (filter_sublist.map _)
      · intro hexact
        have hlen := hset.length_eq
        rw [length_cons, h.perm.length_eq] at hlen
        rw [← hrest.length_eq, h.held hexact, hlen]
        rfl
  get := by
    intro list reg port h
    have hnodup := (h.perm.map GprModuleNode.myModulePort).nodup_iff.mpr h.nodup
    unfold gprGetSession GprRegistry.get
    rw [find?_holdsPort, find?_perm h.perm hnodup port]
    congr 1
    cases reg.find? (fun n => n.myModulePort = port) with
    | none => rfl
    | some node => rfl

lemma represents_init (exact : Prop) (hsize : size ≤ 0xFFFF) :
    (GprArrayList.init size).Represents size exact [] where
  bound := hsize
  length := by simp [GprArrayList.init]
  perm := by simp [GprArrayList.init]
  nodup := nodup_nil
  held := fun _ => rfl

end GprArrayList

/-! ## Runs -/

variable {size : ℕ}

lemma GprRegistry.call_none_eq {reg : GprRegistry} {c : GprSessionCall}
    (h : reg.HasRoom (some size) c) : reg.call none c = reg.call (some size) c := by
  cases c with
  | register srcPort callbackFn callbackData recycled =>
    cases callbackFn with
    | none => rfl
    | some callbackFn =>
      have hnever : ¬ reg.Full none := by simp [GprRegistry.Full]
      simp only [GprRegistry.call]
      rcases h with hhas | hroom
      · rw [if_pos (Or.inl hhas), if_pos (Or.inl hhas)]
      · simp only [hnever, hroom]
  | deregister srcPort => rfl
  | getSession port => rfl

variable {calls : List GprSessionCall}

/-- A map that never holds more than `size` ports has room whenever a port is new. -/
lemma GprRegistry.hasRoom_of_along {reg : GprRegistry}
    (h : Along (after (GprRegistry.call none)) (fun reg => reg.length ≤ size) reg calls) :
    Meets (after (GprRegistry.call none)) (GprRegistry.HasRoom (some size)) reg calls := by
  induction calls generalizing reg with
  | nil => trivial
  | cons c calls ih =>
    refine ⟨?_, ih h.2⟩
    cases c with
    | register srcPort callbackFn callbackData recycled =>
      cases callbackFn with
      | none => trivial
      | some callbackFn =>
        by_cases hhas : reg.Has srcPort
        · exact Or.inl hhas
        · right
          rintro ⟨c, hc, hle⟩
          -- the new port would make the map too large
          obtain rfl : c = size := by simpa using hc.symm
          have hnext := (along_iff.mp h.2) [] nil_prefix
          simp [Library.after, GprRegistry.call, hhas, GprRegistry.Full] at hnext
          omega
    | deregister srcPort => trivial
    | getSession port => trivial

/-- The hash-based list is the finite map over one run: it gives the same answers and
holds exactly the nodes of the registered ports. -/
def GprHashRight (size : ℕ) (calls : List GprSessionCall) : Prop :=
  answers GprHashList.call (GprHashList.init size) calls =
      answers (GprRegistry.call none) [] calls ∧
    (run (after GprHashList.call) (GprHashList.init size) calls).held =
      (run (after (GprRegistry.call none)) [] calls).length

/-- The array-based list gives the answers of the map of its capacity. -/
def GprArrayAnswers (size : ℕ) (calls : List GprSessionCall) : Prop :=
  answers GprArrayList.call (GprArrayList.init size) calls =
    answers (GprRegistry.call (some size)) [] calls

/-- The array-based list holds exactly the nodes of the registered ports. -/
def GprArrayHeld (size : ℕ) (calls : List GprSessionCall) : Prop :=
  (run (after GprArrayList.call) (GprArrayList.init size) calls).held =
    (run (after (GprRegistry.call (some size))) [] calls).length

/-- While at most `size` ports are registered, both lists answer alike. -/
def GprListsAgree (size : ℕ) (calls : List GprSessionCall) : Prop :=
  Along (after (GprRegistry.call none)) (fun reg => reg.length ≤ size) [] calls →
    answers GprHashList.call (GprHashList.init size) calls =
      answers GprArrayList.call (GprArrayList.init size) calls

instance (size : ℕ) (calls : List GprSessionCall) : Decidable (GprHashRight size calls) :=
  inferInstanceAs (Decidable (_ ∧ _))

instance (size : ℕ) (calls : List GprSessionCall) : Decidable (GprArrayHeld size calls) :=
  inferInstanceAs (Decidable (_ = _))

lemma gprHashRight_of_cleanData (hsize : 2 ≤ size)
    (h : Meets (after (GprRegistry.call none)) (GprRegistry.CleanData none) [] calls) :
    GprHashRight size calls := by
  have hsim := @answers_simulate _ _ _ _ GprHashList.call (GprRegistry.call none)
    GprHashList.Represents (GprRegistry.CleanData none)
    (fun list reg c hR hclean => GprHashList.refines.call hR hclean fun _ => by
      cases c with
      | register srcPort callbackFn callbackData recycled =>
        cases callbackFn with
        | none => trivial
        | some callbackFn => exact Or.inr (by simp [GprRegistry.Full])
      | deregister srcPort => trivial
      | getSession port => trivial)
    _ _ calls (GprHashList.represents_init hsize) h
  exact ⟨hsim.1, hsim.2.held⟩

lemma gprArrayAnswers_of_cleanData (hbound : size ≤ 0xFFFF)
    (h : Meets (after (GprRegistry.call (some size))) (GprRegistry.CleanData (some size)) [] calls)
    : GprArrayAnswers size calls := by
  have hsim := @answers_simulate _ _ _ _ GprArrayList.call (GprRegistry.call (some size))
    (GprArrayList.Represents size False) (GprRegistry.CleanData (some size))
    (fun list reg c hR hclean => (GprArrayList.refines size False).call hR hclean False.elim)
    _ _ calls (GprArrayList.represents_init False hbound) h
  exact hsim.1

lemma gprArrayHeld_of_hasRoom (hbound : size ≤ 0xFFFF)
    (h : Meets (after (GprRegistry.call (some size))) (fun reg c => reg.CleanData (some size) c ∧
      reg.HasRoom (some size) c) [] calls)
    : GprArrayHeld size calls := by
  have hsim := @answers_simulate _ _ _ _ GprArrayList.call (GprRegistry.call (some size))
    (GprArrayList.Represents size True)
    (fun reg c => reg.CleanData (some size) c ∧ reg.HasRoom (some size) c)
    (fun list reg c hR hc => (GprArrayList.refines size True).call hR hc.1 fun _ => hc.2)
    _ _ calls (GprArrayList.represents_init True hbound) h
  exact hsim.2.held trivial

/-- A run with room for every new port goes the same way with and without capacity. -/
lemma GprRegistry.run_with_capacity {reg : GprRegistry}
    (hroom : Meets (after (GprRegistry.call none)) (GprRegistry.HasRoom (some size)) reg calls)
    (hclean : Meets (after (GprRegistry.call none)) (GprRegistry.CleanData none) reg calls) :
    answers (GprRegistry.call none) reg calls = answers (GprRegistry.call (some size)) reg calls ∧
      Meets (after (GprRegistry.call (some size))) (GprRegistry.CleanData (some size)) reg
        calls := by
  induction calls generalizing reg with
  | nil => exact ⟨rfl, trivial⟩
  | cons c calls ih =>
    have hcall := GprRegistry.call_none_eq hroom.1
    have hnext : after (GprRegistry.call none) reg c = after (GprRegistry.call (some size)) reg c :=
      congrArg Prod.snd hcall
    obtain ⟨hanswers, hmeets⟩ := ih hroom.2 hclean.2
    refine ⟨?_, ?_, ?_⟩
    · rw [answers, answers, ← hcall]
      exact congrArg _ hanswers
    · -- a clean call stays clean: it has one more reason to be refused
      have hc := hclean.1
      cases c with
      | register srcPort callbackFn callbackData recycled =>
        cases callbackFn with
        | none => trivial
        | some callbackFn =>
          rcases hc with hhas | hfull | hdata
          · exact Or.inl hhas
          · simp [GprRegistry.Full] at hfull
          · exact Or.inr (Or.inr hdata)
      | deregister srcPort => trivial
      | getSession port => trivial
    · rw [← hnext]
      exact hmeets

lemma gprListsAgree_of_cleanData (hsize : 2 ≤ size) (hbound : size ≤ 0xFFFF)
    (h : Meets (after (GprRegistry.call none)) (GprRegistry.CleanData none) [] calls) :
    GprListsAgree size calls := by
  intro halong
  obtain ⟨hanswers, hmeets⟩ :=
    GprRegistry.run_with_capacity (GprRegistry.hasRoom_of_along halong) h
  calc answers GprHashList.call (GprHashList.init size) calls
      = answers (GprRegistry.call none) [] calls := (gprHashRight_of_cleanData hsize h).1
    _ = answers (GprRegistry.call (some size)) [] calls := hanswers
    _ = answers GprArrayList.call (GprArrayList.init size) calls :=
        (gprArrayAnswers_of_cleanData hbound hmeets).symm

/-- **Both session lists are finite maps.** Over every run whose accepted registrations
pass data or get memory with a null data field: the hash-based list gives the answers of
the finite map and holds no other node; the array-based list gives the answers of the map
of its capacity, and holds no other node if no new port meets a full table; and while at
most `size` ports are registered, both give the same answers. -/
theorem gprSession_lists_refine_registry (size : ℕ) (hsize : 2 ≤ size) (hbound : size ≤ 0xFFFF)
    (calls : List GprSessionCall) :
    (Meets (after (GprRegistry.call none)) (GprRegistry.CleanData none) [] calls →
      GprHashRight size calls ∧ GprListsAgree size calls) ∧
    (Meets (after (GprRegistry.call (some size))) (GprRegistry.CleanData (some size)) [] calls →
      GprArrayAnswers size calls) ∧
    (Meets (after (GprRegistry.call (some size)))
        (fun reg c => reg.CleanData (some size) c ∧ reg.HasRoom (some size) c) [] calls →
      GprArrayHeld size calls) :=
  ⟨fun h => ⟨gprHashRight_of_cleanData hsize h, gprListsAgree_of_cleanData hsize hbound h⟩,
    gprArrayAnswers_of_cleanData hbound, gprArrayHeld_of_hasRoom hbound⟩

/-- The two-entry list of the second heap: a registration, a refused repetition, a second
port in the same chain, and a deregistration. -/
theorem gprSession_lists_refine_registry_heap1 : GprHashRight 2
        [.register 5 (some 1) (some 9) ⟨none, some 77⟩, .register 5 (some 2) none ⟨none, none⟩,
          .register 6 (some 3) none ⟨some 4, none⟩, .deregister 5, .getSession 6] ∧
      GprArrayHeld 2
        [.register 5 (some 1) (some 9) ⟨none, some 77⟩, .register 5 (some 2) none ⟨none, none⟩,
          .register 6 (some 3) none ⟨some 4, none⟩, .deregister 5, .getSession 6] := by
  have h := gprSession_lists_refine_registry 2 (by decide) (by decide)
    [.register 5 (some 1) (some 9) ⟨none, some 77⟩, .register 5 (some 2) none ⟨none, none⟩,
      .register 6 (some 3) none ⟨some 4, none⟩, .deregister 5, .getSession 6]
  exact ⟨(h.1 (by decide)).1, h.2.2 (by decide)⟩

/-- Null data leave the entry as the allocator returned it, so a lookup reports data that
nobody registered; and a full array keeps the node of a registration it refuses. -/
theorem gprSession_recycled_data_and_leak :
    (¬ ∀ size calls, 2 ≤ size → size ≤ 0xFFFF → GprHashRight size calls) ∧
      ¬ ∀ size calls, 2 ≤ size → size ≤ 0xFFFF → GprArrayHeld size calls := by
  constructor
  · intro h
    have hrun := h 2 [.register 5 (some 1) none ⟨none, some 77⟩, .getSession 5] (by decide)
      (by decide)
    revert hrun
    decide
  · intro h
    have hrun := h 2 [.register 5 (some 1) (some 9) ⟨none, none⟩,
      .register 6 (some 1) (some 9) ⟨none, none⟩, .register 7 (some 1) (some 9) ⟨none, none⟩]
      (by decide) (by decide)
    revert hrun
    decide

end AudioReach
