import Mathlib.Data.List.Basic

/-!
# Programs with a state and a failure exit

`EStateM ε σ α` is the type of programs that read and write a state `σ` and either
return an `α` or stop with an error `ε`; a stopped program keeps the state it had
reached.  `Triple P x Q E` is the usual judgment about such a program: started in `P`
it ends in `Q` when it returns and in `E` when it stops.

The rules follow the ways programs are put together: return, sequence, branch, stop,
update of the state, and a loop over a list.  `Keeps I` is the special case of an invariant
that holds before and after, whatever the exit, and `Leaves f` says that the program does
not change the part `f` of the state, so that it keeps every invariant of that part.
-/

namespace AudioReach.Library

open List

variable {ε σ α β τ : Type}

/-- Started in `P`, the program ends in `Q` when it returns and in `E` when it stops. -/
def Triple (P : σ → Prop) (x : EStateM ε σ α) (Q : α → σ → Prop) (E : σ → Prop) : Prop :=
  ∀ s, P s → match x s with
    | .ok a t => Q a t
    | .error _ t => E t

/-- The program keeps `I`, whether it returns or stops. -/
def Keeps (I : σ → Prop) (x : EStateM ε σ α) : Prop :=
  Triple I x (fun _ => I) I

/-- The state in which a program ends. -/
def endState (x : EStateM ε σ α) (s : σ) : σ :=
  match x s with
  | .ok _ t => t
  | .error _ t => t

/-- Does the program return? -/
def succeeds (x : EStateM ε σ α) (s : σ) : Bool :=
  match x s with
  | .ok _ _ => true
  | .error _ _ => false

theorem eq_ok_of_succeeds {x : EStateM ε σ Unit} {s : σ} (h : succeeds x s = true) :
    x s = .ok () (endState x s) := by
  unfold succeeds at h
  unfold endState
  cases hx : x s with
  | ok a t => rfl
  | error e t =>
    rw [hx] at h
    cases h

/-- The program does not change the part `f` of the state. -/
def Leaves (f : σ → τ) (x : EStateM ε σ α) : Prop :=
  ∀ s, f (endState x s) = f s

/-- Run the program and, if it stops, clean up the state before the error goes on. -/
def onError (x : EStateM ε σ α) (f : σ → σ) : EStateM ε σ α := fun s =>
  match x s with
  | .ok a t => .ok a t
  | .error e t => .error e (f t)

namespace Triple

variable {P P' : σ → Prop} {Q Q' : α → σ → Prop} {E E' : σ → Prop} {R : β → σ → Prop}
variable {x : EStateM ε σ α}

section

variable (h : Triple P x Q E)
include h

/-- Strengthen the precondition, weaken the postconditions. -/
theorem conseq (hP : ∀ s, P' s → P s) (hQ : ∀ a s, Q a s → Q' a s) (hE : ∀ s, E s → E' s) :
    Triple P' x Q' E' := by
  intro s hs
  have := h s (hP s hs)
  cases hx : x s with
  | ok a t =>
    rw [hx] at this
    exact hQ a t this
  | error e t =>
    rw [hx] at this
    exact hE t this

theorem pre (hP : ∀ s, P' s → P s) : Triple P' x Q E :=
  h.conseq hP (fun _ _ h => h) fun _ h => h

theorem post (hQ : ∀ a s, Q a s → Q' a s) (hE : ∀ s, E s → E' s) : Triple P x Q' E' :=
  h.conseq (fun _ h => h) hQ hE

theorem exits (hE : ∀ s, E s → E' s) : Triple P x Q E' :=
  h.post (fun _ _ h => h) hE

end

/-- A judgment may be shown for each state of the precondition by itself. -/
theorem at_state (h : ∀ s, P s → Triple (fun t => t = s) x Q E) : Triple P x Q E :=
  fun s hs => h s hs s rfl

theorem pure {a : α} (h : ∀ s, P s → Q a s) : Triple P (pure a : EStateM ε σ α) Q E :=
  fun s hs => h s hs

theorem throw {e : ε} (h : ∀ s, P s → E s) : Triple P (throw e : EStateM ε σ α) Q E :=
  fun s hs => h s hs

theorem bind {f : α → EStateM ε σ β} (hx : Triple P x Q E)
    (hf : ∀ a, Triple (Q a) (f a) R E) : Triple P (x >>= f) R E := by
  intro s hs
  have h := hx s hs
  change match EStateM.bind x f s with
    | .ok a t => R a t
    | .error _ t => E t
  unfold EStateM.bind
  cases hxs : x s with
  | ok a t =>
    rw [hxs] at h
    exact hf a t h
  | error e t =>
    rw [hxs] at h
    exact h

/-- Reading the state: the rest may use what the precondition says of it. -/
theorem get_bind {f : σ → EStateM ε σ β}
    (h : ∀ s, P s → Triple (fun t => t = s ∧ P t) (f s) R E) : Triple P (get >>= f) R E := by
  intro s hs
  exact h s hs s ⟨rfl, hs⟩

theorem modify {f : σ → σ} {Q : PUnit → σ → Prop} (h : ∀ s, P s → Q ⟨⟩ (f s)) :
    Triple P (modify f : EStateM ε σ PUnit) Q E :=
  fun s hs => h s hs

theorem ite {c : Prop} [Decidable c] {y : EStateM ε σ α} (hx : c → Triple P x Q E)
    (hy : ¬ c → Triple P y Q E) : Triple P (if c then x else y) Q E := by
  split
  · exact hx ‹_›
  · exact hy ‹_›

/-- Two judgments about one program. -/
theorem and (h : Triple P x Q E) (h' : Triple P' x Q' E') :
    Triple (fun s => P s ∧ P' s) x (fun a s => Q a s ∧ Q' a s) (fun s => E s ∧ E' s) := by
  intro s hs
  have h := h s hs.1
  have h' := h' s hs.2
  cases hx : x s with
  | ok a t =>
    rw [hx] at h h'
    exact ⟨h, h'⟩
  | error e t =>
    rw [hx] at h h'
    exact ⟨h, h'⟩

/-- **Loop rule.** A loop over a list, with an invariant that knows what is left of the list. -/
theorem forM_rest {I : List β → σ → Prop} {f : β → EStateM ε σ PUnit} {l : List β}
    (h : ∀ b l, Triple (I (b :: l)) (f b) (fun _ => I l) E) :
    Triple (I l) (l.forM f) (fun _ => I []) E := by
  induction l with
  | nil => exact Triple.pure fun _ hs => hs
  | cons b l ih => exact Triple.bind (h b l) fun _ => ih

/-- A loop keeps what each of its rounds keeps as long as it does not stop. -/
theorem forM {l : List β} {f : β → EStateM ε σ PUnit}
    (h : ∀ b ∈ l, Triple P (f b) (fun _ => P) E) : Triple P (l.forM f) (fun _ => P) E := by
  induction l with
  | nil => exact Triple.pure fun _ hs => hs
  | cons b l ih =>
    refine Triple.bind (h b mem_cons_self) fun _ => ih ?_
    intro c hc
    exact h c (mem_cons_of_mem b hc)

/-- The same for a loop that collects results. -/
theorem mapM {l : List β} {f : β → EStateM ε σ α}
    (h : ∀ b ∈ l, Triple P (f b) (fun _ => P) E) : Triple P (l.mapM f) (fun _ => P) E := by
  induction l with
  | nil =>
    exact Triple.pure fun _ hs => hs
  | cons b l ih =>
    rw [mapM_cons]
    refine Triple.bind (h b mem_cons_self) fun _ => Triple.bind (ih ?_) fun _ =>
      Triple.pure fun _ hs => hs
    intro c hc
    exact h c (mem_cons_of_mem b hc)

/-- **Loop rule with a result.** A loop that carries a result along, with an invariant that knows
what is left of the list. -/
theorem foldlM_rest {I : List β → α → σ → Prop} {f : α → β → EStateM ε σ α}
    (h : ∀ a b l, Triple (I (b :: l) a) (f a b) (I l) E) (l : List β) (a : α) :
    Triple (I l a) (l.foldlM f a) (I []) E := by
  induction l generalizing a with
  | nil => exact Triple.pure fun _ hs => hs
  | cons b l ih =>
    exact Triple.bind (h a b l) ih

/-- A clean-up works on the state in which the program has stopped. -/
theorem onError {f : σ → σ} (hx : Triple P x Q E) (hf : ∀ s, E s → E' (f s)) :
    Triple P (onError x f) Q E' := by
  intro s hs
  have := hx s hs
  unfold Library.onError
  cases hxs : x s with
  | ok a t =>
    rw [hxs] at this
    exact this
  | error e t =>
    rw [hxs] at this
    exact hf t this

/-- The state in which a program ends satisfies one of the postconditions. -/
theorem endState (h : Triple P x (fun _ => E) E) {s : σ} (hs : P s) : E (endState x s) := by
  have := h s hs
  unfold Library.endState
  cases hx : x s with
  | ok a t =>
    rw [hx] at this
    exact this
  | error e t =>
    rw [hx] at this
    exact this

end Triple

namespace Keeps

variable {I : σ → Prop}

theorem bind {x : EStateM ε σ α} {f : α → EStateM ε σ β} (hx : Keeps I x)
    (hf : ∀ a, Keeps I (f a)) : Keeps I (x >>= f) :=
  Triple.bind hx hf

theorem pure (a : α) : Keeps I (pure a : EStateM ε σ α) :=
  Triple.pure fun _ h => h

theorem throw (e : ε) : Keeps I (throw e : EStateM ε σ α) :=
  Triple.throw fun _ h => h

theorem modify {f : σ → σ} (h : ∀ s, I s → I (f s)) : Keeps I (modify f : EStateM ε σ PUnit) :=
  Triple.modify h

theorem get : Keeps I (get : EStateM ε σ σ) :=
  fun _ h => h

theorem ite {c : Prop} [Decidable c] {x y : EStateM ε σ α} (hx : Keeps I x) (hy : Keeps I y) :
    Keeps I (if c then x else y) :=
  Triple.ite (fun _ => hx) (fun _ => hy)

theorem forM {l : List β} {f : β → EStateM ε σ PUnit} (h : ∀ b ∈ l, Keeps I (f b)) :
    Keeps I (l.forM f) :=
  Triple.forM h

/-- What is kept holds where the program ends. -/
theorem endState {x : EStateM ε σ α} (h : Keeps I x) {s : σ} (hs : I s) : I (endState x s) :=
  Triple.endState h hs

end Keeps

namespace Leaves

variable {f : σ → τ}
variable {x : EStateM ε σ α}

/-- What is left alone keeps every invariant. -/
theorem keeps (h : Leaves f x) (P : τ → Prop) : Keeps (fun s => P (f s)) x := by
  intro s hs
  have := h s
  unfold endState at this
  cases hx : x s with
  | ok a t =>
    rw [hx] at this
    change P (f t)
    rw [show f t = f s from this]
    exact hs
  | error e t =>
    rw [hx] at this
    change P (f t)
    rw [show f t = f s from this]
    exact hs

/-- A program that keeps each value of a part of the state leaves it alone. -/
theorem of_keeps (h : ∀ t, Keeps (fun s => f s = t) x) : Leaves f x :=
  fun s => (h (f s)).endState rfl

/-- A smaller part of the state is left alone as well. -/
theorem comp {υ : Type} (h : Leaves f x) (g : τ → υ) : Leaves (fun s => g (f s)) x :=
  fun s => congrArg g (h s)

theorem pure (a : α) : Leaves f (pure a : EStateM ε σ α) := fun _ => rfl

theorem throw (e : ε) : Leaves f (throw e : EStateM ε σ α) := fun _ => rfl

theorem modify {g : σ → σ} (h : ∀ s, f (g s) = f s) : Leaves f (modify g : EStateM ε σ PUnit) := h

theorem bind {g : α → EStateM ε σ β} (hx : Leaves f x)
    (hg : ∀ a, Leaves f (g a)) : Leaves f (x >>= g) := by
  intro s
  have h := hx s
  change f (endState (EStateM.bind x g) s) = f s
  unfold endState EStateM.bind
  unfold endState at h
  cases hxs : x s with
  | ok a t =>
    rw [hxs] at h
    exact (hg a t).trans h
  | error e t =>
    rw [hxs] at h
    exact h

/-- Reading the state. -/
theorem get_bind {g : σ → EStateM ε σ β} (h : ∀ s, Leaves f (g s)) : Leaves f (get >>= g) :=
  fun s => h s s

theorem ite {c : Prop} [Decidable c] {y : EStateM ε σ α} (hx : Leaves f x) (hy : Leaves f y) :
    Leaves f (if c then x else y) := by
  split
  · exact hx
  · exact hy

theorem forM {l : List β} {g : β → EStateM ε σ PUnit} (h : ∀ b, Leaves f (g b)) :
    Leaves f (l.forM g) := by
  induction l with
  | nil => exact Leaves.pure _
  | cons b l ih => exact Leaves.bind (h b) fun _ => ih

theorem mapM {l : List β} {g : β → EStateM ε σ α} (h : ∀ b, Leaves f (g b)) :
    Leaves f (l.mapM g) := by
  induction l with
  | nil =>
    exact Leaves.pure _
  | cons b l ih =>
    rw [mapM_cons]
    exact Leaves.bind (h b) fun _ => Leaves.bind ih fun _ => Leaves.pure _

theorem foldlM {l : List β} {g : α → β → EStateM ε σ α} (h : ∀ a b, Leaves f (g a b)) (a : α) :
    Leaves f (l.foldlM g a) := by
  induction l generalizing a with
  | nil => exact Leaves.pure _
  | cons b l ih =>
    exact Leaves.bind (h a b) ih

theorem onError {g : σ → σ} (hx : Leaves f x) (hg : ∀ s, f (g s) = f s) :
    Leaves f (onError x g) := by
  intro s
  have h := hx s
  unfold endState at h ⊢
  simp only [Library.onError]
  cases hxs : x s with
  | ok a t =>
    rw [hxs] at h
    exact h
  | error e t =>
    rw [hxs] at h
    exact (hg t).trans h

end Leaves

end AudioReach.Library
