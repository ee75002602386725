import Mathlib.Data.List.Basic

/-!
# Runs of a step function

A component with a state `σ` and calls `α` is given by one function
`step : σ → α → σ`.  A run is the list of its calls.  This file names what is
said about runs: a property holds *along* a run when it holds of every state the
run passes through, and a run *meets* a condition when each of its calls meets
it in the state in which the call is made.

The rules at the end are the induction principles used for every statement about
"any sequence of calls": an invariant kept by the calls that meet a condition holds
along each run that meets it, and two components related call by call stay related.
-/

namespace AudioReach.Library

open List

variable {σ α : Type*} (step : σ → α → σ)

/-- The state after the calls `calls`, made from `s` in order. -/
def run (s : σ) (calls : List α) : σ :=
  calls.foldl step s

@[simp] lemma run_nil (s : σ) : run step s [] = s := rfl

@[simp] lemma run_cons (s : σ) (a : α) (calls : List α) :
    run step s (a :: calls) = run step (step s a) calls := rfl

lemma run_append (s : σ) (xs ys : List α) :
    run step s (xs ++ ys) = run step (run step s xs) ys := by
  exact foldl_append

/-- `P` holds of every state of the run, the first and the last included. -/
def Along (P : σ → Prop) : σ → List α → Prop
  | s, [] => P s
  | s, a :: calls => P s ∧ Along P (step s a) calls

/-- Every call of the run satisfies `C` in the state in which it is made. -/
def Meets (C : σ → α → Prop) : σ → List α → Prop
  | _, [] => True
  | s, a :: calls => C s a ∧ Meets C (step s a) calls

instance Along.decidable (P : σ → Prop) [DecidablePred P] :
    ∀ (s : σ) (calls : List α), Decidable (Along step P s calls)
  | s, [] => inferInstanceAs (Decidable (P s))
  | s, a :: calls =>
      have := Along.decidable P (step s a) calls
      inferInstanceAs (Decidable (P s ∧ Along step P (step s a) calls))

instance Meets.decidable (C : σ → α → Prop) [∀ s a, Decidable (C s a)] :
    ∀ (s : σ) (calls : List α), Decidable (Meets step C s calls)
  | _, [] => inferInstanceAs (Decidable True)
  | s, a :: calls =>
      have := Meets.decidable C (step s a) calls
      inferInstanceAs (Decidable (C s a ∧ Meets step C (step s a) calls))

variable {step}
variable {calls : List α} {s : σ} {P I : σ → Prop} {C D : σ → α → Prop}

/-- `P` holds along a run exactly when it holds after each prefix of it. -/
theorem along_iff : Along step P s calls ↔ ∀ xs, xs <+: calls → P (run step s xs) := by
  induction calls generalizing s with
  | nil =>
    constructor
    · intro h xs hxs
      rw [prefix_nil.mp hxs]
      exact h
    · intro h
      exact h [] (prefix_refl _)
  | cons a calls ih =>
    constructor
    · rintro ⟨hs, hrest⟩ xs hxs
      cases xs with
      | nil => exact hs
      | cons b xs =>
        obtain ⟨rfl, htail⟩ := cons_prefix_cons.mp hxs
        exact ih.mp hrest xs htail
    · intro h
      refine ⟨h [] nil_prefix, ih.mpr ?_⟩
      intro xs hxs
      exact h (a :: xs) (cons_prefix_cons.mpr ⟨rfl, hxs⟩)

/-- What holds along a run holds in its last state. -/
theorem Along.last (h : Along step P s calls) : P (run step s calls) :=
  along_iff.mp h calls (prefix_refl _)

/-- A weaker property holds along the same run. -/
theorem Along.mono {Q : σ → Prop} (hPQ : ∀ s, P s → Q s)
    (h : Along step P s calls) : Along step Q s calls :=
  along_iff.mpr fun xs hxs => hPQ _ (along_iff.mp h xs hxs)

/-- Every run meets a condition that every call meets in every state. -/
theorem meets_of_forall (h : ∀ s a, C s a) (s : σ) (calls : List α) : Meets step C s calls := by
  induction calls generalizing s with
  | nil => trivial
  | cons a calls ih => exact ⟨h s a, ih (step s a)⟩

/-- Two conditions that a run meets, it meets together. -/
theorem Meets.and (hC : Meets step C s calls)
    (hD : Meets step D s calls) : Meets step (fun s a => C s a ∧ D s a) s calls := by
  induction calls generalizing s with
  | nil => trivial
  | cons a calls ih => exact ⟨⟨hC.1, hD.1⟩, ih hC.2 hD.2⟩

/-- **Invariant rule.** If the calls that meet `C` keep `I`, then `I` holds along
every run from an `I`-state whose calls all meet `C`. -/
theorem along_of_meets (hstep : ∀ s a, I s → C s a → I (step s a))
    (hs : I s) (hcalls : Meets step C s calls) : Along step I s calls := by
  induction calls generalizing s with
  | nil => exact hs
  | cons a calls ih => exact ⟨hs, ih (hstep s a hs hcalls.1) hcalls.2⟩

/-- What each call guarantees in the states of a run, it guarantees along the run. -/
theorem meets_of_along (h : ∀ s a, I s → C s a → D s a)
    (hs : Along step I s calls) (hcalls : Meets step C s calls) : Meets step D s calls := by
  induction calls generalizing s with
  | nil => trivial
  | cons a calls ih => exact ⟨h s a hs.1 hcalls.1, ih hs.2 hcalls.2⟩

/-- **Exact rule.** Let `J` be kept by every call that meets `V`, and let such a call keep `P`
and guarantee `D` exactly when it meets `C`.  Then a run from a `J`-state with `P` whose calls
meet `V` meets `C` exactly when `P` holds along it and each of its calls guarantees `D`. -/
theorem meets_iff_along_of_meets {J : σ → Prop} {V : σ → α → Prop}
    (hJ : ∀ s a, J s → V s a → J (step s a))
    (hstep : ∀ s a, J s → P s → V s a → (C s a ↔ P (step s a) ∧ D s a))
    (hs : J s) (hP : P s) (hV : Meets step V s calls) :
    Meets step C s calls ↔ Along step P s calls ∧ Meets step D s calls := by
  induction calls generalizing s with
  | nil =>
    constructor
    · intro _
      exact ⟨hP, trivial⟩
    · intro _
      trivial
  | cons a calls ih =>
    obtain ⟨hVa, hVrest⟩ := hV
    constructor
    · rintro ⟨hC, hrest⟩
      obtain ⟨hnext, hD⟩ := (hstep s a hs hP hVa).mp hC
      obtain ⟨halong, hmeets⟩ := (ih (hJ s a hs hVa) hnext hVrest).mp hrest
      exact ⟨⟨hP, halong⟩, hD, hmeets⟩
    · rintro ⟨⟨_, halong⟩, hD, hmeets⟩
      have hnext : P (step s a) := along_iff.mp halong [] nil_prefix
      exact ⟨(hstep s a hs hP hVa).mpr ⟨hnext, hD⟩,
        (ih (hJ s a hs hVa) hnext hVrest).mpr ⟨halong, hmeets⟩⟩

/-- The exact rule for calls that are all admitted. -/
theorem meets_iff_along {J : σ → Prop} (hJ : ∀ s a, J s → J (step s a))
    (hstep : ∀ s a, J s → P s → (C s a ↔ P (step s a) ∧ D s a))
    (hs : J s) (hP : P s) (calls : List α) :
    Meets step C s calls ↔ Along step P s calls ∧ Meets step D s calls :=
  meets_iff_along_of_meets (fun s a h _ => hJ s a h)
    (fun s a h hp _ => hstep s a h hp) hs hP (meets_of_forall (fun _ _ => trivial) s calls)

/-- **Unconditional invariant rule.** An invariant kept by every call holds after
every run. -/
theorem run_induction (hstep : ∀ s a, I s → I (step s a))
    (hs : I s) (calls : List α) : I (run step s calls) := by
  induction calls generalizing s with
  | nil => exact hs
  | cons a calls ih => exact ih (hstep s a hs)

/-! ## Calls with answers -/

section Answers

variable {τ β : Type*}

/-- The answers of a component whose calls return something, in order. -/
def answers (call : σ → α → β × σ) : σ → List α → List β
  | _, [] => []
  | s, a :: calls => (call s a).1 :: answers call (call s a).2 calls

/-- The state after a call, its answer dropped. -/
def after (call : σ → α → β × σ) (s : σ) (a : α) : σ :=
  (call s a).2

/-- **Simulation rule with answers.** If related states give the same answer to each
call that meets `C` and stay related, the two components give the same answers to every
run that meets `C` and end related. -/
theorem answers_simulate {call : σ → α → β × σ} {call' : τ → α → β × τ} {R : σ → τ → Prop}
    {C : τ → α → Prop}
    (hcall : ∀ s t a, R s t → C t a → (call s a).1 = (call' t a).1 ∧ R (call s a).2 (call' t a).2)
    {s : σ} {t : τ} {calls : List α} (hs : R s t) (hcalls : Meets (after call') C t calls) :
    answers call s calls = answers call' t calls ∧
      R (run (after call) s calls) (run (after call') t calls) := by
  induction calls generalizing s t with
  | nil => exact ⟨rfl, hs⟩
  | cons a calls ih =>
    obtain ⟨hanswer, hnext⟩ := hcall s t a hs hcalls.1
    obtain ⟨hanswers, hlast⟩ := ih hnext hcalls.2
    refine ⟨?_, hlast⟩
    rw [answers, answers, hanswer, hanswers]

end Answers

end AudioReach.Library
