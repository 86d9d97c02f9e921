import Mathlib

namespace Library
set_option autoImplicit true

variable {σ α : Type} {step : α → σ → σ → Prop} {as : List α}

/-- A system goes from one state to another by these actions, one after another. -/
inductive Trace (step : α → σ → σ → Prop) : σ → List α → σ → Prop
  | nil : Trace step s [] s
  | cons : step a s t → Trace step t actions u → Trace step s (a :: actions) u

theorem Trace.invariant {P : σ → Prop} (h : Trace step s as t)
    (hstep : ∀ a s t, P s → step a s t → P t) (hs : P s) : P t := by
  induction h with
  | nil => exact hs
  | cons ha _ ih => exact ih (hstep _ _ _ hs ha)

/-- The steps of an executable system. -/
def StepOf (next : α → σ → Option σ) (a : α) (s t : σ) : Prop := next a s = some t

/-- Those of its steps that are taken under a condition on the action and the state. -/
def GuardedStepOf (next : α → σ → Option σ) (guard : α → σ → Prop) (a : α) (s t : σ) : Prop :=
  guard a s ∧ next a s = some t

/-- The state after these actions, if each of them can be taken. -/
def runActions (next : α → σ → Option σ) : List α → σ → Option σ
  | [], s => some s
  | a :: as, s => (next a s).bind (runActions next as)

theorem trace_of_runActions {next : α → σ → Option σ} (h : runActions next as s = some t) :
    Trace (StepOf next) s as t := by
  induction as generalizing s with
  | nil =>
    cases h
    exact .nil
  | cons a as ih =>
    obtain ⟨u, hu, hrest⟩ := Option.bind_eq_some_iff.1 h
    exact .cons hu (ih hrest)

/-- The state after these actions, if each of them can be taken under a condition. -/
def runGuarded (next : α → σ → Option σ) (cond : α → σ → Bool) : List α → σ → Option σ
  | [], s => some s
  | a :: as, s => if cond a s then (next a s).bind (runGuarded next cond as) else none

theorem trace_of_runGuarded {next : α → σ → Option σ} {cond : α → σ → Bool}
    {guard : α → σ → Prop} (hcond : ∀ a s, cond a s = true → guard a s)
    (h : runGuarded next cond as s = some t) : Trace (GuardedStepOf next guard) s as t := by
  induction as generalizing s with
  | nil =>
    cases h
    exact .nil
  | cons a as ih =>
    rw [runGuarded] at h
    split at h
    · rename_i ha
      obtain ⟨u, hu, hrest⟩ := Option.bind_eq_some_iff.1 h
      exact .cons ⟨hcond a s ha, hu⟩ (ih hrest)
    · cases h

/-- A run of a total system every step of which is as a relation says. -/
def AllSteps (next : α → σ → σ) (Q : α → σ → Prop) : List α → σ → Prop
  | [], _ => True
  | a :: as, s => Q a s ∧ AllSteps next Q as (next a s)

instance AllSteps.decidable (next : α → σ → σ) (Q : α → σ → Prop) [∀ a s, Decidable (Q a s)] :
    ∀ as s, Decidable (AllSteps next Q as s)
  | [], _ => isTrue trivial
  | a :: as, s =>
    have := AllSteps.decidable next Q as (next a s)
    inferInstanceAs (Decidable (Q a s ∧ AllSteps next Q as (next a s)))

/-- The state a total system is in after these actions. -/
def runTotal (next : α → σ → σ) (as : List α) (s : σ) : σ := as.foldl (fun s a => next a s) s

variable {next : α → σ → σ} {P : σ → Prop} {Q guard : α → σ → Prop}

/-- When each good step keeps an invariant under which it is good exactly if a condition on
the state before it holds, all steps of a run are good exactly if they meet the condition. -/
theorem allSteps_iff (hiff : ∀ a s, P s → (Q a s ↔ guard a s))
    (hkeeps : ∀ a s, P s → Q a s → P (next a s)) (hs : P s) :
    AllSteps next Q as s ↔ AllSteps next guard as s := by
  induction as generalizing s with
  | nil => rfl
  | cons a as ih =>
    rw [AllSteps, AllSteps, hiff a s hs]
    apply and_congr_right
    intro ha
    exact ih (hkeeps a s hs ((hiff a s hs).2 ha))

theorem runTotal_invariant (hkeeps : ∀ a s, P s → P (next a s)) (hs : P s) :
    P (runTotal next as s) := by
  induction as generalizing s with
  | nil => exact hs
  | cons a as ih => exact ih (hkeeps a s hs)

end Library
