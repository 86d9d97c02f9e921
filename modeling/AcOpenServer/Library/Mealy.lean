import Mathlib

namespace Library
set_option autoImplicit true

variable {σ τ α β : Type}

/-- The answers of a machine to these inputs, and the state it ends in. -/
def runMealy (next : σ → α → β × σ) : σ → List α → List β × σ
  | s, [] => ([], s)
  | s, a :: as =>
    let (b, t) := next s a
    let (bs, u) := runMealy next t as
    (b :: bs, u)

@[simp] theorem runMealy_nil (next : σ → α → β × σ) (s : σ) : runMealy next s [] = ([], s) := rfl

theorem runMealy_cons (next : σ → α → β × σ) (s : σ) (a : α) (as : List α) :
    runMealy next s (a :: as) = ((next s a).1 :: (runMealy next (next s a).2 as).1,
      (runMealy next (next s a).2 as).2) := rfl

theorem runMealy_append (next : σ → α → β × σ) (s : σ) (as bs : List α) :
    runMealy next s (as ++ bs) =
      ((runMealy next s as).1 ++ (runMealy next (runMealy next s as).2 bs).1,
        (runMealy next (runMealy next s as).2 bs).2) := by
  induction as generalizing s with
  | nil => rfl
  | cons a as ih => rw [List.cons_append, runMealy_cons, ih, runMealy_cons, List.cons_append]

/-- Each input of a run meets a condition on the state it comes in. -/
def AllMeet (next : σ → α → β × σ) (guard : σ → α → Prop) : σ → List α → Prop
  | _, [] => True
  | s, a :: as => guard s a ∧ AllMeet next guard (next s a).2 as

instance (next : σ → α → β × σ) (guard : σ → α → Prop) [∀ s a, Decidable (guard s a)] (s : σ) :
    (as : List α) → Decidable (AllMeet next guard s as)
  | [] => .isTrue trivial
  | a :: as =>
    have := instDecidableAllMeet next guard (next s a).2 as
    inferInstanceAs (Decidable (guard s a ∧ AllMeet next guard (next s a).2 as))

theorem allMeet_append {next : σ → α → β × σ} {guard : σ → α → Prop} {as bs : List α} :
    AllMeet next guard s (as ++ bs) ↔
      AllMeet next guard s as ∧ AllMeet next guard (runMealy next s as).2 bs := by
  induction as generalizing s with
  | nil => exact (and_iff_right trivial).symm
  | cons a as ih =>
    rw [List.cons_append, AllMeet, AllMeet, ih, and_assoc]
    rfl

variable {next : σ → α → β × σ} {next' : τ → α → β × τ} {guard : τ → α → Prop}
  {R : τ → σ → Prop}

variable (next) in
/-- A machine that answers as an abstract one does wherever an input meets the condition, and
keeps standing for it, answers every such run as the abstract one does. -/
theorem runMealy_refines
    (hstep : ∀ a s t, R t s → guard t a →
      (next s a).1 = (next' t a).1 ∧ R (next' t a).2 (next s a).2)
    (h : R t s) {as : List α} (hmeet : AllMeet next' guard t as) :
    (runMealy next s as).1 = (runMealy next' t as).1 ∧
      R (runMealy next' t as).2 (runMealy next s as).2 := by
  induction as generalizing s t with
  | nil => exact ⟨rfl, h⟩
  | cons a as ih =>
    obtain ⟨hanswer, hnext⟩ := hstep a s t h hmeet.1
    obtain ⟨hanswers, hlast⟩ := ih hnext hmeet.2
    refine ⟨?_, hlast⟩
    show (next s a).1 :: _ = (next' t a).1 :: _
    rw [hanswer, hanswers]

end Library
