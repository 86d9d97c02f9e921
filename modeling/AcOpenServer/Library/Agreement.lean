import AcOpenServer.Library.Machine
import AcOpenServer.Library.Trace

namespace Library
set_option autoImplicit true

variable {ε ε' σ τ α β ι ω : Type} {R : σ → τ → Prop}

/-- From related states two actions both throw, or both return the same value in related states. -/
def Agrees (R : σ → τ → Prop) (m : EStateM ε σ α) (n : EStateM ε' τ α) : Prop :=
  ∀ s t, R s t →
    (∃ a s' t', m.run s = .ok a s' ∧ n.run t = .ok a t' ∧ R s' t') ∨
      ((∃ e s', m.run s = .error e s') ∧ ∃ e t', n.run t = .error e t')

theorem agrees_pure (a : α) : Agrees R (pure a : EStateM ε σ α) (pure a : EStateM ε' τ α) :=
  fun s t h => .inl ⟨a, s, t, rfl, rfl, h⟩

theorem agrees_throw (e : ε) (e' : ε') :
    Agrees R (throw e : EStateM ε σ α) (throw e' : EStateM ε' τ α) :=
  fun s t _ => .inr ⟨⟨e, s, rfl⟩, e', t, rfl⟩

theorem Agrees.bind {m : EStateM ε σ α} {n : EStateM ε' τ α} {f : α → EStateM ε σ β}
    {g : α → EStateM ε' τ β} (hm : Agrees R m n) (hf : ∀ a, Agrees R (f a) (g a)) :
    Agrees R (m >>= f) (n >>= g) := by
  intro s t h
  rcases hm s t h with ⟨a, s', t', hrun, hrun', h'⟩ | ⟨⟨e, s', hrun⟩, e', t', hrun'⟩
  · rw [run_bind_of_ok f hrun, run_bind_of_ok g hrun']
    exact hf a s' t' h'
  · exact .inr ⟨⟨e, s', run_bind_of_error f hrun⟩, e', t', run_bind_of_error g hrun'⟩

theorem Agrees.map {m : EStateM ε σ α} {n : EStateM ε' τ α} (hm : Agrees R m n) (f : α → β) :
    Agrees R (do return f (← m)) (do return f (← n)) := hm.bind fun a => agrees_pure (f a)

theorem agrees_get_bind {f : σ → EStateM ε σ α} {g : τ → EStateM ε' τ α}
    (h : ∀ s t, R s t → Agrees R (f s) (g t)) : Agrees R (get >>= f) (get >>= g) :=
  fun s t hst => h s t hst s t hst

/-- Collect what an action returns until it returns nothing, at most `fuel` times. -/
def collect (exhausted : ε) (body : EStateM ε σ (Option α)) : Nat → EStateM ε σ (List α)
  | 0 => throw exhausted
  | fuel + 1 => do
    match ← body with
    | none => return []
    | some a => return a :: (← collect exhausted body fuel)

/-- The limit is never reached when every round comes closer to an end. -/
theorem run_collect_of_lt {exhausted : ε} {body : EStateM ε σ (Option α)} {P : σ → Prop}
    {left : σ → Nat}
    (hbody : ∀ s a t, P s → body.run s = .ok (some a) t → P t ∧ left t < left s)
    (hs : P s) (h : left s < fuel) (h' : left s < limit) :
    (collect exhausted body fuel).run s = (collect exhausted body limit).run s := by
  induction fuel generalizing s limit with
  | zero => exact absurd h (Nat.not_lt_zero _)
  | succ fuel ih =>
    cases limit with
    | zero => exact absurd h' (Nat.not_lt_zero _)
    | succ limit =>
      rw [collect, collect]
      cases hrun : body.run s with
      | error e t => rw [run_bind_of_error _ hrun, run_bind_of_error _ hrun]
      | ok a t =>
        rw [run_bind_of_ok _ hrun, run_bind_of_ok _ hrun]
        cases a with
        | none => rfl
        | some a =>
          obtain ⟨ht, hless⟩ := hbody s a t hs hrun
          have hfuel : left t < fuel := by omega
          have hlimit : left t < limit := by omega
          dsimp only
          rw [EStateM.run_bind, EStateM.run_bind, ih ht hfuel hlimit]

theorem agrees_collect {exhausted : ε} {exhausted' : ε'} {body : EStateM ε σ (Option α)}
    {body' : EStateM ε' τ (Option α)} (h : Agrees R body body') (fuel : Nat) :
    Agrees R (collect exhausted body fuel) (collect exhausted' body' fuel) := by
  induction fuel with
  | zero => exact agrees_throw exhausted exhausted'
  | succ fuel ih =>
    apply h.bind
    intro a
    cases a with
    | none => exact agrees_pure []
    | some a => exact ih.map (a :: ·)

/-- What is seen of the calls of a program one after another, until one throws: each value and
the state after it. -/
def outcomes (run : ι → EStateM ε σ α) (see : σ → ω) : List ι → σ → List (Option (α × ω))
  | [], _ => []
  | i :: is, s =>
    match (run i).run s with
    | .ok a t => some (a, see t) :: outcomes run see is t
    | .error _ _ => [none]

theorem outcomes_eq {run : ι → EStateM ε σ α} {run' : ι → EStateM ε' τ α} {see : σ → ω}
    {see' : τ → ω} {is : List ι} (hruns : ∀ i ∈ is, Agrees R (run i) (run' i))
    (hsee : ∀ s t, R s t → see s = see' t) (h : R s t) :
    outcomes run see is s = outcomes run' see' is t := by
  induction is generalizing s t with
  | nil => rfl
  | cons i is ih =>
    obtain ⟨hi, his⟩ := List.forall_mem_cons.1 hruns
    rw [outcomes, outcomes]
    rcases hi s t h with ⟨a, s', t', hrun, hrun', h'⟩ | ⟨⟨e, s', hrun⟩, e', t', hrun'⟩
    · rw [hrun, hrun']
      dsimp only
      rw [hsee s' t' h', ih his h']
    · rw [hrun, hrun']

/-- Programs that both return and look the same under a condition on the second one cannot be
told apart as long as it is met. -/
theorem outcomes_eq_of_guarded {run : ι → EStateM ε σ α} {run' : ι → EStateM ε' τ α}
    {see : σ → ω} {see' : τ → ω} {guard : ι → τ → Prop} {is : List ι}
    (hruns : ∀ i s t, R s t → guard i t →
      ∃ a s' t', (run i).run s = .ok a s' ∧ (run' i).run t = .ok a t' ∧ R s' t')
    (hsee : ∀ s t, R s t → see s = see' t) (h : R s t)
    (hguard : AllSteps (fun i => stateAfter (run' i)) guard is t) :
    outcomes run see is s = outcomes run' see' is t ∧ none ∉ outcomes run see is s := by
  induction is generalizing s t with
  | nil => exact ⟨rfl, List.not_mem_nil⟩
  | cons i is ih =>
    obtain ⟨hi, his⟩ := hguard
    obtain ⟨a, s', t', hrun, hrun', h'⟩ := hruns i s t h hi
    replace his : AllSteps (fun i => stateAfter (run' i)) guard is (stateAfter (run' i) t) := his
    rw [stateAfter_of_ok hrun'] at his
    obtain ⟨heq, hnone⟩ := ih h' his
    rw [outcomes, outcomes, hrun, hrun']
    dsimp only
    rw [hsee s' t' h', heq]
    refine ⟨rfl, ?_⟩
    rw [← heq]
    exact List.not_mem_cons_of_ne_of_not_mem (Option.some_ne_none _).symm hnone

end Library
