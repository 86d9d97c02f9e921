import Mathlib

namespace Library
set_option autoImplicit true

/-- A computation that leaves a trace of events and ends in a value or an exception.
Events that came before an exception stay in the trace. -/
structure Traced (τ ε α : Type) where
  result : Except ε α
  events : List τ

namespace Traced

variable {τ ε α β : Type}

def bind (m : Traced τ ε α) (f : α → Traced τ ε β) : Traced τ ε β :=
  match m.result with
  | .ok a => ⟨(f a).result, m.events ++ (f a).events⟩
  | .error e => ⟨.error e, m.events⟩

def tryCatch (m : Traced τ ε α) (f : ε → Traced τ ε α) : Traced τ ε α :=
  match m.result with
  | .ok _ => m
  | .error e => ⟨(f e).result, m.events ++ (f e).events⟩

instance : Monad (Traced τ ε) where
  pure a := ⟨.ok a, []⟩
  bind := bind

instance : MonadExceptOf ε (Traced τ ε) where
  throw e := ⟨.error e, []⟩
  tryCatch := tryCatch

/-- Record one event. -/
def emit (t : τ) : Traced τ ε Unit := ⟨.ok (), [t]⟩

@[simp] theorem result_pure (a : α) : (pure a : Traced τ ε α).result = .ok a := rfl

@[simp] theorem events_pure (a : α) : (pure a : Traced τ ε α).events = [] := rfl

@[simp] theorem result_throw (e : ε) : (throw e : Traced τ ε α).result = .error e := rfl

@[simp] theorem events_throw (e : ε) : (throw e : Traced τ ε α).events = [] := rfl

theorem bind_of_ok {a : α} {m : Traced τ ε α} (f : α → Traced τ ε β)
    (h : m.result = .ok a) :
    m >>= f = ⟨(f a).result, m.events ++ (f a).events⟩ := by
  change bind m f = _
  rw [bind, h]

theorem bind_of_error {m : Traced τ ε α} (f : α → Traced τ ε β) (h : m.result = .error e) :
    m >>= f = ⟨.error e, m.events⟩ := by
  change bind m f = _
  rw [bind, h]

theorem result_bind_of_ok {a : α} {m : Traced τ ε α} (f : α → Traced τ ε β)
    (h : m.result = .ok a) :
    (m >>= f).result = (f a).result := by
  rw [bind_of_ok f h]

theorem result_bind_of_error {m : Traced τ ε α} (f : α → Traced τ ε β)
    (h : m.result = .error e) : (m >>= f).result = .error e := by
  rw [bind_of_error f h]

@[simp] theorem pure_bind (a : α) (f : α → Traced τ ε β) : pure a >>= f = f a := by
  rw [bind_of_ok f (result_pure a)]
  rfl

@[simp] theorem throw_bind (e : ε) (f : α → Traced τ ε β) :
    (throw e : Traced τ ε α) >>= f = throw e := by
  rw [bind_of_error f (result_throw e)]
  rfl

theorem bind_assoc {γ : Type} (m : Traced τ ε α) (f : α → Traced τ ε β)
    (g : β → Traced τ ε γ) : m >>= f >>= g = m >>= fun a => f a >>= g := by
  cases h : m.result with
  | ok a =>
    rw [bind_of_ok f h, bind_of_ok _ h]
    cases h' : (f a).result with
    | ok b => rw [bind_of_ok g rfl, bind_of_ok g h', List.append_assoc]
    | error e => rw [bind_of_error g rfl, bind_of_error g h']
  | error e => rw [bind_of_error f h, bind_of_error _ h, bind_of_error g rfl]

theorem bind_pure (m : Traced τ ε α) : (m >>= fun a => pure a) = m := by
  cases h : m.result with
  | ok a =>
    rw [bind_of_ok _ h, result_pure, events_pure, List.append_nil, ← h]
  | error e => rw [bind_of_error _ h, ← h]

instance : LawfulMonad (Traced τ ε) := LawfulMonad.mk' _ bind_pure pure_bind bind_assoc

/-- A sequence of computations returns exactly when both of its parts do. -/
theorem result_bind_eq_ok {m : Traced τ ε α} {f : α → Traced τ ε β} :
    (m >>= f).result = .ok b ↔ ∃ a, m.result = .ok a ∧ (f a).result = .ok b := by
  cases hm : m.result with
  | ok a =>
    rw [result_bind_of_ok f hm]
    constructor
    · intro h
      exact ⟨a, rfl, h⟩
    · rintro ⟨a', ha, h⟩
      cases ha
      exact h
  | error e =>
    rw [result_bind_of_error f hm]
    constructor
    · intro h
      cases h
    · rintro ⟨a, ha, _⟩
      cases ha

theorem mem_events_bind {m : Traced τ ε α} {f : α → Traced τ ε β} (h : t ∈ m.events) :
    t ∈ (m >>= f).events := by
  cases hm : m.result with
  | ok a =>
    rw [bind_of_ok f hm]
    exact List.mem_append_left _ h
  | error e =>
    rw [bind_of_error f hm]
    exact h

/-- Every event is permitted and an exception, if there is one, is an expected one. -/
def Confined (P : τ → Prop) (A : ε → Prop) (m : Traced τ ε α) : Prop :=
  (∀ t ∈ m.events, P t) ∧ ∀ e, m.result = .error e → A e

variable {P : τ → Prop} {A : ε → Prop}

theorem confined_pure (a : α) : Confined P A (pure a : Traced τ ε α) := by
  refine ⟨?_, ?_⟩
  · intro t ht
    cases ht
  · intro e he
    cases he

theorem confined_throw {e : ε} : Confined P A (throw e : Traced τ ε α) ↔ A e := by
  constructor
  · intro h
    exact h.2 e rfl
  · intro h
    refine ⟨?_, ?_⟩
    · intro t ht
      cases ht
    · intro e' he
      cases he
      exact h

/-- Confinement of a sequence is confinement of its first part and of the part that is
reached. -/
theorem confined_bind {m : Traced τ ε α} {f : α → Traced τ ε β} :
    Confined P A (m >>= f) ↔
      Confined P A m ∧ ∀ a, m.result = .ok a → Confined P A (f a) := by
  cases hm : m.result with
  | ok a =>
    rw [Confined, bind_of_ok f hm]
    constructor
    · rintro ⟨hev, herr⟩
      refine ⟨⟨?_, ?_⟩, ?_⟩
      · intro t ht
        exact hev t (List.mem_append_left _ ht)
      · intro e he
        cases hm.symm.trans he
      · intro a' ha
        cases ha
        exact ⟨fun t ht => hev t (List.mem_append_right _ ht), herr⟩
    · rintro ⟨hm', hf⟩
      obtain ⟨hev, herr⟩ := hf a rfl
      refine ⟨?_, herr⟩
      intro t ht
      rcases List.mem_append.1 ht with ht | ht
      · exact hm'.1 t ht
      · exact hev t ht
  | error e =>
    rw [Confined, bind_of_error f hm]
    constructor
    · rintro ⟨hev, herr⟩
      refine ⟨⟨hev, ?_⟩, ?_⟩
      · intro e' he
        cases hm.symm.trans he
        exact herr e rfl
      · intro a ha
        cases ha
    · rintro ⟨hm', _⟩
      refine ⟨hm'.1, ?_⟩
      intro e' he
      cases he
      exact hm'.2 e hm

end Traced

end Library
