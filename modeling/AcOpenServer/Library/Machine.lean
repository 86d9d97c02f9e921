import AcOpenServer.Library.Traced

namespace Library
set_option autoImplicit true

variable {ε σ ρ α β ι : Type}

theorem run_bind_of_ok {m : EStateM ε σ α} (f : α → EStateM ε σ β)
    (h : m.run s = .ok a t) : (m >>= f).run s = (f a).run t := by
  rw [EStateM.run_bind, h]

theorem run_bind_of_error {m : EStateM ε σ α} (f : α → EStateM ε σ β)
    (h : m.run s = .error e t) : (m >>= f).run s = .error e t := by
  rw [EStateM.run_bind, h]

/-- Run an action on a part of a larger state. -/
def zoom (get : σ → ρ) (set : ρ → σ → σ) (m : EStateM ε ρ α) : EStateM ε σ α := fun s =>
  match m.run (get s) with
  | .ok a t => .ok a (set t s)
  | .error e t => .error e (set t s)

theorem run_zoom_of_ok {get : σ → ρ} {set : ρ → σ → σ} {m : EStateM ε ρ α}
    (h : m.run (get s) = .ok a t) : (zoom get set m).run s = .ok a (set t s) := by
  simp only [zoom, EStateM.run] at h ⊢
  rw [h]

theorem run_zoom_of_error {get : σ → ρ} {set : ρ → σ → σ} {m : EStateM ε ρ α}
    (h : m.run (get s) = .error e t) : (zoom get set m).run s = .error e (set t s) := by
  simp only [zoom, EStateM.run] at h ⊢
  rw [h]

/-- Run an action and go on in the state it leaves, whether it returned or threw. -/
def ignoreErrors (m : EStateM ε σ Unit) : EStateM ε σ Unit := fun s =>
  match m.run s with
  | .ok _ t => .ok () t
  | .error _ t => .ok () t

theorem run_ignoreErrors_of_ok {m : EStateM ε σ Unit} (h : m.run s = .ok () t) :
    (ignoreErrors m).run s = .ok () t := by
  simp only [ignoreErrors, EStateM.run] at h ⊢
  rw [h]

theorem run_ignoreErrors_of_error {m : EStateM ε σ Unit} (h : m.run s = .error e t) :
    (ignoreErrors m).run s = .ok () t := by
  simp only [ignoreErrors, EStateM.run] at h ⊢
  rw [h]

theorem returns_ignoreErrors (m : EStateM ε σ Unit) (s : σ) :
    ∃ t, (ignoreErrors m).run s = .ok () t := by
  cases hrun : m.run s with
  | ok a t => exact ⟨t, run_ignoreErrors_of_ok hrun⟩
  | error e t => exact ⟨t, run_ignoreErrors_of_error hrun⟩

/-- Use the result of a computation that has no state. -/
def Traced.toAction (m : Traced τ ε α) : EStateM ε σ α :=
  match m.result with
  | .ok a => pure a
  | .error e => throw e

theorem Traced.run_toAction_of_ok {m : Traced τ ε α} (h : m.result = .ok a) (s : σ) :
    (m.toAction : EStateM ε σ α).run s = .ok a s := by
  rw [toAction, h]
  rfl

theorem Traced.run_toAction_of_error {m : Traced τ ε α} (h : m.result = .error e) (s : σ) :
    (m.toAction : EStateM ε σ α).run s = .error e s := by
  rw [toAction, h]
  rfl

theorem run_modify_bind (g : σ → σ) (f : PUnit → EStateM ε σ β) (s : σ) :
    (modify g >>= f).run s = (f ⟨⟩).run (g s) := rfl

theorem run_get_bind (f : σ → EStateM ε σ β) (s : σ) : (get >>= f).run s = (f s).run s := rfl

/-- A machine handled these inputs one after another and every handler returned. -/
inductive Steps (step : ι → EStateM ε σ Unit) : σ → List ι → σ → Prop
  | nil : Steps step s [] s
  | cons : (step i).run s = .ok () t → Steps step t is u → Steps step s (i :: is) u

/-- A machine handled these inputs one after another; only the last handler may have
thrown. -/
inductive Run (step : ι → EStateM ε σ Unit) : σ → List ι → σ → Prop
  | returned : Steps step s is t → Run step s is t
  | threw : Steps step s is t → (step i).run t = .error e u → Run step s (is ++ [i]) u

variable {step : ι → EStateM ε σ Unit}

/-- The state after these inputs, if every handler returns. -/
def runAll (step : ι → EStateM ε σ Unit) : List ι → σ → Option σ
  | [], s => some s
  | i :: is, s =>
    match (step i).run s with
    | .ok _ t => runAll step is t
    | .error _ _ => none

theorem steps_of_runAll {is : List ι} (h : runAll step is s = some t) : Steps step s is t := by
  induction is generalizing s with
  | nil =>
    cases h
    exact .nil
  | cons i is ih =>
    rw [runAll] at h
    cases hi : (step i).run s with
    | ok a u =>
      rw [hi] at h
      exact .cons hi (ih h)
    | error e u =>
      rw [hi] at h
      cases h

/-- The state a run ends in, if only the last handler throws. -/
def runUntilError (step : ι → EStateM ε σ Unit) : List ι → σ → Option σ
  | [], s => some s
  | i :: is, s =>
    match (step i).run s with
    | .ok _ t => runUntilError step is t
    | .error _ t => if is.isEmpty then some t else none

theorem Run.cons {is : List ι} (hi : (step i).run s = .ok () t) (h : Run step t is u) :
    Run step s (i :: is) u := by
  cases h with
  | returned hsteps => exact .returned (.cons hi hsteps)
  | threw hsteps herror => exact .threw (.cons hi hsteps) herror

theorem run_of_runUntilError {is : List ι} (h : runUntilError step is s = some t) :
    Run step s is t := by
  induction is generalizing s with
  | nil =>
    cases h
    exact .returned .nil
  | cons i is ih =>
    rw [runUntilError] at h
    cases hi : (step i).run s with
    | ok a u =>
      rw [hi] at h
      exact (ih h).cons hi
    | error e u =>
      rw [hi] at h
      cases is with
      | nil =>
        cases h
        exact .threw .nil hi
      | cons j is => cases h

/-- A relation between the inputs handled so far and the state holds at the end of a run
when every handler that returns extends it. -/
theorem Steps.history {P : List ι → σ → Prop} {is : List ι}
    (hstep : ∀ hist i s t, P hist s → (step i).run s = .ok () t → P (hist ++ [i]) t)
    (h : Steps step s is t) (hs : P hist s) : P (hist ++ is) t := by
  induction h generalizing hist with
  | nil => simpa only [List.append_nil] using hs
  | @cons i s t is u hi _ ih =>
    have ht := ih (hstep _ _ _ _ hs hi)
    rwa [List.append_assoc] at ht

theorem Steps.invariant {P : σ → Prop} {is : List ι}
    (hstep : ∀ i s t, P s → (step i).run s = .ok () t → P t)
    (h : Steps step s is t) (hs : P s) : P t := by
  induction h with
  | nil => exact hs
  | cons hi _ ih => exact ih (hstep _ _ _ hs hi)

/-- The state an action leaves, whether it returned or threw. -/
def stateAfter (m : EStateM ε σ α) (s : σ) : σ :=
  match m.run s with
  | .ok _ t => t
  | .error _ t => t

theorem stateAfter_of_ok {m : EStateM ε σ α} (h : m.run s = .ok a t) : stateAfter m s = t := by
  rw [stateAfter, h]

/-- Those of the inputs that are picked for what the machine does with them. -/
def picks (step : ι → EStateM ε σ Unit) (picked : ι → σ → σ → Prop)
    [∀ i s t, Decidable (picked i s t)] : List ι → σ → List ι
  | [], _ => []
  | i :: is, s =>
    if picked i s (stateAfter (step i) s) then
      i :: picks step picked is (stateAfter (step i) s)
    else
      picks step picked is (stateAfter (step i) s)

/-- A relation between the inputs handled so far, those picked of them and the state holds at
the end when every handler that returns extends it. -/
theorem Steps.history_picks {P : List ι → List ι → σ → Prop} {picked : ι → σ → σ → Prop}
    [∀ i s t, Decidable (picked i s t)] {is : List ι}
    (hpick : ∀ hist js i s t, P hist js s → (step i).run s = .ok () t → picked i s t →
      P (hist ++ [i]) (js ++ [i]) t)
    (hskip : ∀ hist js i s t, P hist js s → (step i).run s = .ok () t → ¬ picked i s t →
      P (hist ++ [i]) js t)
    (h : Steps step s is t) (hs : P hist js s) :
    P (hist ++ is) (js ++ picks step picked is s) t := by
  induction h generalizing hist js with
  | nil => simpa only [picks, List.append_nil] using hs
  | @cons i s t is u hi _ ih =>
    rw [picks, stateAfter_of_ok hi]
    split
    · rename_i hpicked
      have ht := ih (hpick _ _ _ _ _ hs hi hpicked)
      rwa [List.append_assoc, List.append_assoc] at ht
    · rename_i hskipped
      have ht := ih (hskip _ _ _ _ _ hs hi hskipped)
      rwa [List.append_assoc] at ht

end Library
