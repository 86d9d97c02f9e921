import AcOpenServer.Library.Machine

namespace Library
set_option autoImplicit true

variable {ε σ τ α β γ δ ρ ι : Type}

/-- An action on states of one kind does what another does on the states they stand for. It
starts where `P` holds; `Q` relates the results to the state when both return, and `E` holds
when both throw. -/
def Simulates (view : τ → σ) (E P : τ → Prop) (Q : α → β → τ → Prop) (m : EStateM ε τ α)
    (n : EStateM ε σ β) : Prop :=
  ∀ t, P t →
    (∃ a b t', m.run t = .ok a t' ∧ n.run (view t) = .ok b (view t') ∧ Q a b t') ∨
      ∃ e t', m.run t = .error e t' ∧ n.run (view t) = .error e (view t') ∧ E t'

variable {view : τ → σ} {E P : τ → Prop}

theorem simulates_pure {Q : α → β → τ → Prop} (h : ∀ t, P t → Q a b t) :
    Simulates view E P Q (pure a : EStateM ε τ α) (pure b) :=
  fun t ht => .inl ⟨a, b, t, rfl, rfl, h t ht⟩

theorem simulates_modify {g : τ → τ} {h : σ → σ} {Q : PUnit → PUnit → τ → Prop}
    (hview : ∀ t, P t → view (g t) = h (view t)) (hpost : ∀ t, P t → Q ⟨⟩ ⟨⟩ (g t)) :
    Simulates view E P Q (modify g : EStateM ε τ PUnit) (modify h) := by
  intro t ht
  refine .inl ⟨⟨⟩, ⟨⟩, g t, rfl, ?_, hpost t ht⟩
  rw [hview t ht]
  rfl

theorem simulates_throw (e : ε) {Q : α → β → τ → Prop} (h : ∀ t, P t → E t) :
    Simulates view E P Q (throw e : EStateM ε τ α) (throw e) :=
  fun t ht => .inr ⟨e, t, rfl, rfl, h t ht⟩

theorem Simulates.bind {Q : α → β → τ → Prop} {R : γ → δ → τ → Prop} {m : EStateM ε τ α}
    {n : EStateM ε σ β} {f : α → EStateM ε τ γ} {g : β → EStateM ε σ δ}
    (hm : Simulates view E P Q m n) (hf : ∀ a b, Simulates view E (Q a b) R (f a) (g b)) :
    Simulates view E P R (m >>= f) (n >>= g) := by
  intro t ht
  rcases hm t ht with ⟨a, b, u, hrun, hrun', hq⟩ | ⟨e, u, hrun, hrun', hu⟩
  · rw [run_bind_of_ok f hrun, run_bind_of_ok g hrun']
    exact hf a b u hq
  · exact .inr ⟨e, u, run_bind_of_error f hrun, run_bind_of_error g hrun', hu⟩

theorem Simulates.bind_left {Q : α → τ → Prop} {R : γ → δ → τ → Prop} {m : EStateM ε τ α}
    {f : α → EStateM ε τ γ} {n : EStateM ε σ δ}
    (hm : ∀ t, P t → ∃ a t', m.run t = .ok a t' ∧ view t' = view t ∧ Q a t')
    (hf : ∀ a, Simulates view E (Q a) R (f a) n) : Simulates view E P R (m >>= f) n := by
  intro t ht
  obtain ⟨a, u, hrun, hview, hq⟩ := hm t ht
  rw [run_bind_of_ok f hrun, ← hview]
  exact hf a u hq

theorem Simulates.mono {P' : τ → Prop} {Q Q' : α → β → τ → Prop} {m : EStateM ε τ α}
    {n : EStateM ε σ β} (hm : Simulates view E P Q m n) (hpre : ∀ t, P' t → P t)
    (hpost : ∀ a b t, Q a b t → Q' a b t) : Simulates view E P' Q' m n := by
  intro t ht
  rcases hm t (hpre t ht) with ⟨a, b, u, hrun, hrun', hq⟩ | hthrew
  · exact .inl ⟨a, b, u, hrun, hrun', hpost a b u hq⟩
  · exact .inr hthrew

theorem Simulates.bind_same {S : τ → Prop} {R : γ → δ → τ → Prop} {m : EStateM ε τ α}
    {n : EStateM ε σ α} {f : α → EStateM ε τ γ} {g : α → EStateM ε σ δ}
    (hm : Simulates view E P (fun a b t => a = b ∧ S t) m n)
    (hf : ∀ a, Simulates view E S R (f a) (g a)) :
    Simulates view E P R (m >>= f) (n >>= g) := by
  apply hm.bind
  rintro a b t ⟨rfl, ht⟩
  exact hf a t ht

theorem Simulates.get_bind {R : γ → δ → τ → Prop} {f : τ → EStateM ε τ γ}
    {g : σ → EStateM ε σ δ}
    (h : ∀ t, P t → Simulates view E (· = t) R (f t) (g (view t))) :
    Simulates view E P R (get >>= f) (get >>= g) := fun t ht => h t ht t rfl

theorem Simulates.get_left {R : γ → δ → τ → Prop} {f : τ → EStateM ε τ γ} {n : EStateM ε σ δ}
    (h : ∀ t, P t → Simulates view E (· = t) R (f t) n) :
    Simulates view E P R (get >>= f) n := fun t ht => h t ht t rfl

theorem simulates_toAction (m : Traced ω ε α) (h : ∀ t, P t → E t) :
    Simulates view E P (fun a b t => a = b ∧ P t) m.toAction m.toAction := by
  intro t ht
  cases hm : m.result with
  | ok a =>
    exact .inl ⟨a, a, t, Traced.run_toAction_of_ok hm t, Traced.run_toAction_of_ok hm _, rfl, ht⟩
  | error e =>
    exact .inr ⟨e, t, Traced.run_toAction_of_error hm t, Traced.run_toAction_of_error hm _,
      h t ht⟩

theorem simulates_zoom {get : τ → ρ} {set : ρ → τ → τ} {get' : σ → ρ} {set' : ρ → σ → σ}
    (m : EStateM ε ρ α) (hget : ∀ t, get' (view t) = get t)
    (hset : ∀ r t, view (set r t) = set' r (view t)) (hpre : ∀ r t, P t → P (set r t))
    (herror : ∀ t, P t → E t) :
    Simulates view E P (fun a b t => a = b ∧ P t) (zoom get set m) (zoom get' set' m) := by
  intro t ht
  cases hm : m.run (get t) with
  | ok a r =>
    refine .inl ⟨a, a, set r t, run_zoom_of_ok hm, ?_, rfl, hpre r t ht⟩
    rw [hset]
    exact run_zoom_of_ok (by rw [hget, hm])
  | error e r =>
    refine .inr ⟨e, set r t, run_zoom_of_error hm, ?_, herror _ (hpre r t ht)⟩
    rw [hset]
    exact run_zoom_of_error (by rw [hget, hm])

theorem Simulates.ignoreErrors {Q : Unit → Unit → τ → Prop} {m : EStateM ε τ Unit}
    {n : EStateM ε σ Unit} (hm : Simulates view E P Q m n) (h : ∀ t, E t → Q () () t) :
    Simulates view E P Q (ignoreErrors m) (ignoreErrors n) := by
  intro t ht
  rcases hm t ht with ⟨a, b, u, hrun, hrun', hq⟩ | ⟨e, u, hrun, hrun', hu⟩
  · exact .inl ⟨(), (), u, run_ignoreErrors_of_ok hrun, run_ignoreErrors_of_ok hrun', hq⟩
  · exact .inl ⟨(), (), u, run_ignoreErrors_of_error hrun, run_ignoreErrors_of_error hrun',
      h u hu⟩

variable {step : ι → EStateM ε τ Unit} {step' : ι → EStateM ε σ Unit} {is : List ι}

theorem Steps.of_simulates (hstep : ∀ i, Simulates view E P (fun _ _ => P) (step i) (step' i))
    (h : Steps step t is u) (ht : P t) : Steps step' (view t) is (view u) ∧ P u := by
  induction h with
  | nil => exact ⟨.nil, ht⟩
  | @cons i s v is w hi _ ih =>
    rcases hstep i s ht with ⟨_, _, v', hrun, hrun', hv⟩ | ⟨e, v', hrun, _⟩
    · cases hi.symm.trans hrun
      obtain ⟨hrest, hw⟩ := ih hv
      exact ⟨.cons hrun' hrest, hw⟩
    · cases hi.symm.trans hrun

/-- What the simulated machine can handle, the machine can. -/
theorem Steps.exists_of_simulates
    (hstep : ∀ i, Simulates view E P (fun _ _ => P) (step i) (step' i))
    (h : Steps step' (view t) is v) (ht : P t) : ∃ u, Steps step t is u ∧ view u = v := by
  generalize hs : view t = s at h
  induction h generalizing t with
  | nil => exact ⟨t, .nil, hs⟩
  | @cons i s w is v hi _ ih =>
    subst hs
    rcases hstep i t ht with ⟨_, _, t', hrun, hrun', ht'⟩ | ⟨e, t', _, hrun', _⟩
    · cases hi.symm.trans hrun'
      obtain ⟨u, hrest, hu⟩ := ih ht' rfl
      exact ⟨u, .cons hrun hrest, hu⟩
    · cases hi.symm.trans hrun'

theorem Simulates.run_eq_error {Q : α → β → τ → Prop} {m : EStateM ε τ α} {n : EStateM ε σ β}
    (h : Simulates view E P Q m n) (ht : P t) (hrun : m.run t = .error e u) :
    n.run (view t) = .error e (view u) := by
  rcases h t ht with ⟨_, _, _, hok, _⟩ | ⟨e', u', herror, herror', _⟩
  · cases hrun.symm.trans hok
  · cases hrun.symm.trans herror
    exact herror'

/-- A run of a machine is a run of the machine it simulates. -/
theorem Run.of_simulates (hstep : ∀ i, Simulates view E P (fun _ _ => P) (step i) (step' i))
    (h : Run step t is u) (ht : P t) : Run step' (view t) is (view u) := by
  cases h with
  | returned hsteps => exact .returned (hsteps.of_simulates hstep ht).1
  | @threw is v i e u hsteps hi =>
    obtain ⟨hrest, hv⟩ := hsteps.of_simulates hstep ht
    exact .threw hrest ((hstep i).run_eq_error hv hi)

end Library
