import AcOpenServer.Library.Machine

namespace Library
set_option autoImplicit true

variable {ε σ ρ α β : Type} {P : σ → Prop}

/-- An action keeps a property of the state, whether it returns or throws. -/
def Keeps (P : σ → Prop) (m : EStateM ε σ α) : Prop := ∀ s, P s → P (stateAfter m s)

theorem keeps_pure (a : α) : Keeps P (pure a : EStateM ε σ α) := fun _ h => h

theorem keeps_throw (e : ε) : Keeps P (throw e : EStateM ε σ α) := fun _ h => h

theorem keeps_toAction {τ : Type} (m : Traced τ ε α) :
    Keeps P (m.toAction : EStateM ε σ α) := by
  rw [Traced.toAction]
  cases m.result with
  | ok a => exact keeps_pure a
  | error e => exact keeps_throw e

theorem Keeps.bind {m : EStateM ε σ α} {f : α → EStateM ε σ β} (hm : Keeps P m)
    (hf : ∀ a, Keeps P (f a)) : Keeps P (m >>= f) := by
  intro s hs
  have ht := hm s hs
  cases hrun : m.run s with
  | ok a t =>
    rw [stateAfter_of_ok hrun] at ht
    have hstate : stateAfter (m >>= f) s = stateAfter (f a) t := by
      rw [stateAfter, stateAfter, run_bind_of_ok f hrun]
    rw [hstate]
    exact hf a t ht
  | error e t =>
    rw [stateAfter, hrun] at ht
    rw [stateAfter, run_bind_of_error f hrun]
    exact ht

theorem keeps_set (h : P t) : Keeps P (set t : EStateM ε σ PUnit) := fun _ _ => h

theorem keeps_modify {g : σ → σ} (h : ∀ s, P s → P (g s)) :
    Keeps P (modify g : EStateM ε σ PUnit) := h

theorem keeps_get_bind {f : σ → EStateM ε σ α} (h : ∀ s, P s → Keeps P (f s)) :
    Keeps P (get >>= f) := fun s hs => h s hs s hs

theorem keeps_ite {c : Prop} [Decidable c] {m m' : EStateM ε σ α} (hm : c → Keeps P m)
    (hm' : ¬ c → Keeps P m') : Keeps P (if c then m else m') := by
  by_cases hc : c
  · rw [if_pos hc]
    exact hm hc
  · rw [if_neg hc]
    exact hm' hc

theorem keeps_unless {c : Prop} [Decidable c] {m : EStateM ε σ α} {e : ε}
    (hm : ¬ c → Keeps P m) : Keeps P (if c then throw e else m) :=
  keeps_ite (fun _ => keeps_throw e) hm

theorem keeps_zoom {get : σ → ρ} {set : ρ → σ → σ} {m : EStateM ε ρ α}
    (h : ∀ s, P s → P (set (stateAfter m (get s)) s)) : Keeps P (zoom get set m) := by
  intro s hs
  have ht := h s hs
  cases hrun : m.run (get s) with
  | ok a t =>
    rw [stateAfter_of_ok hrun] at ht
    rw [stateAfter_of_ok (run_zoom_of_ok hrun)]
    exact ht
  | error e t =>
    rw [stateAfter, hrun] at ht
    rw [stateAfter, run_zoom_of_error hrun]
    exact ht

end Library
