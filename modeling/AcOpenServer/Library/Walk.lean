import AcOpenServer.Library.Agreement

namespace Library
set_option autoImplicit true

/-- How an action moves: what is seen of what it returns and where it is then, or where it has
come to when it throws. -/
abbrev Walk (π β : Type) := StateT π (Except π) β

namespace Walk

variable {π β γ : Type}

def halt : Walk π β := fun p => .error p

/-- It comes to its end or stops where it has started. -/
def StopsAtStart (w : Walk π β) (p : π) : Prop :=
  match w.run p with
  | .ok _ => True
  | .error q => q = p

instance [DecidableEq π] (w : Walk π β) (p : π) : Decidable (w.StopsAtStart p) :=
  match h : w.run p with
  | .ok _ => .isTrue (by rw [StopsAtStart, h]; trivial)
  | .error q => decidable_of_iff (q = p) (by rw [StopsAtStart, h])

def times (w : Walk π Unit) : Nat → Walk π Unit
  | 0 => pure ()
  | n + 1 => do
    w
    times w n

def replicate (w : Walk π β) : Nat → Walk π (List β)
  | 0 => pure []
  | n + 1 => do
    let b ← w
    return b :: (← replicate w n)

/-- Once more until the last time has been seen, at most `limit` times. -/
def untilLast (w : Walk π Bool) : (limit : Nat) → Walk π Unit
  | 0 => halt
  | limit + 1 => do
    if ← w then return ()
    else untilLast w limit

/-- Nothing is seen of it. -/
def unseen (w : Walk π β) : Walk π Unit := do
  let _ ← w

theorem run_bind_of_ok {w : Walk π β} {p q : π} (f : β → Walk π γ) (h : w.run p = .ok (b, q)) :
    (w >>= f).run p = (f b).run q := by
  rw [StateT.run_bind, h]
  rfl

theorem run_bind_of_error {w : Walk π β} {p q : π} (f : β → Walk π γ) (h : w.run p = .error q) :
    (w >>= f).run p = .error q := by
  rw [StateT.run_bind, h]
  rfl

theorem StopsAtStart.unseen {w : Walk π β} {p : π} (h : w.StopsAtStart p) :
    w.unseen.StopsAtStart p := by
  rw [StopsAtStart] at h ⊢
  cases hrun : w.run p with
  | ok r =>
    rw [Walk.unseen, run_bind_of_ok _ hrun]
    trivial
  | error q =>
    rw [hrun] at h
    rw [Walk.unseen, run_bind_of_error _ hrun]
    exact h

end Walk

/-- States that consist of a place and of contents, as far as it matters. -/
structure Places (σ κ π : Type) where
  contents : σ → κ
  place : σ → π

variable {σ κ π ε α β γ δ : Type}

namespace Places

/-- A result is what the end of a walk says, over the same contents. -/
def Ends (P : Places σ κ π) (k : κ) (see : α → β) :
    EStateM.Result ε σ α → Except π (β × π) → Prop
  | .ok a t, .ok (b, p) => see a = b ∧ P.contents t = k ∧ P.place t = p
  | .error _ t, .error p => P.place t = p
  | _, _ => False

end Places

/-- Over these contents an action moves as a walk does, from any place. -/
def Walks (P : Places σ κ π) (k : κ) (m : EStateM ε σ α) (see : α → β) (w : Walk π β) : Prop :=
  ∀ s, P.contents s = k → P.Ends k see (m.run s) (w.run (P.place s))

variable {P : Places σ κ π} {k : κ} {m m' : EStateM ε σ α} {see : α → β} {see' : γ → δ}
  {w w' : Walk π β}

theorem walks_pure (h : see a = b) : Walks P k (pure a : EStateM ε σ α) see (pure b) :=
  fun _ hs => ⟨h, hs, rfl⟩

theorem walks_throw (e : ε) : Walks P k (throw e : EStateM ε σ α) see Walk.halt :=
  fun _ _ => rfl

theorem Walks.bind {f : α → EStateM ε σ γ} {g : β → Walk π δ} (hm : Walks P k m see w)
    (hf : ∀ a, Walks P k (f a) see' (g (see a))) : Walks P k (m >>= f) see' (w >>= g) := by
  intro s hs
  have hends := hm s hs
  cases hrun : m.run s with
  | ok a t =>
    cases hwalk : w.run (P.place s) with
    | ok r =>
      rw [hrun, hwalk] at hends
      obtain ⟨hsee, ht, hplace⟩ := hends
      have hnext := hf a t ht
      rw [hsee, hplace] at hnext
      rw [run_bind_of_ok f hrun, Walk.run_bind_of_ok g hwalk]
      exact hnext
    | error p =>
      rw [hrun, hwalk] at hends
      exact hends.elim
  | error e t =>
    cases hwalk : w.run (P.place s) with
    | ok r =>
      rw [hrun, hwalk] at hends
      exact hends.elim
    | error p =>
      rw [hrun, hwalk] at hends
      rw [run_bind_of_error f hrun, Walk.run_bind_of_error g hwalk]
      exact hends

theorem Walks.bind_still {f : α → EStateM ε σ γ} {see' : γ → β} (hm : Walks P k m see w)
    (hf : ∀ a, Walks P k (f a) see' (pure (see a))) : Walks P k (m >>= f) see' w := by
  have h := hm.bind hf
  rwa [bind_pure] at h

theorem Walks.map {g : α → γ} {see' : γ → β} (hm : Walks P k m see w)
    (h : ∀ a, see' (g a) = see a) : Walks P k (do return g (← m)) see' w :=
  hm.bind_still fun a => walks_pure (h a)

theorem Walks.unseen (hm : Walks P k m see w) : Walks P k m (fun _ => ()) w.unseen := by
  have h : Walks P k (m >>= pure) (fun _ => ()) w.unseen := by
    apply hm.bind
    intro a
    exact walks_pure rfl
  rwa [bind_pure] at h

theorem walks_get_bind {f : σ → EStateM ε σ α}
    (h : ∀ s, P.contents s = k → Walks P k (f s) see w) : Walks P k (get >>= f) see w :=
  fun s hs => h s hs s hs

theorem Walks.ite {c : Prop} [Decidable c] (hm : Walks P k m see w)
    (hm' : Walks P k m' see w') :
    Walks P k (if c then m else m') see (if c then w else w') := by
  by_cases hc : c
  · rw [if_pos hc, if_pos hc]
    exact hm
  · rw [if_neg hc, if_neg hc]
    exact hm'

theorem Walks.times {fill : Nat → EStateM ε σ (List α)} {w : Walk π Unit}
    (hm : Walks P k m (fun _ => ()) w) (hzero : fill 0 = pure []) (hsucc : ∀ n, fill (n + 1) = do
      let a ← m
      return a :: (← fill n)) (n : Nat) :
    Walks P k (fill n) (fun _ => ()) (w.times n) := by
  induction n with
  | zero =>
    rw [hzero]
    exact walks_pure rfl
  | succ n ih =>
    rw [hsucc]
    exact hm.bind fun a => ih.map fun as => rfl

theorem Walks.replicate {fill : Nat → EStateM ε σ (List α)} (hm : Walks P k m see w)
    (hzero : fill 0 = pure []) (hsucc : ∀ n, fill (n + 1) = do
      let a ← m
      return a :: (← fill n)) (n : Nat) :
    Walks P k (fill n) (List.map see) (w.replicate n) := by
  induction n with
  | zero =>
    rw [hzero]
    exact walks_pure rfl
  | succ n ih =>
    rw [hsucc]
    refine hm.bind fun a => ih.bind fun as => ?_
    exact walks_pure rfl

theorem Walks.collect {body : EStateM ε σ (Option α)} {last : Walk π Bool} (e : ε)
    (hbody : Walks P k body Option.isNone last) (limit : Nat) :
    Walks P k (collect e body limit) (fun _ => ()) (last.untilLast limit) := by
  induction limit with
  | zero => exact walks_throw e
  | succ limit ih =>
    apply hbody.bind
    intro a
    cases a with
    | none => exact walks_pure rfl
    | some a => exact ih.map fun _ => rfl

/-- Both return the same or both throw. -/
def SameOutcome : EStateM.Result ε σ α → EStateM.Result ε σ α → Prop
  | .ok a _, .ok b _ => a = b
  | .error _ _, .error _ _ => True
  | _, _ => False

/-- An action has the outcome of another one and leaves the place as it was. -/
def LeavesAlone (place : σ → π) (m n : EStateM ε σ α) (s : σ) : Prop :=
  SameOutcome (m.run s) (n.run s) ∧ place (stateAfter m s) = place s

/-- An action that goes back to where it was when it has returned, and only then. -/
def goBack (place : σ → π) (back : π → EStateM ε σ Unit) (m : EStateM ε σ α) :
    EStateM ε σ α := do
  let p := place (← get)
  let a ← m
  back p
  return a

theorem run_goBack_of_error {place : σ → π} {back : π → EStateM ε σ Unit}
    (h : m.run s = .error e t) : (goBack place back m).run s = .error e t := by
  rw [goBack, run_get_bind, run_bind_of_error _ h]

theorem run_goBack_of_ok {place : σ → π} {back : π → EStateM ε σ Unit}
    (h : m.run s = .ok a t) (hback : (back (place s)).run t = .ok () u) :
    (goBack place back m).run s = .ok a u := by
  rw [goBack, run_get_bind, run_bind_of_ok _ h, run_bind_of_ok _ hback]
  rfl

theorem sameOutcome_refl (r : EStateM.Result ε σ α) : SameOutcome r r := by
  cases r with
  | ok a t => exact rfl
  | error e t => exact trivial

/-- What throws on the way must not have moved. -/
theorem Walks.leavesAlone_goBack_iff {back : π → EStateM ε σ Unit} {n : EStateM ε σ α} {s : σ}
    (hm : Walks P (P.contents s) m see w)
    (hback : ∀ t, ∃ u, (back (P.place s)).run t = .ok () u ∧ P.place u = P.place s) :
    LeavesAlone P.place (goBack P.place back m) n s ↔
      SameOutcome (m.run s) (n.run s) ∧ w.StopsAtStart (P.place s) := by
  have hends := hm s rfl
  cases hrun : m.run s with
  | ok a t =>
    cases hwalk : w.run (P.place s) with
    | ok r =>
      obtain ⟨u, hu, hplace⟩ := hback t
      have hgo : (goBack P.place back m).run s = .ok a u := run_goBack_of_ok hrun hu
      have hsame (r : EStateM.Result ε σ α) :
          SameOutcome (.ok a u) r ↔ SameOutcome (.ok a t) r := by
        cases r <;> exact Iff.rfl
      rw [LeavesAlone, stateAfter, hgo, Walk.StopsAtStart, hwalk, hsame]
      exact and_congr_right fun _ => iff_of_true hplace trivial
    | error p =>
      rw [hrun, hwalk] at hends
      exact hends.elim
  | error e t =>
    have hgo : (goBack P.place back m).run s = .error e t := run_goBack_of_error hrun
    cases hwalk : w.run (P.place s) with
    | ok r =>
      rw [hrun, hwalk] at hends
      exact hends.elim
    | error p =>
      rw [hrun, hwalk] at hends
      replace hends : P.place t = p := hends
      rw [LeavesAlone, stateAfter, hgo, Walk.StopsAtStart, hwalk]
      dsimp only
      rw [hends]

end Library
