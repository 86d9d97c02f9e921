import AcOpenServer.Library.Machine

namespace Library
set_option autoImplicit true

variable {ε σ ι κ μ : Type}

/-- A program of actions and of entries, each of which is left again. -/
inductive Nested (ι κ : Type) where
  | done
  | act (i : ι) (rest : Nested ι κ)
  | enter (k : κ) (body rest : Nested ι κ)

/-- A machine such programs run on. -/
structure Brackets (ε σ ι κ : Type) where
  act : ι → EStateM ε σ Unit
  enter : κ → EStateM ε σ Unit
  leave : EStateM ε σ Unit

namespace Brackets

def run (b : Brackets ε σ ι κ) : Nested ι κ → EStateM ε σ Unit
  | .done => pure ()
  | .act i rest => do
    b.act i
    run b rest
  | .enter k body rest => do
    b.enter k
    run b body
    b.leave
    run b rest

/-- Wherever a program has come to the end of an entry, it is left, and what it is left in is
related to what it was entered in. -/
def Restores (b : Brackets ε σ ι κ) (R : σ → σ → Prop) : Nested ι κ → σ → Prop
  | .done, _ => True
  | .act i rest, s => ∀ t, (b.act i).run s = .ok () t → Restores b R rest t
  | .enter k body rest, s => ∀ t, (b.enter k).run s = .ok () t →
      Restores b R body t ∧ ∀ u, (b.run body).run t = .ok () u →
        ∃ v, b.leave.run u = .ok () v ∧ R s v ∧ Restores b R rest v

/-- Every entry a program has come to the end of meets a condition on what it was entered in. -/
def Enters (b : Brackets ε σ ι κ) (P : κ → σ → Prop) : Nested ι κ → σ → Prop
  | .done, _ => True
  | .act i rest, s => ∀ t, (b.act i).run s = .ok () t → Enters b P rest t
  | .enter k body rest, s => ∀ t, (b.enter k).run s = .ok () t →
      Enters b P body t ∧ ∀ u, (b.run body).run t = .ok () u →
        P k s ∧ ∀ v, b.leave.run u = .ok () v → Enters b P rest v

/-- The machine keeps a stack: actions leave it alone, an entry pushes a mark, and leaving goes to
the mark it pops. -/
structure Stacked (b : Brackets ε σ ι κ) (μ : Type) where
  stack : σ → List μ
  place : σ → μ
  mark : κ → σ → μ
  Marked : μ → Prop
  act_stack : ∀ {i s t}, (b.act i).run s = .ok () t → stack t = stack s
  enter_stack : ∀ {k s t}, (b.enter k).run s = .ok () t → stack t = mark k s :: stack s
  enter_marked : ∀ {k s t}, (b.enter k).run s = .ok () t → Marked (mark k s)
  leave_stack : ∀ {s m ms}, Marked m → stack s = m :: ms →
    ∃ t, b.leave.run s = .ok () t ∧ stack t = ms ∧ place t = m

variable {b : Brackets ε σ ι κ} {prog : Nested ι κ} {P : κ → σ → Prop}

theorem exists_of_run_bind {m : EStateM ε σ Unit} {f : Unit → EStateM ε σ Unit}
    (h : (m >>= f).run s = .ok () u) : ∃ t, m.run s = .ok () t ∧ (f ()).run t = .ok () u := by
  cases hm : m.run s with
  | ok a t =>
    rw [run_bind_of_ok f hm] at h
    exact ⟨t, rfl, h⟩
  | error e t =>
    rw [run_bind_of_error f hm] at h
    cases h

theorem enters_of_forall (h : ∀ k s, P k s) (s : σ) : b.Enters P prog s := by
  induction prog generalizing s with
  | done => trivial
  | act i rest ih => exact fun t _ => ih t
  | enter k body rest ihbody ihrest =>
    intro t _
    exact ⟨ihbody t, fun u _ => ⟨h k s, fun v _ => ihrest v⟩⟩

namespace Stacked

/-- What comes back is the place, and the stack as it was. -/
def Same (d : b.Stacked μ) (s v : σ) : Prop :=
  d.place v = d.place s ∧ (d.stack v).length = (d.stack s).length

theorem stack_run (d : b.Stacked μ) (h : (b.run prog).run s = .ok () t) :
    d.stack t = d.stack s := by
  induction prog generalizing s t with
  | done =>
    cases h
    rfl
  | act i rest ih =>
    obtain ⟨u, hact, hrest⟩ := exists_of_run_bind h
    exact (ih hrest).trans (d.act_stack hact)
  | enter k body rest ihbody ihrest =>
    obtain ⟨u, henter, h⟩ := exists_of_run_bind h
    obtain ⟨v, hbody, h⟩ := exists_of_run_bind h
    obtain ⟨w, hleave, hrest⟩ := exists_of_run_bind h
    obtain ⟨w', hleave', hstack, -⟩ := d.leave_stack (d.enter_marked henter)
      ((ihbody hbody).trans (d.enter_stack henter))
    cases hleave.symm.trans hleave'
    exact (ihrest hrest).trans hstack

/-- A machine restores the place exactly if it pushes the place it is at. -/
theorem restores_iff (d : b.Stacked μ) (prog : Nested ι κ) (s : σ) :
    b.Restores d.Same prog s ↔ b.Enters (fun k s => d.mark k s = d.place s) prog s := by
  induction prog generalizing s with
  | done => rfl
  | act i rest ih => exact forall₂_congr fun t _ => ih t
  | enter k body rest ihbody ihrest =>
    refine forall₂_congr fun t henter => and_congr (ihbody t) (forall₂_congr fun u hbody => ?_)
    obtain ⟨v, hleave, hstack, hplace⟩ := d.leave_stack (d.enter_marked henter)
      ((d.stack_run hbody).trans (d.enter_stack henter))
    constructor
    · rintro ⟨v', hleave', ⟨hsame, -⟩, hrest⟩
      cases hleave.symm.trans hleave'
      refine ⟨hplace.symm.trans hsame, ?_⟩
      intro v' hleave''
      cases hleave.symm.trans hleave''
      exact (ihrest v).1 hrest
    · rintro ⟨hmark, hrest⟩
      exact ⟨v, hleave, ⟨hplace.trans hmark, congrArg List.length hstack⟩,
        (ihrest v).2 (hrest v hleave)⟩

end Stacked

end Brackets

end Library
