import AcOpenServer.BinaryMemory.Containment
import AcOpenServer.BinaryMemory.Stream
import AcOpenServer.Library.Keeps
import AcOpenServer.Library.Nested

namespace AcOpenServer
open Library
set_option autoImplicit true

/-- An operation on a memory cursor that is no step, so that it leaves the steps alone. -/
structure MemoryAction where
  run : EStateM Exn MemoryCursor Unit
  steps : ∀ {c t}, run.run c = .ok () t → t.steps = c.steps

namespace MemoryCursor

def stepInCount (c : MemoryCursor) : Nat := c.steps.length

/-- The position and the number of steps have come back. -/
def SameStep (c t : MemoryCursor) : Prop :=
  t.position = c.position ∧ t.stepInCount = c.stepInCount

variable {c t : MemoryCursor} {value : Int}

theorem run_stepIn (c : MemoryCursor) (value : Int) :
    (stepIn value).run c =
      if c.memory.length < value % 2 ^ 32 then
        .error .argumentOutOfRange { c with steps := c.position :: c.steps }
      else
        .ok () { c with steps := c.position :: c.steps, position := wrap32 value } := by
  rw [stepIn, run_modify_bind, setPosition, run_get_bind]
  by_cases hlong : c.memory.length < value % 2 ^ 32
  · rw [if_pos hlong, if_pos hlong]
    rfl
  · rw [if_neg hlong, if_neg hlong]
    rfl

theorem of_run_stepIn (h : (stepIn value).run c = .ok () t) :
    t.steps = c.position :: c.steps := by
  rw [run_stepIn] at h
  by_cases hlong : c.memory.length < value % 2 ^ 32
  · rw [if_pos hlong] at h
    cases h
  · rw [if_neg hlong] at h
    cases h
    rfl

theorem run_stepOut (h : c.steps = p :: ps) :
    stepOut.run c = .ok () { c with position := p, steps := ps } := by
  rw [stepOut, run_get_bind, h]
  rfl

/-- A `BinaryMemoryReader` or a `BinaryMemoryWriter`. -/
def brackets : Brackets Exn MemoryCursor MemoryAction Int where
  act := MemoryAction.run
  enter := stepIn
  leave := stepOut

/-- `StepIn` pushes the position it has been at. -/
def stacked : brackets.Stacked Int where
  stack := steps
  place := position
  mark _ c := c.position
  Marked _ := True
  act_stack := by
    intro i s t h
    exact i.steps h
  enter_stack := of_run_stepIn
  enter_marked _ := trivial
  leave_stack := by
    intro s m ms _ h
    exact ⟨_, run_stepOut h, rfl, rfl⟩

/-- A `StepIn` that throws changes neither. -/
def StepsInCleanly (value : Int) (c : MemoryCursor) : Prop :=
  ∀ e t, (stepIn value).run c = .error e t → c.SameStep t

theorem stepsInCleanly_iff (value : Int) (c : MemoryCursor) :
    StepsInCleanly value c ↔ value % 2 ^ 32 ≤ c.memory.length := by
  rw [StepsInCleanly, run_stepIn]
  by_cases hlong : c.memory.length < value % 2 ^ 32
  · rw [if_pos hlong]
    refine iff_of_false ?_ (Int.not_le.2 hlong)
    intro hclean
    have hlength := (hclean _ _ rfl).2
    exact absurd hlength (Nat.succ_ne_self _)
  · rw [if_neg hlong]
    refine iff_of_true ?_ (Int.not_lt.1 hlong)
    intro e t h
    cases h

/-- An operation leaves the steps alone, whether it returns or throws. -/
def KeepsSteps (m : EStateM Exn MemoryCursor α) : Prop := ∀ ps, Keeps (fun c => c.steps = ps) m

theorem KeepsSteps.steps_eq {m : EStateM Exn MemoryCursor α} (hm : KeepsSteps m)
    (h : m.run c = .ok a t) : t.steps = c.steps := by
  have hkept := hm c.steps c rfl
  rwa [stateAfter_of_ok h] at hkept

theorem keepsSteps_modify {g : MemoryCursor → MemoryCursor} (hg : ∀ c, (g c).steps = c.steps) :
    KeepsSteps (modify g) := fun _ => keeps_modify fun c h => (hg c).trans h

theorem keepsSteps_setPosition (value : Int) : KeepsSteps (setPosition value) := by
  intro ps
  refine keeps_get_bind fun c hc => keeps_unless fun _ => ?_
  exact keepsSteps_modify (fun _ => rfl) ps

theorem keepsSteps_access (size : Nat) : KeepsSteps (access size) := by
  intro ps
  refine keeps_get_bind fun c hc => keeps_unless fun _ => ?_
  exact Keeps.bind (keeps_set hc) fun _ => keeps_pure _

theorem keepsSteps_readValue (size : Nat) : KeepsSteps (readValue size) := by
  intro ps
  refine Keeps.bind (keepsSteps_access size ps) fun offset => ?_
  exact keeps_get_bind fun c _ => keeps_pure _

theorem keepsSteps_writeValue (bytes : List UInt8) : KeepsSteps (writeValue bytes) := by
  intro ps
  refine Keeps.bind (keepsSteps_access bytes.length ps) fun offset => ?_
  exact keepsSteps_modify (fun _ => rfl) ps

theorem keepsSteps_each {f : ι → EStateM Exn MemoryCursor α} (hf : ∀ i, KeepsSteps (f i))
    (is : List ι) : KeepsSteps (each f is) := by
  induction is with
  | nil => exact fun ps => keeps_pure _
  | cons i is ih => exact fun ps => Keeps.bind (hf i ps) fun _ => ih ps

theorem keepsSteps_peekValue (size : Nat) : KeepsSteps (peekValue size) := by
  intro ps
  refine keeps_get_bind fun c hc => keeps_unless fun _ => ?_
  exact Keeps.bind (keeps_set hc) fun _ => keeps_pure _

theorem keepsSteps_peekWith {m : EStateM Exn MemoryCursor α} (hm : KeepsSteps m) :
    KeepsSteps (peekWith m) := by
  intro ps
  refine keeps_get_bind fun c hc => Keeps.bind (hm ps) fun a => Keeps.bind ?_ fun _ => keeps_pure a
  exact keepsSteps_modify (fun _ => rfl) ps

theorem keepsSteps_getWith {m : EStateM Exn MemoryCursor α} (hm : KeepsSteps m) (value : Int) :
    KeepsSteps (getWith m value) := by
  intro ps
  refine keeps_get_bind fun c hc => Keeps.bind (keepsSteps_setPosition value ps) fun _ => ?_
  refine Keeps.bind (hm ps) fun a => Keeps.bind ?_ fun _ => keeps_pure a
  exact keepsSteps_modify (fun _ => rfl) ps

theorem keepsSteps_readSpan (size : Nat) (count : Int) : KeepsSteps (readSpan size count) := by
  intro ps
  refine keeps_get_bind fun c hc => keeps_unless fun _ => keeps_ite (fun _ => ?_) fun _ => ?_
  · exact Keeps.bind (keeps_set hc) fun _ => keeps_pure _
  · exact keeps_throw _

end MemoryCursor

namespace CursorOp

open MemoryCursor

def IsStep : CursorOp → Prop
  | stepIn _ | stepOut => True
  | _ => False

theorem keepsSteps_readSizes (sizes : List TypeSize) : KeepsSteps (readSizes sizes) := by
  have hvalue (size : TypeSize) : KeepsSteps (readValue size.1) := keepsSteps_readValue size.1
  rw [readSizes]
  exact keepsSteps_each hvalue sizes

theorem keepsSteps_run {op : CursorOp} (hop : ¬ op.IsStep) : KeepsSteps op.run := by
  cases op with
  | setPosition value => exact keepsSteps_setPosition _
  | advance count => exact keepsSteps_modify fun _ => rfl
  | rewind count => exact keepsSteps_modify fun _ => rfl
  | align alignment =>
    refine fun ps => keeps_unless fun _ => keepsSteps_modify (fun c => ?_) ps
    dsimp only
    split <;> rfl
  | alignFrom position alignment =>
    exact fun ps => keeps_unless fun _ => keepsSteps_setPosition _ ps
  | gotoStart => exact keepsSteps_modify fun _ => rfl
  | gotoEnd => exact keepsSteps_modify fun _ => rfl
  | stepIn position => exact absurd trivial hop
  | stepOut => exact absurd trivial hop
  | read sizes => exact keepsSteps_readSizes sizes
  | peekValue size =>
    have hvalue (size : TypeSize) : KeepsSteps (MemoryCursor.peekValue size.1) :=
      keepsSteps_peekValue size.1
    rw [run]
    exact keepsSteps_each hvalue [size]
  | peek sizes => exact keepsSteps_peekWith (keepsSteps_readSizes sizes)
  | get position sizes => exact keepsSteps_getWith (keepsSteps_readSizes sizes) _
  | readSpan size count =>
    have hspan (count : Int32) : KeepsSteps (MemoryCursor.readSpan size.1 count.toInt) :=
      keepsSteps_readSpan size.1 count.toInt
    rw [run]
    exact keepsSteps_each hspan [count]
  | write values =>
    have hvalue (bytes : TypeBytes) : KeepsSteps (writeValue bytes.1) :=
      keepsSteps_writeValue bytes.1
    rw [run]
    exact keepsSteps_each hvalue values

/-- The operations that are no steps can stand between them. -/
def toAction (op : CursorOp) (hop : ¬ op.IsStep) : MemoryAction where
  run := op.run
  steps := (keepsSteps_run hop).steps_eq

end CursorOp

/-- A stream that can seek to the positions in some range. -/
structure SeekableStream (σ : Type) where
  position : σ → Int
  setPosition : Int → EStateM Exn σ Unit
  InRange : Int → Prop
  sets : ∀ {value}, InRange value → ∀ s, ∃ t,
    (setPosition value).run s = .ok () t ∧ position t = value
  refuses : ∀ {value}, ¬ InRange value → ∀ s, ∃ e t,
    (setPosition value).run s = .error e t ∧ position t = position s

/-- A `BinaryStreamReader` or a `BinaryStreamWriter` over a stream, with its steps. -/
structure SteppingStream (σ : Type) where
  baseStream : σ
  steps : List Int

namespace SteppingStream

variable {σ : Type}

def onBase (m : EStateM Exn σ Unit) : EStateM Exn (SteppingStream σ) Unit :=
  zoom baseStream (fun baseStream s => { s with baseStream }) m

variable (stream : SeekableStream σ)

def position (s : SteppingStream σ) : Int := stream.position s.baseStream

def stepIn (position : Int) : EStateM Exn (SteppingStream σ) Unit := do
  modify fun s => { s with steps := position :: s.steps }
  onBase (stream.setPosition position)

def stepOut : EStateM Exn (SteppingStream σ) Unit := do
  match (← get).steps with
  | [] => throw .invalidOperation
  | position :: steps => do
    modify fun s => { s with steps }
    onBase (stream.setPosition position)

def stepInCount (s : SteppingStream σ) : Nat := s.steps.length

def SameStep (s t : SteppingStream σ) : Prop :=
  t.position stream = s.position stream ∧ t.stepInCount = s.stepInCount

def StepsInCleanly (value : Int) (s : SteppingStream σ) : Prop :=
  ∀ e t, (stepIn stream value).run s = .error e t → s.SameStep stream t

/-- What is done between steps is anything with the stream. -/
def brackets : Brackets Exn (SteppingStream σ) (EStateM Exn σ Unit) Int where
  act := onBase
  enter := stepIn stream
  leave := stepOut stream

variable {stream} {s t : SteppingStream σ} {value : Int}

theorem run_onBase_of_ok {m : EStateM Exn σ Unit} (h : m.run s.baseStream = .ok () u) :
    (onBase m).run s = .ok () { s with baseStream := u } := run_zoom_of_ok h

theorem steps_of_run_onBase {m : EStateM Exn σ Unit} (h : (onBase m).run s = .ok () t) :
    t.steps = s.steps := by
  cases hrun : m.run s.baseStream with
  | ok a u =>
    rw [run_onBase_of_ok hrun] at h
    cases h
    rfl
  | error e u =>
    rw [onBase, run_zoom_of_error hrun] at h
    cases h

theorem run_stepIn_of_inRange (h : stream.InRange value) (s : SteppingStream σ) :
    ∃ u, (stepIn stream value).run s = .ok () ⟨u, value :: s.steps⟩ ∧
      stream.position u = value := by
  obtain ⟨u, hrun, hposition⟩ := stream.sets h s.baseStream
  refine ⟨u, ?_, hposition⟩
  rw [stepIn, run_modify_bind]
  exact run_onBase_of_ok (s := ⟨s.baseStream, value :: s.steps⟩) hrun

theorem run_stepIn_of_not_inRange (h : ¬ stream.InRange value) (s : SteppingStream σ) :
    ∃ e u, (stepIn stream value).run s = .error e ⟨u, value :: s.steps⟩ := by
  obtain ⟨e, u, hrun, -⟩ := stream.refuses h s.baseStream
  refine ⟨e, u, ?_⟩
  rw [stepIn, run_modify_bind]
  exact run_zoom_of_error hrun

theorem of_run_stepIn (h : (stepIn stream value).run s = .ok () t) :
    stream.InRange value ∧ t.steps = value :: s.steps := by
  by_cases hrange : stream.InRange value
  · obtain ⟨u, hrun, -⟩ := run_stepIn_of_inRange hrange s
    cases hrun.symm.trans h
    exact ⟨hrange, rfl⟩
  · obtain ⟨e, u, hrun⟩ := run_stepIn_of_not_inRange hrange s
    cases hrun.symm.trans h

theorem run_stepOut (hrange : stream.InRange p) (h : s.steps = p :: ps) :
    ∃ t, (stepOut stream).run s = .ok () t ∧ t.steps = ps ∧ t.position stream = p := by
  obtain ⟨u, hrun, hposition⟩ := stream.sets hrange s.baseStream
  refine ⟨⟨u, ps⟩, ?_, rfl, hposition⟩
  rw [stepOut, run_get_bind, h]
  exact run_onBase_of_ok (s := ⟨s.baseStream, ps⟩) hrun

variable (stream) in
/-- `StepIn` pushes the position it is asked for. -/
def stacked : (brackets stream).Stacked Int where
  stack := steps
  place := position stream
  mark value _ := value
  Marked := stream.InRange
  act_stack := steps_of_run_onBase
  enter_stack h := (of_run_stepIn h).2
  enter_marked h := (of_run_stepIn h).1
  leave_stack := run_stepOut

theorem stepsInCleanly_iff (value : Int) (s : SteppingStream σ) :
    s.StepsInCleanly stream value ↔ stream.InRange value := by
  by_cases hrange : stream.InRange value
  · obtain ⟨u, hrun, -⟩ := run_stepIn_of_inRange hrange s
    refine iff_of_true ?_ hrange
    intro e t h
    cases hrun.symm.trans h
  · obtain ⟨e, u, hrun⟩ := run_stepIn_of_not_inRange hrange s
    refine iff_of_false ?_ hrange
    intro hclean
    have hlength := (hclean e _ hrun).2
    exact absurd hlength (Nat.succ_ne_self _)

end SteppingStream

/-- On memory every `StepOut` goes back; on a stream it does exactly where the `StepIn` has gone to
the position it was at. A `StepIn` that throws has always pushed a step. -/
theorem steps_bracketed_iff (stream : SeekableStream σ) :
    (∀ prog c, MemoryCursor.brackets.Restores MemoryCursor.SameStep prog c) ∧
      (∀ value (c : MemoryCursor), c.StepsInCleanly value ↔ value % 2 ^ 32 ≤ c.memory.length) ∧
      (∀ prog s, (SteppingStream.brackets stream).Restores (SteppingStream.SameStep stream)
          prog s ↔
        (SteppingStream.brackets stream).Enters (fun value s => value = s.position stream) prog s) ∧
      ∀ value (s : SteppingStream σ), s.StepsInCleanly stream value ↔ stream.InRange value := by
  refine ⟨?_, MemoryCursor.stepsInCleanly_iff, (SteppingStream.stacked stream).restores_iff,
    SteppingStream.stepsInCleanly_iff⟩
  intro prog c
  apply (MemoryCursor.stacked.restores_iff prog c).2
  exact Brackets.enters_of_forall (fun _ _ => rfl) c

/-- A `MemoryStream`, whose positions are an `int`. -/
def memoryStream : SeekableStream MemoryStream where
  position s := s.position
  setPosition value :=
    if value < 0 ∨ 2 ^ 31 ≤ value then throw .argumentOutOfRange
    else modify fun s => { s with position := value.toNat }
  InRange value := 0 ≤ value ∧ value < 2 ^ 31
  sets := by
    intro value h s
    rw [if_neg (by omega)]
    exact ⟨_, rfl, Int.toNat_of_nonneg h.1⟩
  refuses := by
    intro value h s
    rw [if_pos (by omega)]
    exact ⟨_, _, rfl, rfl⟩

/-- A stream that has gone to a position and out again is still there, and a `StepIn` that is
refused leaves a step behind. -/
theorem steps_not_bracketed :
    ¬ (SteppingStream.brackets memoryStream).Restores (SteppingStream.SameStep memoryStream)
        (.enter 2 .done .done) ⟨⟨[], 0⟩, []⟩ ∧
      ¬ SteppingStream.StepsInCleanly memoryStream (-1) ⟨⟨[], 0⟩, []⟩ ∧
        ¬ MemoryCursor.StepsInCleanly 1 (.new [] (fun _ => 0) false) := by
  refine ⟨?_, ?_, ?_⟩
  · intro hrestores
    have henters := ((SteppingStream.stacked memoryStream).restores_iff _ _).1 hrestores
    obtain ⟨-, hleft⟩ := henters _ rfl
    exact absurd (hleft _ rfl).1 (by decide)
  · rw [SteppingStream.stepsInCleanly_iff]
    exact fun hrange => absurd hrange.1 (by decide)
  · rw [MemoryCursor.stepsInCleanly_iff]
    decide

end AcOpenServer
