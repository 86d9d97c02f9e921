import AcOpenServer.BinaryMemory.Cursor

namespace AcOpenServer
open Library
set_option autoImplicit true

/-- A property of indices into a region of `n` bytes. -/
def Within (n : Nat) (position : Int) : Prop := 0 ≤ position ∧ position ≤ n

instance (n : Nat) (position : Int) : Decidable (Within n position) :=
  inferInstanceAs (Decidable (0 ≤ position ∧ position ≤ n))

/-- The values that are accessed one after another from a position on: the end of the first one
that does not fit is still an `int`. -/
def EndsFit (n : Nat) : Int → List Nat → Prop
  | _, [] => True
  | position, size :: sizes =>
    position + size < 2 ^ 31 ∧ (position + size ≤ n → EndsFit n (position + size) sizes)

instance EndsFit.decidable (n : Nat) : ∀ position sizes, Decidable (EndsFit n position sizes)
  | _, [] => isTrue trivial
  | position, size :: sizes =>
    have := EndsFit.decidable n (position + size) sizes
    inferInstanceAs (Decidable (position + size < 2 ^ 31 ∧
      (position + size ≤ n → EndsFit n (position + size) sizes)))

namespace MemoryCursor

/-- The cursor, its steps and its accesses are in a region of `n` bytes. -/
structure InRange (n : Nat) (c : MemoryCursor) : Prop where
  length : c.memory.length = n
  small : n < 2 ^ 31
  position : Within n c.position
  steps : ∀ position ∈ c.steps, Within n position
  accesses : ∀ a ∈ c.accesses, a.Inside n

variable {n size : Nat} {value : Int} {c t : MemoryCursor}

theorem InRange.move {p : Int} (h : InRange n c) (hp : Within n p) :
    InRange n { c with position := p } := ⟨h.length, h.small, hp, h.steps, h.accesses⟩

theorem InRange.push (h : InRange n c) :
    InRange n { c with steps := c.position :: c.steps } :=
  ⟨h.length, h.small, h.position, List.forall_mem_cons.2 ⟨h.position, h.steps⟩, h.accesses⟩

theorem InRange.touch (h : InRange n c) (hfits : c.position + size ≤ n) :
    InRange n (c.touch size) := by
  refine ⟨h.length, h.small, h.position, h.steps, ?_⟩
  intro a ha
  rcases List.mem_append.1 ha with ha | ha
  · exact h.accesses a ha
  · cases List.mem_singleton.1 ha
    exact ⟨h.position.1, hfits⟩

theorem run_setPosition_of_le (h : InRange n c) (hvalue : value % 2 ^ 32 ≤ n) :
    (setPosition value).run c = .ok () { c with position := value % 2 ^ 32 } := by
  have hsmall := h.small
  have hwrap : wrap32 value = value % 2 ^ 32 := by
    unfold wrap32
    omega
  have hnot : ¬ (c.memory.length : Int) < value % 2 ^ 32 := by
    rw [h.length]
    omega
  rw [setPosition, run_get_bind, if_neg hnot, ← hwrap]
  rfl

theorem run_setPosition_of_lt (h : InRange n c) (hvalue : n < value % 2 ^ 32) :
    (setPosition value).run c = .error .argumentOutOfRange c := by
  have hlt : (c.memory.length : Int) < value % 2 ^ 32 := by
    rw [h.length]
    exact hvalue
  rw [setPosition, run_get_bind, if_pos hlt]
  rfl

theorem inRange_setPosition (h : InRange n c) : InRange n (stateAfter (setPosition value) c) := by
  by_cases hvalue : value % 2 ^ 32 ≤ n
  · rw [stateAfter, run_setPosition_of_le h hvalue]
    exact h.move ⟨Int.emod_nonneg _ (by decide), hvalue⟩
  · rw [stateAfter, run_setPosition_of_lt h (Int.not_le.1 hvalue)]
    exact h

theorem run_access_of_le (h : InRange n c) (hfits : c.position + size ≤ n) :
    (access size).run c =
      .ok c.position { c.touch size with position := c.position + size } :=
  run_access (by rw [h.length]; exact h.small) h.position.1 (by rw [h.length]; exact hfits)

theorem run_access_of_lt (h : InRange n c) (hlong : n < c.position + size)
    (hint : c.position + size < 2 ^ 31) : (access size).run c = .error .invalidOperation c := by
  have hposition := h.position.1
  have hwrap : wrap32 (c.position + size) = c.position + size :=
    wrap32_of_range (by omega) (by omega)
  have hlt : (c.memory.length : Int) < wrap32 (c.position + size) := by
    rw [hwrap, h.length]
    exact hlong
  rw [access, run_get_bind, if_pos hlt]
  rfl

theorem run_access_of_wraps (h : InRange n c) (hsize : size < 2 ^ 31)
    (hwraps : 2 ^ 31 ≤ c.position + size) :
    ∃ p, (access size).run c = .ok c.position { c.touch size with position := p } := by
  have hsmall := h.small
  have hposition := h.position
  have hnegative : wrap32 (c.position + size) < 0 := by
    unfold Within at hposition
    unfold wrap32
    omega
  have hnot : ¬ (c.memory.length : Int) < wrap32 (c.position + size) := by
    omega
  rw [access, run_get_bind, if_neg hnot]
  exact ⟨_, rfl⟩

/-- An operation that accesses a value of some size and moves behind it. -/
structure Accesses (size : Nat) (m : EStateM Exn MemoryCursor α) : Prop where
  fits : ∀ {n c}, InRange n c → c.position + size ≤ n →
    ∃ a t, m.run c = .ok a t ∧ InRange n t ∧ t.position = c.position + size
  throws : ∀ {n c}, InRange n c → n < c.position + size → c.position + size < 2 ^ 31 →
    m.run c = .error .invalidOperation c
  wraps : ∀ {n c}, InRange n c → 2 ^ 31 ≤ c.position + size →
    ∃ a t, m.run c = .ok a t ∧ ⟨c.position, size⟩ ∈ t.accesses
  grows : ∀ c, ∀ a ∈ c.accesses, a ∈ (stateAfter m c).accesses

theorem mem_accesses_touch (size : Nat) (c : MemoryCursor) :
    ⟨c.position, size⟩ ∈ (c.touch size).accesses :=
  List.mem_append_right _ (List.mem_singleton_self _)

theorem access_grows (size : Nat) (c : MemoryCursor) :
    ((access size).run c = .error .invalidOperation c) ∨
      ∃ p, (access size).run c = .ok c.position { c.touch size with position := p } := by
  rw [access, run_get_bind]
  by_cases hlong : (c.memory.length : Int) < wrap32 (c.position + size)
  · rw [if_pos hlong]
    exact .inl rfl
  · rw [if_neg hlong]
    exact .inr ⟨_, rfl⟩

theorem accesses_readValue (hsize : size < 2 ^ 31) : Accesses size (readValue size) where
  fits := by
    intro n c h hfits
    rw [readValue, run_bind_of_ok _ (run_access_of_le h hfits)]
    have hend : Within n (c.position + size) := ⟨Int.add_nonneg h.position.1 (by omega), hfits⟩
    exact ⟨_, _, rfl, (h.touch hfits).move hend, rfl⟩
  throws := by
    intro n c h hlong hint
    rw [readValue, run_bind_of_error _ (run_access_of_lt h hlong hint)]
  wraps := by
    intro n c h hwraps
    obtain ⟨p, hrun⟩ := run_access_of_wraps h hsize hwraps
    rw [readValue, run_bind_of_ok _ hrun]
    exact ⟨_, _, rfl, mem_accesses_touch size c⟩
  grows := by
    intro c a ha
    rcases access_grows size c with hrun | ⟨p, hrun⟩
    · rw [stateAfter, readValue, run_bind_of_error _ hrun]
      exact ha
    · rw [stateAfter, readValue, run_bind_of_ok _ hrun]
      exact List.mem_append_left _ ha

theorem InRange.poke (h : InRange n c) (offset : Int) (bytes : List UInt8) :
    InRange n { c with memory := pokeBytes c.memory offset bytes } :=
  ⟨List.length_mapIdx.trans h.length, h.small, h.position, h.steps, h.accesses⟩

theorem accesses_writeValue {bytes : List UInt8} (hsize : bytes.length < 2 ^ 31) :
    Accesses bytes.length (writeValue bytes) where
  fits := by
    intro n c h hfits
    rw [writeValue, run_bind_of_ok _ (run_access_of_le h hfits)]
    have hend : Within n (c.position + bytes.length) :=
      ⟨Int.add_nonneg h.position.1 (by omega), hfits⟩
    exact ⟨_, _, rfl, ((h.touch hfits).move hend).poke _ _, rfl⟩
  throws := by
    intro n c h hlong hint
    rw [writeValue, run_bind_of_error _ (run_access_of_lt h hlong hint)]
  wraps := by
    intro n c h hwraps
    obtain ⟨p, hrun⟩ := run_access_of_wraps h hsize hwraps
    rw [writeValue, run_bind_of_ok _ hrun]
    exact ⟨_, _, rfl, mem_accesses_touch bytes.length c⟩
  grows := by
    intro c a ha
    rcases access_grows bytes.length c with hrun | ⟨p, hrun⟩
    · rw [stateAfter, writeValue, run_bind_of_error _ hrun]
      exact ha
    · rw [stateAfter, writeValue, run_bind_of_ok _ hrun]
      exact List.mem_append_left _ ha

variable {f : ι → EStateM Exn MemoryCursor α} {extent : ι → Nat}

theorem stateAfter_each_singleton (f : ι → EStateM Exn MemoryCursor α) (i : ι)
    (c : MemoryCursor) : stateAfter (each f [i]) c = stateAfter (f i) c := by
  cases hrun : (f i).run c with
  | ok a t =>
    rw [stateAfter, each, run_bind_of_ok _ hrun, stateAfter, hrun]
    rfl
  | error e t => rw [stateAfter, each, run_bind_of_error _ hrun, stateAfter, hrun]

theorem inRange_each (hf : ∀ i ∈ is, Accesses (extent i) (f i)) (h : InRange n c)
    (hfit : EndsFit n c.position (is.map extent)) : InRange n (stateAfter (each f is) c) := by
  induction is generalizing c with
  | nil => exact h
  | cons i is ih =>
    obtain ⟨hi, his⟩ := List.forall_mem_cons.1 hf
    obtain ⟨hint, hrest⟩ := hfit
    by_cases hle : c.position + extent i ≤ n
    · obtain ⟨a, t, hrun, ht, hposition⟩ := hi.fits h hle
      have hrest' := ih his ht (by rw [hposition]; exact hrest hle)
      rw [stateAfter, each, run_bind_of_ok _ hrun]
      exact hrest'
    · rw [stateAfter, each, run_bind_of_error _ (hi.throws h (Int.not_le.1 hle) hint)]
      exact h

theorem each_grows (hf : ∀ i ∈ is, Accesses (extent i) (f i)) (ha : a ∈ c.accesses) :
    a ∈ (stateAfter (each f is) c).accesses := by
  induction is generalizing c with
  | nil => exact ha
  | cons i is ih =>
    obtain ⟨hi, his⟩ := List.forall_mem_cons.1 hf
    have hgrown := hi.grows c a ha
    cases hrun : (f i).run c with
    | ok b t =>
      rw [stateAfter, hrun] at hgrown
      rw [stateAfter, each, run_bind_of_ok _ hrun]
      exact ih his hgrown
    | error e t =>
      rw [stateAfter, hrun] at hgrown
      rw [stateAfter, each, run_bind_of_error _ hrun]
      exact hgrown

/-- When the end of a value wraps around, the value is accessed although it is not inside. -/
theorem escapes_each (hf : ∀ i ∈ is, Accesses (extent i) (f i)) (h : InRange n c)
    (hfit : ¬ EndsFit n c.position (is.map extent)) :
    ∃ a ∈ (stateAfter (each f is) c).accesses, ¬ a.Inside n := by
  induction is generalizing c with
  | nil => exact absurd trivial hfit
  | cons i is ih =>
    obtain ⟨hi, his⟩ := List.forall_mem_cons.1 hf
    have hsmall := h.small
    by_cases hint : c.position + extent i < 2 ^ 31
    · by_cases hle : c.position + extent i ≤ n
      · obtain ⟨a, t, hrun, ht, hposition⟩ := hi.fits h hle
        have hescapes := ih his ht (by
          rw [hposition]
          intro hrest
          exact hfit ⟨hint, fun _ => hrest⟩)
        rw [stateAfter, each, run_bind_of_ok _ hrun]
        exact hescapes
      · exact absurd ⟨hint, fun hle' => absurd hle' hle⟩ hfit
    · obtain ⟨a, t, hrun, ha⟩ := hi.wraps h (Int.not_lt.1 hint)
      refine ⟨⟨c.position, extent i⟩, ?_, ?_⟩
      · rw [stateAfter, each, run_bind_of_ok _ hrun]
        exact each_grows his ha
      · rintro ⟨_, hinside⟩
        dsimp only at hinside
        omega

theorem stateAfter_peekWith (m : EStateM Exn MemoryCursor α) (c : MemoryCursor) :
    stateAfter (peekWith m) c = match m.run c with
      | .ok _ t => { t with position := c.position }
      | .error _ t => t := by
  cases hrun : m.run c with
  | ok a t => rw [stateAfter, peekWith, run_get_bind, run_bind_of_ok _ hrun, run_modify_bind]; rfl
  | error e t => rw [stateAfter, peekWith, run_get_bind, run_bind_of_error _ hrun]

theorem accesses_peekWith (m : EStateM Exn MemoryCursor α) (c : MemoryCursor) :
    (stateAfter (peekWith m) c).accesses = (stateAfter m c).accesses := by
  rw [stateAfter_peekWith, stateAfter]
  cases m.run c with
  | ok a t => rfl
  | error e t => rfl

theorem inRange_peekWith {m : EStateM Exn MemoryCursor α} (h : InRange n c)
    (hm : InRange n (stateAfter m c)) : InRange n (stateAfter (peekWith m) c) := by
  rw [stateAfter_peekWith]
  rw [stateAfter] at hm
  cases hrun : m.run c with
  | ok a t =>
    rw [hrun] at hm
    exact hm.move h.position
  | error e t =>
    rw [hrun] at hm
    exact hm

theorem getWith_of_lt (m : EStateM Exn MemoryCursor α) (h : InRange n c)
    (hvalue : n < value % 2 ^ 32) :
    (getWith m value).run c = .error .argumentOutOfRange c := by
  rw [getWith, run_get_bind, run_bind_of_error _ (run_setPosition_of_lt h hvalue)]

theorem stateAfter_getWith (m : EStateM Exn MemoryCursor α) (h : InRange n c)
    (hvalue : value % 2 ^ 32 ≤ n) :
    stateAfter (getWith m value) c = match m.run { c with position := value % 2 ^ 32 } with
      | .ok _ t => { t with position := c.position }
      | .error _ t => t := by
  have hset := run_setPosition_of_le h hvalue
  cases hrun : m.run { c with position := value % 2 ^ 32 } with
  | ok a t =>
    rw [stateAfter, getWith, run_get_bind, run_bind_of_ok _ hset, run_bind_of_ok _ hrun,
      run_modify_bind]
    rfl
  | error e t =>
    rw [stateAfter, getWith, run_get_bind, run_bind_of_ok _ hset, run_bind_of_error _ hrun]

theorem accesses_getWith (m : EStateM Exn MemoryCursor α) (h : InRange n c)
    (hvalue : value % 2 ^ 32 ≤ n) : (stateAfter (getWith m value) c).accesses =
      (stateAfter m { c with position := value % 2 ^ 32 }).accesses := by
  rw [stateAfter_getWith m h hvalue, stateAfter]
  cases m.run { c with position := value % 2 ^ 32 } with
  | ok a t => rfl
  | error e t => rfl

theorem inRange_getWith {m : EStateM Exn MemoryCursor α} (h : InRange n c)
    (hm : value % 2 ^ 32 ≤ n →
      InRange n (stateAfter m { c with position := value % 2 ^ 32 })) :
    InRange n (stateAfter (getWith m value) c) := by
  by_cases hvalue : value % 2 ^ 32 ≤ n
  · have hread := hm hvalue
    rw [stateAfter_getWith m h hvalue]
    rw [stateAfter] at hread
    cases hrun : m.run { c with position := value % 2 ^ 32 } with
    | ok a t =>
      rw [hrun] at hread
      exact hread.move h.position
    | error e t =>
      rw [hrun] at hread
      exact hread
  · rw [stateAfter, getWith_of_lt m h (Int.not_le.1 hvalue)]
    exact h

/-- `Peek<T>` checks for itself what a read that is taken back would check. -/
theorem stateAfter_peekValue (size : Nat) (c : MemoryCursor) :
    stateAfter (peekValue size) c = stateAfter (peekWith (readValue size)) c := by
  rw [stateAfter_peekWith, stateAfter, peekValue, run_get_bind, readValue, EStateM.run_bind, access,
    run_get_bind]
  by_cases hlong : (c.memory.length : Int) < wrap32 (c.position + size)
  · rw [if_pos hlong, if_pos hlong]
    rfl
  · rw [if_neg hlong, if_neg hlong]
    rfl

theorem inRange_readSpan (h : InRange n c) (count : Int) :
    InRange n (stateAfter (readSpan size count) c) := by
  have hsmall := h.small
  rw [stateAfter, readSpan, run_get_bind]
  by_cases hlong : (c.memory.length : Int) < wrap32 (c.position + wrap32 (size * count))
  · rw [if_pos hlong]
    exact h
  · rw [if_neg hlong]
    by_cases hslice : 0 ≤ c.position ∧ c.position ≤ c.memory.length ∧
        0 ≤ wrap32 (size * count) ∧ wrap32 (size * count) ≤ c.memory.length - c.position
    · rw [if_pos hslice]
      obtain ⟨hstart, _, hspan, hroom⟩ := hslice
      rw [h.length] at hroom
      have hend : c.position + wrap32 (size * count) ≤ n := by omega
      have hwrap : wrap32 (c.position + wrap32 (size * count)) =
          c.position + wrap32 (size * count) := wrap32_of_range (by omega) (by omega)
      rw [hwrap]
      have htouch : InRange n (c.touch (wrap32 (size * count)).toNat) :=
        h.touch (by rw [Int.toNat_of_nonneg hspan]; exact hend)
      exact htouch.move ⟨Int.add_nonneg hstart hspan, hend⟩
    · rw [if_neg hslice]
      exact h

end MemoryCursor

/-- The size of an unmanaged type, an `int` that is not zero. -/
abbrev TypeSize := { size : Nat // 0 < size ∧ size < 2 ^ 31 }

/-- The bytes of a value of an unmanaged type. -/
abbrev TypeBytes := { bytes : List UInt8 // 0 < bytes.length ∧ bytes.length < 2 ^ 31 }

abbrev Alignment := { alignment : Int32 // 0 < alignment.toInt }

/-- The public operations on the memory cursors. A typed read, peek, get or write accesses values
of these sizes one after another, and the generic ones a single value; `peekValue` is the generic
`Peek<T>`. -/
inductive CursorOp where
  | setPosition (value : Int64)
  | advance (count : Int32)
  | rewind (count : Int32)
  | align (alignment : Alignment)
  | alignFrom (position : Int64) (alignment : Alignment)
  | gotoStart
  | gotoEnd
  | stepIn (position : Int64)
  | stepOut
  | read (sizes : List TypeSize)
  | peekValue (size : TypeSize)
  | peek (sizes : List TypeSize)
  | get (position : Int64) (sizes : List TypeSize)
  | readSpan (size : TypeSize) (count : Int32)
  | write (values : List TypeBytes)

namespace CursorOp

open MemoryCursor

def readSizes (sizes : List TypeSize) : EStateM Exn MemoryCursor Unit :=
  each (fun size => readValue size.1) sizes

def run : CursorOp → EStateM Exn MemoryCursor Unit
  | setPosition value => MemoryCursor.setPosition value.toInt
  | advance count => MemoryCursor.advance count.toInt
  | rewind count => MemoryCursor.rewind count.toInt
  | align alignment => MemoryCursor.align alignment.1.toInt
  | alignFrom position alignment =>
    MemoryCursor.alignFrom position.toInt alignment.1.toInt
  | gotoStart => MemoryCursor.gotoStart
  | gotoEnd => MemoryCursor.gotoEnd
  | stepIn position => MemoryCursor.stepIn position.toInt
  | stepOut => MemoryCursor.stepOut
  | read sizes => readSizes sizes
  | peekValue size => each (fun size => MemoryCursor.peekValue size.1) [size]
  | peek sizes => peekWith (readSizes sizes)
  | get position sizes => getWith (readSizes sizes) position.toInt
  | readSpan size count => each (fun count => MemoryCursor.readSpan size.1 count.toInt) [count]
  | write values => each (fun bytes => writeValue bytes.1) values

/-- The cursor after an operation, whether it returned or threw. -/
def next (op : CursorOp) (c : MemoryCursor) : MemoryCursor := stateAfter op.run c

/-- The operation throws or leaves the position in the region, an assignment has assigned what it
was given, and whatever was accessed is in the region. -/
def Contained (n : Nat) (op : CursorOp) (c : MemoryCursor) : Prop :=
  (∀ a ∈ (next op c).accesses, a.Inside n) ∧
    ∀ t, op.run.run c = .ok () t → Within n t.position ∧
      ∀ value, op = setPosition value → t.position = value.toInt

/-- The condition under which it does so, on its arguments and the position before it. -/
def Guard (n : Nat) (op : CursorOp) (c : MemoryCursor) : Prop :=
  match op with
  | setPosition value => n < value.toInt % 2 ^ 32 ∨ Within n value.toInt
  | advance count => Within n (c.position + count.toInt)
  | rewind count => Within n (c.position - count.toInt)
  | align alignment => c.position.tmod alignment.1.toInt = 0 ∨
      c.position + (alignment.1.toInt - c.position.tmod alignment.1.toInt) ≤ n
  | read sizes => EndsFit n c.position (sizes.map Subtype.val)
  | peekValue size => EndsFit n c.position [size.1]
  | peek sizes => EndsFit n c.position (sizes.map Subtype.val)
  | get position sizes =>
    position.toInt % 2 ^ 32 ≤ n → EndsFit n (position.toInt % 2 ^ 32) (sizes.map Subtype.val)
  | write values => EndsFit n c.position (values.map fun bytes => bytes.1.length)
  | _ => True

instance (n : Nat) (op : CursorOp) (c : MemoryCursor) : Decidable (Guard n op c) :=
  match op with
  | setPosition value =>
    inferInstanceAs (Decidable (n < value.toInt % 2 ^ 32 ∨ Within n value.toInt))
  | advance count => inferInstanceAs (Decidable (Within n (c.position + count.toInt)))
  | rewind count => inferInstanceAs (Decidable (Within n (c.position - count.toInt)))
  | align alignment => inferInstanceAs (Decidable (c.position.tmod alignment.1.toInt = 0 ∨
      c.position + (alignment.1.toInt - c.position.tmod alignment.1.toInt) ≤ n))
  | read sizes => inferInstanceAs (Decidable (EndsFit n c.position (sizes.map Subtype.val)))
  | peekValue size => inferInstanceAs (Decidable (EndsFit n c.position [size.1]))
  | peek sizes => inferInstanceAs (Decidable (EndsFit n c.position (sizes.map Subtype.val)))
  | get position sizes => inferInstanceAs (Decidable (position.toInt % 2 ^ 32 ≤ n →
      EndsFit n (position.toInt % 2 ^ 32) (sizes.map Subtype.val)))
  | write values => inferInstanceAs (Decidable
      (EndsFit n c.position (values.map fun bytes => bytes.1.length)))
  | alignFrom _ _ | gotoStart | gotoEnd | stepIn _ | stepOut | readSpan _ _ => isTrue trivial

variable {n : Nat} {op : CursorOp} {c : MemoryCursor} {x : Int}

theorem within_wrap32 (hn : n < 2 ^ 31) (hlow : -2 ^ 31 ≤ x) (hhigh : x < 2 ^ 32) :
    Within n (wrap32 x) ↔ Within n x := by
  unfold Within wrap32
  omega

theorem within_advance (h : InRange n c) (count : Int32) :
    Within n (wrap32 (c.position + count.toInt)) ↔ Within n (c.position + count.toInt) := by
  have hsmall := h.small
  have hposition := h.position
  have hlow := count.le_toInt
  have hhigh := count.toInt_lt
  unfold Within at hposition
  exact within_wrap32 hsmall (by omega) (by omega)

theorem within_rewind (h : InRange n c) (count : Int32) :
    Within n (wrap32 (c.position - count.toInt)) ↔ Within n (c.position - count.toInt) := by
  have hsmall := h.small
  have hposition := h.position
  have hlow := count.le_toInt
  have hhigh := count.toInt_lt
  unfold Within at hposition
  exact within_wrap32 hsmall (by omega) (by omega)

theorem within_align (h : InRange n c) (alignment : Alignment) :
    let remainder := c.position.tmod alignment.1.toInt
    Within n (wrap32 (c.position + (alignment.1.toInt - remainder))) ↔
      c.position + (alignment.1.toInt - remainder) ≤ n := by
  intro remainder
  have hsmall := h.small
  have hposition := h.position
  have hpositive := alignment.2
  have hhigh := alignment.1.toInt_lt
  have hnonneg : 0 ≤ remainder := Int.tmod_nonneg _ hposition.1
  have hlt : remainder < alignment.1.toInt := Int.tmod_lt_of_pos _ hpositive
  unfold Within at hposition
  rw [within_wrap32 hsmall (by omega) (by omega), Within]
  exact and_iff_right (by omega)

theorem run_align (alignment : Alignment) (c : MemoryCursor) :
    let remainder := c.position.tmod alignment.1.toInt
    let p := wrap32 (c.position + (alignment.1.toInt - remainder))
    (align alignment).run.run c =
      .ok () (if 0 < remainder then { c with position := p } else c) := by
  have hne : alignment.1.toInt ≠ 0 := Int.ne_of_gt alignment.2
  rw [run, MemoryCursor.align, if_neg hne]
  rfl

theorem run_alignFrom (position : Int64) (alignment : Alignment) :
    ∃ value, (alignFrom position alignment).run = MemoryCursor.setPosition value := by
  have hne : alignment.1.toInt ≠ 0 := Int.ne_of_gt alignment.2
  rw [run, MemoryCursor.alignFrom, if_neg hne]
  exact ⟨_, rfl⟩

theorem accesses_readSizes (sizes : List TypeSize) :
    ∀ size ∈ sizes, Accesses size.1 (readValue size.1) :=
  fun size _ => accesses_readValue size.2.2

theorem inRange_next (h : InRange n c) (hguard : Guard n op c) : InRange n (next op c) := by
  cases op with
  | setPosition value => exact inRange_setPosition h
  | advance count => exact h.move ((within_advance h count).2 hguard)
  | rewind count => exact h.move ((within_rewind h count).2 hguard)
  | align alignment =>
    rw [next, stateAfter, run_align]
    dsimp only
    split
    · rename_i hremainder
      rcases hguard with hzero | hle
      · exact absurd hzero (Int.ne_of_gt hremainder)
      · exact h.move ((within_align h alignment).2 hle)
    · exact h
  | alignFrom position alignment =>
    obtain ⟨value, hrun⟩ := run_alignFrom position alignment
    rw [next, hrun]
    exact inRange_setPosition h
  | gotoStart => exact h.move ⟨Int.le_refl 0, Int.natCast_nonneg n⟩
  | gotoEnd =>
    refine h.move ?_
    rw [h.length]
    exact ⟨Int.natCast_nonneg n, Int.le_refl _⟩
  | stepIn position => exact inRange_setPosition h.push
  | stepOut =>
    rw [next, run, stateAfter, MemoryCursor.stepOut, run_get_bind]
    cases hsteps : c.steps with
    | nil => exact h
    | cons position steps =>
      obtain ⟨hposition, hrest⟩ := List.forall_mem_cons.1 (hsteps ▸ h.steps)
      exact ⟨h.length, h.small, hposition, hrest, h.accesses⟩
  | read sizes => exact inRange_each (accesses_readSizes sizes) h hguard
  | peekValue size =>
    rw [next, run, stateAfter_each_singleton, stateAfter_peekValue]
    apply inRange_peekWith h
    rw [← stateAfter_each_singleton (fun size : TypeSize => readValue size.1)]
    exact inRange_each (accesses_readSizes [size]) h hguard
  | peek sizes =>
    exact inRange_peekWith h (inRange_each (accesses_readSizes sizes) h hguard)
  | get position sizes =>
    apply inRange_getWith h
    intro hvalue
    have hmoved := h.move ⟨Int.emod_nonneg _ (by decide), hvalue⟩
    exact inRange_each (accesses_readSizes sizes) hmoved (hguard hvalue)
  | readSpan size count =>
    rw [next, run, stateAfter_each_singleton]
    exact inRange_readSpan h _
  | write values =>
    exact inRange_each (fun bytes _ => accesses_writeValue bytes.2.2) h hguard

theorem guard_of_contained (h : InRange n c) (hc : Contained n op c) : Guard n op c := by
  cases op with
  | setPosition value =>
    by_cases hvalue : value.toInt % 2 ^ 32 ≤ n
    · obtain ⟨hwithin, hassigned⟩ := hc.2 _ (run_setPosition_of_le h hvalue)
      rw [hassigned value rfl] at hwithin
      exact .inr hwithin
    · exact .inl (Int.not_le.1 hvalue)
  | advance count => exact (within_advance h count).1 (hc.2 _ rfl).1
  | rewind count => exact (within_rewind h count).1 (hc.2 _ rfl).1
  | align alignment =>
    by_cases hremainder : 0 < c.position.tmod alignment.1.toInt
    · have hwithin := (hc.2 _ (run_align alignment c)).1
      rw [if_pos hremainder] at hwithin
      exact .inr ((within_align h alignment).1 hwithin)
    · have hnonneg := Int.tmod_nonneg alignment.1.toInt h.position.1
      exact .inl (Int.le_antisymm (Int.not_lt.1 hremainder) hnonneg)
  | read sizes =>
    by_contra hguard
    obtain ⟨a, ha, hout⟩ := escapes_each (accesses_readSizes sizes) h hguard
    exact hout (hc.1 a ha)
  | peekValue size =>
    by_contra hguard
    obtain ⟨a, ha, hout⟩ := escapes_each (accesses_readSizes [size]) h hguard
    rw [stateAfter_each_singleton, ← accesses_peekWith, ← stateAfter_peekValue,
      ← stateAfter_each_singleton (fun size : TypeSize => MemoryCursor.peekValue size.1)] at ha
    exact hout (hc.1 a ha)
  | peek sizes =>
    by_contra hguard
    obtain ⟨a, ha, hout⟩ := escapes_each (accesses_readSizes sizes) h hguard
    rw [← accesses_peekWith] at ha
    exact hout (hc.1 a ha)
  | get position sizes =>
    intro hvalue
    by_contra hguard
    have hmoved := h.move ⟨Int.emod_nonneg _ (by decide), hvalue⟩
    obtain ⟨a, ha, hout⟩ := escapes_each (accesses_readSizes sizes) hmoved hguard
    rw [← accesses_getWith _ h hvalue] at ha
    exact hout (hc.1 a ha)
  | write values =>
    by_contra hguard
    obtain ⟨a, ha, hout⟩ :=
      escapes_each (fun bytes _ => accesses_writeValue bytes.2.2) h hguard
    exact hout (hc.1 a ha)
  | alignFrom | gotoStart | gotoEnd | stepIn | stepOut | readSpan => trivial

theorem contained_iff_guard (op : CursorOp) (c : MemoryCursor) (h : InRange n c) :
    Contained n op c ↔ Guard n op c := by
  refine ⟨guard_of_contained h, ?_⟩
  intro hguard
  have hnext := inRange_next h hguard
  refine ⟨hnext.accesses, ?_⟩
  intro t hrun
  rw [next, stateAfter_of_ok hrun] at hnext
  refine ⟨hnext.position, ?_⟩
  rintro value rfl
  rcases hguard with hlt | hwithin
  · cases (run_setPosition_of_lt h hlt).symm.trans hrun
  · have hsmall := h.small
    have hmod : value.toInt % 2 ^ 32 = value.toInt := by
      unfold Within at hwithin
      omega
    have hle : value.toInt % 2 ^ 32 ≤ n := hmod.trans_le hwithin.2
    cases (run_setPosition_of_le h hle).symm.trans hrun
    exact hmod

end CursorOp

namespace BinarySpanReader

/-- The bytes of the value that `Get<T>` returns. -/
def get (buffer : List UInt8) (outside : Int → UInt8) (size : Nat) (position : Int) :
    Traced MemoryAccess Exn (List UInt8) :=
  if buffer.length < wrap32 (position + size) then throw .invalidOperation
  else do
    Traced.emit ⟨position, size⟩
    return peekBytes buffer outside position size

/-- The condition under which it accesses only what is in the span. -/
def GetFits (n size : Nat) (position : Int) : Prop :=
  if 0 ≤ position then position + size < 2 ^ 31 else n < position + size

instance (n size : Nat) (position : Int) : Decidable (GetFits n size position) :=
  inferInstanceAs (Decidable
    (if 0 ≤ position then position + size < 2 ^ 31 else n < position + size))

theorem get_inside_iff (buffer : List UInt8) (outside : Int → UInt8) (size : TypeSize)
    (position : Int32) (hsmall : buffer.length < 2 ^ 31) :
    (∀ a ∈ (get buffer outside size.1 position.toInt).events, a.Inside buffer.length) ↔
      GetFits buffer.length size.1 position.toInt := by
  have hlow := position.le_toInt
  have hhigh := position.toInt_lt
  have hsize := size.2
  rw [get]
  by_cases hlong : (buffer.length : Int) < wrap32 (position.toInt + size.1)
  · rw [if_pos hlong]
    refine iff_of_true nofun ?_
    unfold GetFits
    unfold wrap32 at hlong
    split <;> omega
  · rw [if_neg hlong]
    have hevents : (∀ a ∈ [(⟨position.toInt, size.1⟩ : MemoryAccess)], a.Inside buffer.length) ↔
        GetFits buffer.length size.1 position.toInt := by
      rw [List.forall_mem_singleton, MemoryAccess.Inside, GetFits]
      unfold wrap32 at hlong
      dsimp only
      split <;> omega
    exact hevents

end BinarySpanReader

/-- The memory cursors stay in their region, and the span reader in its span, exactly as long as
no operation steps over an end unchecked. -/
theorem memory_contained_iff (memory : List UInt8) (hsmall : memory.length < 2 ^ 31)
    (outside : Int → UInt8) :
    (∀ bigEndian ops,
      AllSteps CursorOp.next (CursorOp.Contained memory.length) ops
          (.new memory outside bigEndian) ↔
        AllSteps CursorOp.next (CursorOp.Guard memory.length) ops
          (.new memory outside bigEndian)) ∧
      ∀ (size : TypeSize) (position : Int32),
        (∀ a ∈ (BinarySpanReader.get memory outside size.1 position.toInt).events,
            a.Inside memory.length) ↔
          BinarySpanReader.GetFits memory.length size.1 position.toInt := by
  refine ⟨?_, fun size position => BinarySpanReader.get_inside_iff _ _ size position hsmall⟩
  intro bigEndian ops
  have hnew : MemoryCursor.InRange memory.length (.new memory outside bigEndian) :=
    ⟨rfl, hsmall, ⟨Int.le_refl 0, Int.natCast_nonneg _⟩, nofun, nofun⟩
  refine allSteps_iff CursorOp.contained_iff_guard ?_ hnew
  intro op c h hc
  exact CursorOp.inRange_next h (CursorOp.guard_of_contained h hc)

def sampleSize (size : Fin 16) : TypeSize := ⟨size + 1, Nat.succ_pos size, by omega⟩

/-- A region of eight bytes is written to, read to its end and written to again. -/
def sampleCursorOps : List CursorOp :=
  [.write [⟨[9, 10], by decide⟩], .read [sampleSize 3, sampleSize 1], .rewind 4,
    .peekValue (sampleSize 3), .setPosition 6, .write [⟨[11], by decide⟩, ⟨[12], by decide⟩]]

theorem memory_contained_sample :
    AllSteps CursorOp.next (CursorOp.Contained 8) sampleCursorOps
        (.new [1, 2, 3, 4, 5, 6, 7, 8] (fun _ => 0) false) ∧
      ∀ a ∈ (BinarySpanReader.get [1, 2, 3, 4, 5, 6, 7, 8] (fun _ => 0) 4 4).events,
        a.Inside 8 := by
  obtain ⟨hcursor, hspan⟩ :=
    memory_contained_iff [1, 2, 3, 4, 5, 6, 7, 8] (by decide) fun _ => 0
  exact ⟨(hcursor false sampleCursorOps).2 (by decide), (hspan (sampleSize 3) 4).2 (by decide)⟩

/-- Going back from the start of a region is not checked. -/
theorem rewind_leaves_region : ¬ ∀ (memory : List UInt8) (outside : Int → UInt8) (bigEndian : Bool)
    (ops : List CursorOp), memory.length < 2 ^ 31 →
    AllSteps CursorOp.next (CursorOp.Contained memory.length) ops
      (.new memory outside bigEndian) := by
  intro h
  obtain ⟨⟨_, hposition⟩, _⟩ := h [] (fun _ => 0) false [.rewind 1] (by decide)
  exact absurd (hposition _ rfl).1.1 (by decide)

end AcOpenServer
