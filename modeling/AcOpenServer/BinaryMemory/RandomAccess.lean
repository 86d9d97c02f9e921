import AcOpenServer.BinaryMemory.StreamWalks

namespace AcOpenServer
open Library
set_option autoImplicit true

/-- A `Get` at a position, or a `Peek`. -/
inductive Lookup where
  | get (position : Int)
  | peek
  deriving DecidableEq, Repr

namespace MemoryContents

variable (k : MemoryContents)

/-- A value that is read at once is not read in part, so that a `Peek` of it does not move. -/
theorem stopsAtStart_value (size : Nat) (p : Int) : (k.value size).StopsAtStart p := by
  have hbytes : (k.bytes size).StopsAtStart p := by
    rw [Walk.StopsAtStart, StateT.run, bytes]
    by_cases hlong : (k.memory.length : Int) < wrap32 (p + size)
    · rw [if_pos hlong]
    · rw [if_neg hlong]
      trivial
  exact hbytes.unseen

theorem stopsAtStart_span (size : Nat) (count p : Int) : (k.span size count).StopsAtStart p := by
  rw [Walk.StopsAtStart, StateT.run, span]
  by_cases hlong : (k.memory.length : Int) < wrap32 (p + wrap32 (size * count))
  · rw [if_pos hlong]
  · rw [if_neg hlong]
    by_cases hslice : 0 ≤ p ∧ p ≤ k.memory.length ∧
        0 ≤ wrap32 (size * count) ∧ wrap32 (size * count) ≤ k.memory.length - p
    · rw [if_pos hslice]
      trivial
    · rw [if_neg hslice]

theorem stopsAtStart_get_value_iff (size : Nat) (position p : Int) :
    (do
        k.goTo position
        k.value size).StopsAtStart p ↔
      k.memory.length < position % 2 ^ 32 ∨
        wrap32 (wrap32 position + size) ≤ k.memory.length ∨ wrap32 position = p := by
  by_cases hrefused : k.memory.length < position % 2 ^ 32
  · have hwalk : (k.goTo position).run p = .error p := if_pos hrefused
    rw [Walk.StopsAtStart, Walk.run_bind_of_error _ hwalk]
    exact iff_of_true rfl (.inl hrefused)
  · have hwalk : (k.goTo position).run p = .ok ((), wrap32 position) := if_neg hrefused
    rw [Walk.StopsAtStart, Walk.run_bind_of_ok _ hwalk, or_iff_right hrefused, value, Walk.unseen]
    by_cases hlong : (k.memory.length : Int) < wrap32 (wrap32 position + size)
    · have hbytes : (k.bytes size).run (wrap32 position) = .error (wrap32 position) := if_pos hlong
      rw [Walk.run_bind_of_error _ hbytes]
      exact (or_iff_right (Int.not_le.2 hlong)).symm
    · have hbytes : (k.bytes size).run (wrap32 position) = .ok (_, _) := if_neg hlong
      rw [Walk.run_bind_of_ok _ hbytes]
      exact iff_of_true trivial (.inl (Int.not_lt.1 hlong))

end MemoryContents

namespace MemoryAccessor

open BinaryMemoryReader MemoryCursor

variable (native : AccessNative) (variableValueSize : Int)

def lookup (a : MemoryAccessor) : Lookup → EStateM Exn BinaryMemoryReader a.Value
  | .get position => a.getAt native variableValueSize position
  | .peek => a.peek native variableValueSize

/-- The read of the same name where a lookup is for. -/
def moveAndRead (a : MemoryAccessor) : Lookup → EStateM Exn BinaryMemoryReader a.Value
  | .get position => do
    setPosition position
    a.read native variableValueSize
  | .peek => a.read native variableValueSize

def route (k : MemoryContents) (a : MemoryAccessor) : Lookup → Walk Int Unit
  | .get position => do
    k.goTo position
    a.walk k variableValueSize
  | .peek => a.walk k variableValueSize

theorem walks_moveAndRead (k : MemoryContents) (a : MemoryAccessor) (look : Lookup) :
    Walks places k (a.moveAndRead native variableValueSize look) (fun _ => ())
      (a.route variableValueSize k look) := by
  have hread := walks_read native variableValueSize k a
  cases look with
  | get position => exact (walks_setPosition position).bind fun _ => hread
  | peek => exact hread

theorem lookup_eq_goBack (a : MemoryAccessor) (look : Lookup) :
    a.lookup native variableValueSize look =
      goBack position (fun position => modify fun c => { c with position })
        (a.moveAndRead native variableValueSize look) := by
  cases look with
  | get position =>
    rw [lookup, getAt_eq, getWith, goBack, moveAndRead]
    simp only [bind_assoc]
  | peek =>
    rw [lookup, peek_eq]
    rfl

theorem leavesAlone_lookup_iff (a : MemoryAccessor) (look : Lookup) (c : MemoryCursor) :
    LeavesAlone position (a.lookup native variableValueSize look)
        (a.moveAndRead native variableValueSize look) c ↔
      (a.route variableValueSize (places.contents c) look).StopsAtStart c.position := by
  have hwalks := walks_moveAndRead native variableValueSize (places.contents c) a look
  rw [lookup_eq_goBack]
  refine (hwalks.leavesAlone_goBack_iff ?_).trans (and_iff_right (sameOutcome_refl _))
  intro t
  exact ⟨_, rfl, rfl⟩

end MemoryAccessor

namespace StreamContents

/-- The value of a type that stands at a position. -/
def valueAt (k : StreamContents) (α : Type) [Layout α] (p : Nat) : α :=
  let value : α := Layout.decode ((k.bytes.drop p).take (Layout.size α))
  if k.bigEndian then reverseEndianness value else value

/-- If an `Int16` stands at a position, an `Int32` of the same value does. -/
def SameAsInt16 (k : StreamContents) (p : Nat) : Prop :=
  p + 2 ≤ k.bytes.length →
    p + 4 ≤ k.bytes.length ∧ (k.valueAt Int16 p).toInt32 = k.valueAt Int32 p

instance (k : StreamContents) : DecidablePred k.SameAsInt16 :=
  fun _ => inferInstanceAs (Decidable (_ → _))

end StreamContents

namespace BinaryStreamReader

open StreamCursor

variable {c : StreamCursor} {size : Nat}

theorem run_setPosition_of_inRange (h : 0 ≤ target ∧ target < 2 ^ 31) (c : StreamCursor) :
    (setPosition target).run c = .ok () (c.goTo target.toNat) := by
  rw [setPosition, if_neg (by omega)]
  rfl

theorem run_setPosition_of_refused (h : ¬ (0 ≤ target ∧ target < 2 ^ 31)) (c : StreamCursor) :
    (setPosition target).run c = .error .argumentOutOfRange c := by
  rw [setPosition, if_pos (by omega)]
  rfl

theorem run_readEndian_of_le (α : Type) [Layout α]
    (h : c.stream.position + Layout.size α ≤ c.stream.bytes.length) :
    (readEndian α).run c = .ok ((places.contents c).valueAt α c.stream.position)
      (c.goTo (c.stream.position + Layout.size α)) := by
  have hcontents : (places.contents c).bigEndian = c.bigEndian := rfl
  have hbig : (c.goTo (c.stream.position + Layout.size α)).bigEndian = c.bigEndian := rfl
  have hread : (internalRead (Layout.size α)).run c =
      .ok ((c.stream.bytes.drop c.stream.position).take (Layout.size α))
        (c.goTo (c.stream.position + Layout.size α)) := by
    rw [internalRead, run_get_bind, if_pos h]
    rfl
  rw [readEndian, readLittleEndian, bind_assoc, run_bind_of_ok _ hread, pure_bind,
    setValueEndianness, run_get_bind, hbig, StreamContents.valueAt, hcontents]
  cases c.bigEndian with
  | true => rfl
  | false => rfl

theorem run_readEndian_of_lt (α : Type) [Layout α]
    (h : ¬ c.stream.position + Layout.size α ≤ c.stream.bytes.length) :
    (readEndian α).run c = .error .endOfStream (c.goTo c.stream.bytes.length) := by
  have hread : (internalRead (Layout.size α)).run c =
      .error .endOfStream (c.goTo c.stream.bytes.length) := by
    rw [internalRead, run_get_bind, if_neg h]
    rfl
  rw [readEndian, readLittleEndian, bind_assoc, run_bind_of_error _ hread]

/-- What `GetInt32` reads. -/
def readInt16AsInt32 : EStateM Exn BinaryStreamReader Int32 := do return (← readInt16).toInt32

theorem sameOutcome_readInt32_iff (c : StreamCursor) :
    SameOutcome (readInt16AsInt32.run c) (readInt32.run c) ↔
      (places.contents c).SameAsInt16 c.stream.position := by
  have hlength : (places.contents c).bytes = c.stream.bytes := rfl
  rw [readInt16AsInt32, readInt16, readInt32, StreamContents.SameAsInt16, hlength]
  by_cases hshort : c.stream.position + 2 ≤ c.stream.bytes.length
  · rw [run_bind_of_ok _ (run_readEndian_of_le Int16 hshort), imp_iff_right hshort]
    by_cases hlong : c.stream.position + 4 ≤ c.stream.bytes.length
    · rw [run_readEndian_of_le Int32 hlong, and_iff_right hlong]
      exact Iff.rfl
    · rw [run_readEndian_of_lt Int32 hlong]
      exact iff_of_false (fun hfalse => hfalse) fun hand => hlong hand.1
  · have hlong : ¬ c.stream.position + Layout.size Int32 ≤ c.stream.bytes.length := by
      have hsize : Layout.size Int32 = 4 := rfl
      omega
    rw [run_bind_of_error _ (run_readEndian_of_lt Int16 hshort), run_readEndian_of_lt Int32 hlong]
    exact iff_of_true trivial fun hle => absurd hle hshort

end BinaryStreamReader

namespace StreamAccessor

open BinaryStreamReader StreamCursor

variable (native : AccessNative)

def lookup (a : StreamAccessor) : Lookup → EStateM Exn BinaryStreamReader a.Value
  | .get position => a.getAt native position
  | .peek => a.peek native

/-- The read of the same name where a lookup is for. -/
def moveAndRead (a : StreamAccessor) : Lookup → EStateM Exn BinaryStreamReader a.Value
  | .get position => do
    setPosition position
    a.read native
  | .peek => a.read native

/-- The type that is read by a `Get`. -/
def passed : StreamAccessor → StreamAccessor
  | scalar .int32 => scalar .int16
  | a => a

def route (k : StreamContents) (a : StreamAccessor) : Lookup → Walk Nat Unit
  | .get position => do
    StreamContents.goTo position
    a.passed.walk k
  | .peek => a.walk k

/-- What is read is what there would be of the type that is asked for. -/
def ReadsItsType (k : StreamContents) : Lookup → StreamAccessor → Prop
  | .get position, scalar .int32 =>
    0 ≤ position ∧ position < 2 ^ 31 → k.SameAsInt16 position.toNat
  | _, _ => True

variable {native} {a : StreamAccessor} {c : StreamCursor} {k : StreamContents}

theorem passed_of_ne (h : a ≠ scalar .int32) : a.passed = a := by
  cases a with
  | scalar type =>
    cases type with
    | int32 => exact absurd rfl h
    | _ => rfl
  | _ => rfl

theorem readsItsType_of_ne (h : a ≠ scalar .int32) (look : Lookup) : a.ReadsItsType k look := by
  cases look with
  | get position =>
    cases a with
    | scalar type =>
      cases type with
      | int32 => exact absurd rfl h
      | _ => trivial
    | _ => trivial
  | peek => trivial

def back (oldpos : Nat) : EStateM Exn BinaryStreamReader Unit := setPosition oldpos

theorem getWith_eq_goBack (m : EStateM Exn BinaryStreamReader α) (position : Int) :
    getWith m position =
      goBack places.place back (do
        setPosition position
        m) := by
  rw [getWith, goBack]
  simp only [bind_assoc]
  rfl

theorem getInt32_eq_goBack (position : Int) :
    (scalar .int32).getAt native position =
      goBack places.place back (do
        setPosition position
        readInt16AsInt32) := by
  change (do return (← getWith readInt16 position).toInt32 : EStateM Exn _ Int32) = _
  rw [getWith, goBack, readInt16AsInt32]
  simp only [bind_assoc, pure_bind]
  rfl

theorem sameOutcome_getInt32_iff (position : Int) (c : StreamCursor) :
    SameOutcome ((do
        setPosition position
        readInt16AsInt32).run c) ((do
        setPosition position
        readInt32).run c) ↔
      (scalar .int32).ReadsItsType (places.contents c) (.get position) := by
  rw [ReadsItsType]
  by_cases hrange : 0 ≤ position ∧ position < 2 ^ 31
  · have hset := run_setPosition_of_inRange hrange c
    rw [run_bind_of_ok _ hset, run_bind_of_ok _ hset, sameOutcome_readInt32_iff,
      imp_iff_right hrange]
    exact Iff.rfl
  · have hset := run_setPosition_of_refused hrange c
    rw [run_bind_of_error _ hset, run_bind_of_error _ hset]
    exact iff_of_true trivial fun hand => absurd hand hrange

theorem goesBack (h : c.stream.position < 2 ^ 31) (t : StreamCursor) :
    ∃ u, (back (places.place c)).run t = .ok () u ∧ places.place u = places.place c := by
  have hrange : 0 ≤ (c.stream.position : Int) ∧ (c.stream.position : Int) < 2 ^ 31 := by omega
  exact ⟨_, run_setPosition_of_inRange hrange t, Int.toNat_natCast _⟩

theorem walks_moveTo {m : EStateM Exn BinaryStreamReader α} {w : Walk Nat Unit}
    (hm : Walks places k m (fun _ => ()) w) (position : Int) :
    Walks places k (do
        setPosition position
        m) (fun _ => ()) (do
        StreamContents.goTo position
        w) := by
  apply (walks_setPosition position).bind
  intro _
  exact hm

/-- A lookup that throws must do so where it has started, and it must read its own type. -/
theorem leavesAlone_lookup_iff (native : AccessNative) (a : StreamAccessor) (look : Lookup)
    (h : c.stream.position < 2 ^ 31) :
    LeavesAlone places.place (a.lookup native look) (a.moveAndRead native look) c ↔
      (a.route (places.contents c) look).StopsAtStart c.stream.position ∧
        a.ReadsItsType (places.contents c) look := by
  cases look with
  | peek =>
    have hread := walks_read native (places.contents c) a
    rw [lookup, peek_eq]
    refine (hread.leavesAlone_goBack_iff (goesBack h)).trans ?_
    exact (and_iff_right (sameOutcome_refl _)).trans (and_iff_left trivial).symm
  | get position =>
    by_cases hint : a = scalar .int32
    · subst hint
      have hread : Walks places (places.contents c) readInt16AsInt32 (fun _ => ())
          ((places.contents c).scalar .int16) := (walks_readScalar .int16).map fun _ => rfl
      rw [lookup, getInt32_eq_goBack]
      refine ((walks_moveTo hread position).leavesAlone_goBack_iff (goesBack h)).trans ?_
      rw [and_comm]
      exact and_congr_right fun _ => sameOutcome_getInt32_iff position c
    · have hread := walks_read native (places.contents c) a
      rw [lookup, getAt_eq native hint, getWith_eq_goBack, route, passed_of_ne hint]
      refine ((walks_moveTo hread position).leavesAlone_goBack_iff (goesBack h)).trans ?_
      have htype : a.ReadsItsType (places.contents c) (.get position) := readsItsType_of_ne hint _
      exact (and_iff_right (sameOutcome_refl _)).trans (and_iff_left htype).symm

end StreamAccessor

/-- `Get` and `Peek` leave the cursor alone exactly if what they read stops nowhere but at the
position they start from. `GetInt32` of a stream reads an `Int16`, which must come to the same. -/
theorem lookups_leaveAlone_iff (native : AccessNative) (variableValueSize : Int) (look : Lookup) :
    (∀ (a : MemoryAccessor) (c : MemoryCursor),
      LeavesAlone MemoryCursor.position (a.lookup native variableValueSize look)
          (a.moveAndRead native variableValueSize look) c ↔
        (a.route variableValueSize (MemoryCursor.places.contents c) look).StopsAtStart
          c.position) ∧
    ∀ (a : StreamAccessor) (bytes : List UInt8) (position : Fin (2 ^ 31)) (bigEndian : Bool),
      LeavesAlone StreamCursor.places.place (a.lookup native look) (a.moveAndRead native look)
          ⟨⟨bytes, position⟩, bigEndian⟩ ↔
        (a.route ⟨bytes, bigEndian⟩ look).StopsAtStart position ∧
          a.ReadsItsType ⟨bytes, bigEndian⟩ look := by
  constructor
  · intro a c
    exact a.leavesAlone_lookup_iff native variableValueSize look c
  · intro a bytes position bigEndian
    exact StreamAccessor.leavesAlone_lookup_iff (c := ⟨⟨bytes, position⟩, bigEndian⟩) native a look
      position.2

/-- The encodings, as they are for text in ASCII. -/
def asciiAccess : AccessNative where
  toFieldNative := asciiField
  eucJP := asciiNative.ascii
  eucCN := asciiNative.ascii
  eucKR := asciiNative.ascii

/-- A `Get` that is refused its second byte stays at the first one, and `GetInt32` of a stream
returns 1 for 65537. -/
theorem lookups_not_leaveAlone :
    ¬ LeavesAlone MemoryCursor.position
        ((MemoryAccessor.element .int16).lookup asciiAccess 4 (.get 1))
        ((MemoryAccessor.element .int16).moveAndRead asciiAccess 4 (.get 1))
        (.new [0, 0] (fun _ => 0) false) ∧
      ¬ LeavesAlone StreamCursor.places.place
        ((StreamAccessor.scalar .int32).lookup asciiAccess (.get 0))
        ((StreamAccessor.scalar .int32).moveAndRead asciiAccess (.get 0))
        (.new [1, 0, 1, 0] false) := by
  constructor
  · rw [MemoryAccessor.leavesAlone_lookup_iff]
    decide
  · rw [StreamAccessor.leavesAlone_lookup_iff _ _ _ (by decide)]
    rintro ⟨-, htype⟩
    exact absurd (htype (by decide)) (by decide)

end AcOpenServer
