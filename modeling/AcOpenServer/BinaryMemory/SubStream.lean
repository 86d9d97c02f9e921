import AcOpenServer.BinaryMemory.BaseStream
import AcOpenServer.Library.Keeps
import AcOpenServer.Library.Trace

namespace AcOpenServer
open Library
set_option autoImplicit true

/-- A part of another stream. -/
structure SubStream where
  baseStream : BaseStream
  offset : Int
  length : Int
  deriving DecidableEq, Repr

namespace SubStream

def position (s : SubStream) : Int := wrap64 (s.baseStream.position - s.offset)

/-- Use the base stream. -/
def onBase (m : EStateM Exn BaseStream α) : EStateM Exn SubStream α :=
  zoom baseStream (fun baseStream s => { s with baseStream }) m

def new (baseStream : BaseStream) (offset length : Int) : Except Exn SubStream :=
  if offset < 0 then throw .argumentOutOfRange
  else if baseStream.length ≤ offset then throw .argumentOutOfRange
  else if baseStream.length < wrap64 (offset + length) then throw .argumentOutOfRange
  else
    match (BaseStream.seek offset .begin).run baseStream with
    | .ok _ baseStream => return { baseStream, offset, length }
    | .error e _ => throw e

/-- The property `Position`. -/
def setPosition (value : Int) : EStateM Exn SubStream Unit := do
  let s ← get
  let newPosition := wrap64 (s.offset + value)
  if newPosition < s.offset then throw .io
  else if wrap64 (s.offset + s.length) < newPosition then throw .io
  else onBase (BaseStream.setPosition newPosition)

/-- What is left of the window. -/
def possible (s : SubStream) : Int := wrap64 (s.length - s.position)

/-- `Read` into a part of an array of this length. -/
def read (bufferLength : Nat) (offset count : Int) : EStateM Exn SubStream (List UInt8) := do
  let s ← get
  onBase (BaseStream.readArray bufferLength offset
    (if s.possible < count then wrap32 s.possible else count))

/-- `Read` into a span of this length. -/
def readSpan (length : Nat) : EStateM Exn SubStream (List UInt8) := do
  let s ← get
  let possible := wrap32 s.possible
  if possible < length then
    if possible < 0 then throw .overflow else onBase (BaseStream.read possible.toNat)
  else onBase (BaseStream.read length)

/-- Where `Seek` goes. -/
def newPosition (s : SubStream) (offset : Int) : SeekOrigin → Option Int
  | .begin => some (wrap64 (s.offset + offset))
  | .current => some (wrap64 (s.baseStream.position + offset))
  | .end => some (wrap64 (s.offset + s.length + offset))
  | .other => none

def seek (offset : Int) (origin : SeekOrigin) : EStateM Exn SubStream Int := do
  let s ← get
  match s.newPosition offset origin with
  | none => throw .io
  | some newPosition =>
    if newPosition < s.offset then throw .io
    else if wrap64 (s.offset + s.length) < newPosition then throw .io
    else
      onBase (BaseStream.seek newPosition origin)
      return (← get).position

def setOrigin (offset : Int) : EStateM Exn SubStream Unit := do
  let s ← get
  if s.baseStream.length ≤ offset then throw .argumentOutOfRange
  else if s.baseStream.length < wrap64 (offset + s.length) then throw .argumentOutOfRange
  else set { s with offset }

def setLength (value : Int) : EStateM Exn SubStream Unit := do
  let s ← get
  let baseLength := wrap64 (s.offset + value)
  if s.baseStream.length < baseLength then onBase (BaseStream.setLength baseLength)
  modify fun s => { s with length := value }

/-- The check of both forms of `Write`. -/
def throwIfGreater (count : Int) : EStateM Exn SubStream Unit := do
  let s ← get
  if wrap64 (s.offset + s.length) < wrap64 (s.baseStream.position + count) then
    throw .argumentOutOfRange

def write (buffer : List UInt8) (offset count : Int) : EStateM Exn SubStream Unit := do
  throwIfGreater count
  onBase (BaseStream.writeArray buffer offset count)

def writeSpan (buffer : List UInt8) : EStateM Exn SubStream Unit := do
  throwIfGreater buffer.length
  onBase (BaseStream.write buffer)

end SubStream

/-- The operations that move a substream, its window or bytes of its base stream. -/
inductive SubStreamOp where
  | setPosition (value : Int64)
  | seek (offset : Int64) (origin : SeekOrigin)
  | read (bufferLength : Nat) (offset count : Int32)
  | readSpan (length : Nat)
  | write (buffer : List UInt8) (offset count : Int32)
  | writeSpan (buffer : List UInt8)
  | setOrigin (offset : Int64)
  | setLength (value : Int64)

namespace SubStreamOp

/-- The state after an operation, which may have thrown. -/
def step : SubStreamOp → SubStream → SubStream
  | setPosition value => stateAfter (SubStream.setPosition value.toInt)
  | seek offset origin => stateAfter (SubStream.seek offset.toInt origin)
  | read bufferLength offset count =>
    stateAfter (SubStream.read bufferLength offset.toInt count.toInt)
  | readSpan length => stateAfter (SubStream.readSpan length)
  | write buffer offset count => stateAfter (SubStream.write buffer offset.toInt count.toInt)
  | writeSpan buffer => stateAfter (SubStream.writeSpan buffer)
  | setOrigin offset => stateAfter (SubStream.setOrigin offset.toInt)
  | setLength value => stateAfter (SubStream.setLength value.toInt)

end SubStreamOp

namespace SubStream

/-- The index of the base stream lies in the window. -/
def Window (s : SubStream) (i : Nat) : Prop := s.offset ≤ i ∧ i < s.offset + s.length

/-- A move that does not throw ends at the requested position, inside of the window. -/
def Arrives (m : EStateM Exn SubStream α) (requested : Int) (s : SubStream) : Prop :=
  ∀ ⦃a t⦄, m.run s = .ok a t →
    t.position = requested ∧ 0 ≤ t.position ∧ t.position ≤ t.length

/-- A read returns bytes of the window only. -/
def ReadsInside (m : EStateM Exn SubStream (List UInt8)) (s : SubStream) : Prop :=
  ∀ ⦃bytes t⦄, m.run s = .ok bytes t →
    bytes = (s.baseStream.bytes.drop s.baseStream.position).take bytes.length ∧
      ∀ i < bytes.length, s.Window (s.baseStream.position + i)

/-- A write changes bytes of the window only. -/
def WritesInside (m : EStateM Exn SubStream Unit) (s : SubStream) : Prop :=
  ∀ i, ¬ s.Window i → (stateAfter m s).baseStream.bytes[i]? = s.baseStream.bytes[i]?

/-- The position a seek asks for. -/
def requested (s : SubStream) (offset : Int) : SeekOrigin → Int
  | .begin => offset
  | .current => s.position + offset
  | .end => s.length + offset
  | .other => s.position

end SubStream

namespace SubStreamOp

/-- The operation is confined to the window. -/
def Confined : SubStreamOp → SubStream → Prop
  | setPosition value, s => SubStream.Arrives (SubStream.setPosition value.toInt) value.toInt s
  | seek offset origin, s =>
    SubStream.Arrives (SubStream.seek offset.toInt origin) (s.requested offset.toInt origin) s
  | read bufferLength offset count, s =>
    SubStream.ReadsInside (SubStream.read bufferLength offset.toInt count.toInt) s
  | readSpan length, s => SubStream.ReadsInside (SubStream.readSpan length) s
  | write buffer offset count, s =>
    SubStream.WritesInside (SubStream.write buffer offset.toInt count.toInt) s
  | writeSpan buffer, s => SubStream.WritesInside (SubStream.writeSpan buffer) s
  | setOrigin _, _ => True
  | setLength _, _ => True

end SubStreamOp

namespace SubStream

/-- A move to `target` of the base stream is not refused, after `newPosition` has been checked. -/
def Lands (s : SubStream) (newPosition target : Int) : Prop :=
  s.offset ≤ newPosition ∧ newPosition ≤ wrap64 (s.offset + s.length) ∧
    0 ≤ target ∧ target ≤ s.baseStream.maxPosition

/-- The end of the window has not wrapped around to a positive one. -/
def Ordered (s : SubStream) : Prop := -2 ^ 63 ≤ s.offset + s.length

/-- A read of so many bytes starts in the window, or there is nothing to be read. -/
def Readable (s : SubStream) (count : Int) : Prop :=
  0 < count → s.baseStream.position < s.baseStream.length → s.Window s.baseStream.position

/-- What is written before the window, or to a window whose end has wrapped around, is there
already, or the write is refused. -/
def Writable (s : SubStream) (buffer : List UInt8) : Prop :=
  wrap64 (s.baseStream.position + buffer.length) ≤ wrap64 (s.offset + s.length) →
    s.baseStream.position + buffer.length ≤ s.baseStream.maxLength →
      ∀ i < buffer.length, s.baseStream.position + i < s.offset ∨ ¬ s.Ordered →
        s.baseStream.bytes[s.baseStream.position + i]? = buffer[i]?

end SubStream

/-- The condition on the state under which the operation is confined to the window. -/
def SubStreamOp.Permitted : SubStreamOp → SubStream → Prop
  | setPosition value, s =>
    s.Lands (wrap64 (s.offset + value.toInt)) (wrap64 (s.offset + value.toInt)) → s.Ordered
  | seek offset .begin, s =>
    s.Lands (wrap64 (s.offset + offset.toInt)) (wrap64 (s.offset + offset.toInt)) → s.Ordered
  | seek offset .current, s =>
    s.Lands (wrap64 (s.baseStream.position + offset.toInt))
        (s.baseStream.position + wrap64 (s.baseStream.position + offset.toInt)) →
      s.baseStream.position = 0 ∧ s.Ordered
  | seek offset .end, s =>
    ¬ s.Lands (wrap64 (s.offset + s.length + offset.toInt))
      (s.baseStream.length + wrap64 (s.offset + s.length + offset.toInt))
  | seek _ .other, _ => True
  | read bufferLength offset count, s =>
    0 ≤ offset.toInt →
      offset.toInt + (if s.possible < count.toInt then wrap32 s.possible else count.toInt) ≤
        bufferLength →
        s.Readable (if s.possible < count.toInt then wrap32 s.possible else count.toInt)
  | readSpan length, s => s.Readable (min (wrap32 s.possible) length)
  | write buffer offset count, s =>
    0 ≤ offset.toInt → 0 ≤ count.toInt → offset.toInt + count.toInt ≤ buffer.length →
      s.Writable ((buffer.drop offset.toInt.toNat).take count.toInt.toNat)
  | writeSpan buffer, s => s.Writable buffer
  | setOrigin _, _ => True
  | setLength _, _ => True

namespace BaseStream

variable {s : BaseStream}

theorem run_setPosition {value : Int} (h : 0 ≤ value) (h' : value ≤ s.maxPosition) :
    (setPosition value).run s = .ok () { s with position := value.toNat } := by
  rw [setPosition, run_get_bind, if_neg (by omega)]
  rfl

theorem run_setPosition_refused {value : Int} (h : ¬ (0 ≤ value ∧ value ≤ s.maxPosition)) :
    (setPosition value).run s = .error .argumentOutOfRange s := by
  rw [setPosition, run_get_bind, if_pos (by omega)]
  rfl

/-- The stream has at least so many bytes, and it is within its limits. -/
structure Holds (n : Int) (s : BaseStream) : Prop where
  window : n ≤ s.length
  nonempty : 0 < s.length
  fits : s.length ≤ s.maxLength
  maxLength : s.maxLength < 2 ^ 63
  maxPosition : s.maxPosition < 2 ^ 63
  position : s.position < 2 ^ 63

variable {n : Int}

theorem keeps_setPosition (value : Int) : Keeps (Holds n) (setPosition value) := by
  intro s hs
  by_cases hreach : 0 ≤ value ∧ value ≤ s.maxPosition
  · rw [stateAfter_of_ok (run_setPosition hreach.1 hreach.2)]
    refine ⟨hs.window, hs.nonempty, hs.fits, hs.maxLength, hs.maxPosition, ?_⟩
    have hmax := hs.maxPosition
    dsimp only
    omega
  · rw [stateAfter, run_setPosition_refused hreach]
    exact hs

theorem keeps_seek (offset : Int) (origin : SeekOrigin) : Keeps (Holds n) (seek offset origin) := by
  apply keeps_get_bind
  intro s _
  cases origin with
  | begin | current | «end» => exact keeps_setPosition _
  | other => exact keeps_throw _

theorem keeps_read (count : Nat) : Keeps (Holds n) (read count) := by
  intro s hs
  refine ⟨hs.window, hs.nonempty, hs.fits, hs.maxLength, hs.maxPosition, ?_⟩
  have hread : ((s.bytes.drop s.position).take count).length ≤ s.length - s.position := by
    rw [List.length_take, List.length_drop]
    exact Nat.min_le_right _ _
  have hfits := hs.fits
  have hmax := hs.maxLength
  have hposition := hs.position
  have hafter : (stateAfter (read count) s).position =
      s.position + ((s.bytes.drop s.position).take count).length := rfl
  omega

theorem keeps_readArray (length : Nat) (offset count : Int) :
    Keeps (Holds n) (readArray length offset count) :=
  keeps_unless fun _ => keeps_read _

theorem keeps_write (buffer : List UInt8) : Keeps (Holds n) (write buffer) := by
  apply keeps_get_bind
  intro s hs
  apply keeps_unless
  · intro hfits
    have hlength : (s.toMemoryStream.write buffer).bytes.length =
        max s.length (s.position + buffer.length) := by
      have hbytes : s.length = s.bytes.length := rfl
      simp only [MemoryStream.write, List.length_append, List.length_take, List.length_replicate,
        List.length_drop]
      omega
    have hfits' := hs.fits
    have hwindow := hs.window
    have hnonempty := hs.nonempty
    have hmax := hs.maxLength
    apply keeps_set
    refine ⟨?_, ?_, ?_, hmax, hs.maxPosition, ?_⟩
    · rw [length, hlength]
      omega
    · rw [length, hlength]
      omega
    · rw [length, hlength]
      dsimp only
      omega
    · change s.position + buffer.length < 2 ^ 63
      omega

theorem keeps_writeArray (buffer : List UInt8) (offset count : Int) :
    Keeps (Holds n) (writeArray buffer offset count) :=
  keeps_unless fun _ => keeps_write _

theorem setLength_error {s : BaseStream} {value : Int}
    (hrun : (setLength value).run s = .error e t) : t = s := by
  rw [setLength, run_get_bind] at hrun
  by_cases hout : value < 0 ∨ s.maxLength < value
  · rw [if_pos hout] at hrun
    cases hrun
    rfl
  · rw [if_neg hout] at hrun
    cases hrun

theorem holds_setLength {s : BaseStream} {value : Int} (hs : s.Holds n)
    (hlonger : s.length < value) (hrun : (setLength value).run s = .ok () t) : t.Holds value := by
  have hnonempty := hs.nonempty
  have hposition := hs.position
  rw [setLength, run_get_bind] at hrun
  by_cases hout : value < 0 ∨ s.maxLength < value
  · rw [if_pos hout] at hrun
    cases hrun
  · rw [if_neg hout] at hrun
    cases hrun
    have hlength : (s.bytes.take value.toNat ++
        List.replicate (value.toNat - s.length) 0).length = value.toNat := by
      have hbytes : s.length = s.bytes.length := rfl
      rw [List.length_append, List.length_take, List.length_replicate]
      omega
    refine ⟨?_, ?_, ?_, hs.maxLength, hs.maxPosition, ?_⟩
    · rw [length, hlength]
      omega
    · rw [length, hlength]
      omega
    · rw [length, hlength]
      dsimp only
      omega
    · dsimp only
      omega

end BaseStream

namespace SubStream

variable {s : SubStream} {offset : Int}

/-- What no operation breaks, whatever the window is. -/
structure Valid (s : SubStream) : Prop
    extends s.baseStream.Holds (wrap64 (s.offset + s.length)) where
  offset : -2 ^ 63 ≤ s.offset ∧ s.offset < 2 ^ 63
  length : -2 ^ 63 ≤ s.length ∧ s.length < 2 ^ 63

/-- The substream when its base stream has moved. -/
def moveTo (s : SubStream) (target : Nat) : SubStream :=
  { s with baseStream := { s.baseStream with position := target } }

theorem run_onBase_setPosition {target : Int} (h : 0 ≤ target)
    (h' : target ≤ s.baseStream.maxPosition) :
    (onBase (BaseStream.setPosition target)).run s = .ok () (s.moveTo target.toNat) :=
  run_zoom_of_ok (BaseStream.run_setPosition h h')

theorem run_onBase_setPosition_refused {target : Int}
    (h : ¬ (0 ≤ target ∧ target ≤ s.baseStream.maxPosition)) :
    (onBase (BaseStream.setPosition target)).run s = .error .argumentOutOfRange s :=
  run_zoom_of_error (BaseStream.run_setPosition_refused h)

/-- Where the base stream goes for a seek to a new position that has been accepted. -/
def target (s : SubStream) (newPosition : Int) : SeekOrigin → Int
  | .begin => newPosition
  | .current => s.baseStream.position + newPosition
  | .end => s.baseStream.length + newPosition
  | .other => newPosition

theorem run_seek {origin : SeekOrigin} {newPosition : Int}
    (hnew : s.newPosition offset origin = some newPosition)
    (h : s.Lands newPosition (s.target newPosition origin)) :
    (seek offset origin).run s =
      .ok (s.moveTo (s.target newPosition origin).toNat).position
        (s.moveTo (s.target newPosition origin).toNat) := by
  obtain ⟨hstart, hend, hnonneg, hmax⟩ := h
  have hrun := run_onBase_setPosition hnonneg hmax
  have hseek : (onBase (BaseStream.seek newPosition origin)).run s =
      (onBase (BaseStream.setPosition (s.target newPosition origin))).run s := by
    cases origin with
    | begin | current | «end» => rfl
    | other => cases hnew
  rw [seek, run_get_bind, hnew]
  dsimp only
  rw [if_neg (Int.not_lt.2 hstart), if_neg (Int.not_lt.2 hend),
    run_bind_of_ok _ (hseek.trans hrun)]
  rfl

theorem run_seek_refused {origin : SeekOrigin}
    (h : ∀ newPosition, s.newPosition offset origin = some newPosition →
      ¬ s.Lands newPosition (s.target newPosition origin)) :
    ∃ e, (seek offset origin).run s = .error e s := by
  cases hnew : s.newPosition offset origin with
  | none =>
    rw [seek, run_get_bind, hnew]
    exact ⟨_, rfl⟩
  | some newPosition =>
    have hrefused := h newPosition hnew
    rw [seek, run_get_bind, hnew]
    dsimp only
    by_cases hstart : newPosition < s.offset
    · rw [if_pos hstart]
      exact ⟨_, rfl⟩
    rw [if_neg hstart]
    by_cases hend : wrap64 (s.offset + s.length) < newPosition
    · rw [if_pos hend]
      exact ⟨_, rfl⟩
    rw [if_neg hend]
    have hbeyond : ¬ (0 ≤ s.target newPosition origin ∧
        s.target newPosition origin ≤ s.baseStream.maxPosition) :=
      fun hreach => hrefused ⟨Int.not_lt.1 hstart, Int.not_lt.1 hend, hreach⟩
    have hrun := run_onBase_setPosition_refused hbeyond
    have hseek : (onBase (BaseStream.seek newPosition origin)).run s =
        (onBase (BaseStream.setPosition (s.target newPosition origin))).run s := by
      cases origin with
      | begin | current | «end» => rfl
      | other => cases hnew
    exact ⟨_, run_bind_of_error _ (hseek.trans hrun)⟩

/-- A seek arrives exactly if the new position, when it is accepted, is the right one. -/
theorem arrives_seek_iff {origin : SeekOrigin} {newPosition : Int}
    (hnew : s.newPosition offset origin = some newPosition) :
    Arrives (seek offset origin) (s.requested offset origin) s ↔
      (s.Lands newPosition (s.target newPosition origin) →
        let position := wrap64 (s.target newPosition origin - s.offset)
        position = s.requested offset origin ∧ 0 ≤ position ∧ position ≤ s.length) := by
  by_cases h : s.Lands newPosition (s.target newPosition origin)
  · have hrun := run_seek hnew h
    have hposition : (s.moveTo (s.target newPosition origin).toNat).position =
        wrap64 (s.target newPosition origin - s.offset) := by
      rw [position, moveTo]
      dsimp only
      rw [Int.toNat_of_nonneg h.2.2.1]
    rw [Arrives]
    refine ⟨fun harrives _ => ?_, fun hright a t hrun' => ?_⟩
    · rw [← hposition]
      exact harrives hrun
    · rw [hrun] at hrun'
      cases hrun'
      rw [hposition]
      exact hright h
  · have hrefused : ∀ newPosition, s.newPosition offset origin = some newPosition →
        ¬ s.Lands newPosition (s.target newPosition origin) := by
      intro newPosition' hnew'
      rw [hnew] at hnew'
      cases hnew'
      exact h
    obtain ⟨e, hrun⟩ := run_seek_refused hrefused
    refine ⟨fun _ h' => absurd h' h, fun _ a t hrun' => ?_⟩
    rw [hrun] at hrun'
    cases hrun'

/-- The setter of `Position` is a seek from the start of the window. -/
theorem run_seek_begin (s : SubStream) (value : Int) :
    (seek value .begin).run s =
      (do
        setPosition value
        return (← get).position : EStateM Exn SubStream Int).run s := by
  rw [seek, setPosition, bind_assoc, run_get_bind, run_get_bind, newPosition]
  dsimp only
  by_cases hstart : wrap64 (s.offset + value) < s.offset
  · rw [if_pos hstart, if_pos hstart]
    rfl
  rw [if_neg hstart, if_neg hstart]
  by_cases hend : wrap64 (s.offset + s.length) < wrap64 (s.offset + value)
  · rw [if_pos hend, if_pos hend]
    rfl
  rw [if_neg hend, if_neg hend]
  rfl

theorem arrives_setPosition_iff (s : SubStream) (value : Int) :
    Arrives (setPosition value) value s ↔ Arrives (seek value .begin) value s := by
  refine ⟨fun harrives a t hrun => ?_, fun harrives a t hrun => ?_⟩
  · rw [run_seek_begin] at hrun
    cases hset : (setPosition value).run s with
    | ok u t' =>
      rw [run_bind_of_ok _ hset] at hrun
      cases hrun
      exact harrives hset
    | error e t' =>
      rw [run_bind_of_error _ hset] at hrun
      cases hrun
  · apply harrives (a := t.position)
    rw [run_seek_begin, run_bind_of_ok _ hrun]
    rfl

theorem permitted_seek_begin {value : Int} (h : s.Valid) (hlow : -2 ^ 63 ≤ value)
    (hhigh : value < 2 ^ 63) :
    Arrives (seek value .begin) value s ↔
      (s.Lands (wrap64 (s.offset + value)) (wrap64 (s.offset + value)) → s.Ordered) := by
  have hoffset := h.offset
  have hlength := h.length
  have hnew : s.newPosition value .begin = some (wrap64 (s.offset + value)) := rfl
  apply (arrives_seek_iff hnew).trans
  apply imp_congr_right
  intro hlands
  obtain ⟨hstart, hend, hnonneg, hmax⟩ := hlands
  simp only [target, requested, Ordered, wrap64] at *
  omega

theorem permitted_seek_current (h : s.Valid) (hlow : -2 ^ 63 ≤ offset) (hhigh : offset < 2 ^ 63) :
    Arrives (seek offset .current) (s.requested offset .current) s ↔
      (s.Lands (wrap64 (s.baseStream.position + offset))
          (s.baseStream.position + wrap64 (s.baseStream.position + offset)) →
        s.baseStream.position = 0 ∧ s.Ordered) := by
  have hoffset := h.offset
  have hlength := h.length
  have hposition := h.position
  have hmaxPosition := h.maxPosition
  have hnew : s.newPosition offset .current = some (wrap64 (s.baseStream.position + offset)) := rfl
  rw [arrives_seek_iff hnew]
  apply imp_congr_right
  intro hlands
  obtain ⟨hstart, hend, hnonneg, hmax⟩ := hlands
  simp only [target, requested, Ordered, wrap64, position] at *
  omega

theorem permitted_seek_end (h : s.Valid) (offset : Int) :
    Arrives (seek offset .end) (s.requested offset .end) s ↔
      ¬ s.Lands (wrap64 (s.offset + s.length + offset))
        (s.baseStream.length + wrap64 (s.offset + s.length + offset)) := by
  have hoffset := h.offset
  have hlength := h.length
  have hnonempty := h.nonempty
  have hfits := h.fits
  have hmaxLength := h.maxLength
  have hnew : s.newPosition offset .end = some (wrap64 (s.offset + s.length + offset)) := rfl
  rw [arrives_seek_iff hnew]
  refine ⟨fun hright hlands => ?_, fun hrefused hlands => absurd hlands hrefused⟩
  obtain ⟨hposition, -, -⟩ := hright hlands
  simp only [target, requested, wrap64] at hposition
  omega

/-- What is left of the window is not narrowed when the position is in it. -/
theorem possible_of_window (h : s.Valid) (hwindow : s.Window s.baseStream.position) :
    s.possible = s.offset + s.length - s.baseStream.position := by
  obtain ⟨hstart, hend⟩ := hwindow
  have hoffset := h.offset
  have hlength := h.length
  have hsmall := h.position
  simp only [possible, position, wrap64] at *
  omega

theorem readsInside_iff {m : EStateM Exn SubStream (List UInt8)} {count : Nat}
    (hrun : m.run s = (onBase (BaseStream.read count)).run s)
    (hcount : s.Window s.baseStream.position →
      s.baseStream.position + count ≤ s.offset + s.length) :
    ReadsInside m s ↔ s.Readable count := by
  let bytes := (s.baseStream.bytes.drop s.baseStream.position).take count
  have hread : m.run s = .ok bytes (s.moveTo (s.baseStream.position + bytes.length)) := hrun
  have hlength : bytes.length = min count (s.baseStream.length - s.baseStream.position) := by
    rw [List.length_take, List.length_drop]
    rfl
  refine ⟨fun hinside hpositive hleft => ?_, fun hreadable bytes' t hrun' => ?_⟩
  · exact (hinside hread).2 0 (by omega)
  · rw [hread] at hrun'
    cases hrun'
    refine ⟨?_, fun i hi => ?_⟩
    · apply List.take_eq_take_iff.2
      have hdrop : (s.baseStream.bytes.drop s.baseStream.position).length =
          s.baseStream.length - s.baseStream.position := List.length_drop
      omega
    · have hwindow := hreadable (by omega) (by omega)
      have hend := hcount hwindow
      obtain ⟨hstart, -⟩ := hwindow
      exact ⟨by omega, by omega⟩

theorem readsInside_of_error {m : EStateM Exn SubStream (List UInt8)}
    (hrun : m.run s = .error e s) : ReadsInside m s := by
  intro bytes t hrun'
  rw [hrun] at hrun'
  cases hrun'

theorem permitted_read {bufferLength : Nat} {count : Int} (h : s.Valid) (hcount : count < 2 ^ 31) :
    ReadsInside (read bufferLength offset count) s ↔
      (0 ≤ offset →
        offset + (if s.possible < count then wrap32 s.possible else count) ≤ bufferLength →
          s.Readable (if s.possible < count then wrap32 s.possible else count)) := by
  let asked : Int := if s.possible < count then wrap32 s.possible else count
  have hleft : s.Window s.baseStream.position →
      s.baseStream.position + asked ≤ s.offset + s.length := by
    intro hwindow
    have hpossible := possible_of_window h hwindow
    obtain ⟨-, hend⟩ := hwindow
    by_cases hless : s.possible < count
    · have hwrap : wrap32 s.possible = s.possible := wrap32_of_range (by omega) (by omega)
      have hasked : asked = s.possible := (if_pos hless).trans hwrap
      omega
    · have hasked : asked = count := if_neg hless
      omega
  by_cases hargs : offset < 0 ∨ asked < 0 ∨ bufferLength < offset + asked
  · have hrun : (read bufferLength offset count).run s = .error .argumentOutOfRange s := by
      rw [read, run_get_bind, BaseStream.readArray, if_pos hargs]
      rfl
    refine ⟨fun _ hoffset hfits hpositive => ?_, fun _ => readsInside_of_error hrun⟩
    rcases hargs with hneg | hneg | hlong
    · exact absurd hoffset (Int.not_le.2 hneg)
    · exact absurd hpositive (Int.not_lt.2 (Int.le_of_lt hneg))
    · exact absurd hfits (Int.not_le.2 hlong)
  · have hrun : (read bufferLength offset count).run s =
        (onBase (BaseStream.read asked.toNat)).run s := by
      rw [read, run_get_bind, BaseStream.readArray, if_neg hargs]
    have hnonneg : 0 ≤ asked := by omega
    have hcast : (asked.toNat : Int) = asked := Int.toNat_of_nonneg hnonneg
    rw [readsInside_iff hrun (by rw [hcast]; exact hleft), hcast]
    refine ⟨fun hreadable _ _ => hreadable, fun hreadable => hreadable (by omega) (by omega)⟩

theorem permitted_readSpan (h : s.Valid) (length : Nat) :
    ReadsInside (readSpan length) s ↔ s.Readable (min (wrap32 s.possible) length) := by
  have hleft : ∀ count : Nat, (count : Int) ≤ wrap32 s.possible →
      s.Window s.baseStream.position → s.baseStream.position + count ≤ s.offset + s.length := by
    intro count hle hwindow
    have hpossible := possible_of_window h hwindow
    obtain ⟨-, hend⟩ := hwindow
    rw [wrap32] at hle
    omega
  by_cases hless : wrap32 s.possible < length
  · rw [min_eq_left (Int.le_of_lt hless)]
    by_cases hneg : wrap32 s.possible < 0
    · have hrun : (readSpan length).run s = .error .overflow s := by
        rw [readSpan, run_get_bind]
        dsimp only
        rw [if_pos hless, if_pos hneg]
        rfl
      refine ⟨fun _ hpositive => ?_, fun _ => readsInside_of_error hrun⟩
      exact absurd hpositive (Int.not_lt.2 (Int.le_of_lt hneg))
    · have hrun : (readSpan length).run s =
          (onBase (BaseStream.read (wrap32 s.possible).toNat)).run s := by
        rw [readSpan, run_get_bind]
        dsimp only
        rw [if_pos hless, if_neg hneg]
      have hcast : ((wrap32 s.possible).toNat : Int) = wrap32 s.possible :=
        Int.toNat_of_nonneg (Int.not_lt.1 hneg)
      rw [readsInside_iff hrun (hleft _ (Int.le_of_eq hcast)), hcast]
  · have hrun : (readSpan length).run s = (onBase (BaseStream.read length)).run s := by
      rw [readSpan, run_get_bind]
      dsimp only
      rw [if_neg hless]
    rw [min_eq_right (Int.not_lt.1 hless), readsInside_iff hrun (hleft _ (Int.not_lt.1 hless))]

theorem window_fits (h : s.Valid) {buffer : List UInt8}
    (hcheck : wrap64 (s.baseStream.position + buffer.length) ≤ wrap64 (s.offset + s.length))
    (hfits : s.baseStream.position + buffer.length ≤ s.baseStream.maxLength) :
    (s.baseStream.position + buffer.length : Int) ≤ wrap64 (s.offset + s.length) ∧
      s.baseStream.position + buffer.length ≤ s.baseStream.length := by
  have hwindow := h.window
  have hmax := h.maxLength
  rw [wrap64_of_range (by omega) (by omega)] at hcheck
  exact ⟨hcheck, by omega⟩

theorem getElem?_write {t : MemoryStream} (h : t.position + buffer.length ≤ t.bytes.length)
    (i : Nat) :
    (t.write buffer).bytes[i]? =
      if t.position ≤ i ∧ i < t.position + buffer.length then buffer[i - t.position]?
      else t.bytes[i]? := by
  have hinside : t.position ≤ t.bytes.length := by omega
  have htake := MemoryStream.length_take_position hinside
  rw [MemoryStream.bytes_write hinside]
  by_cases hbefore : i < t.position
  · rw [if_neg (by omega), List.getElem?_append_left (by omega), List.getElem?_take_of_lt hbefore]
  rw [List.getElem?_append_right (by omega), htake]
  by_cases hin : i < t.position + buffer.length
  · rw [if_pos (by omega), List.getElem?_append_left (by omega)]
  · rw [if_neg (by omega), List.getElem?_append_right (by omega), List.getElem?_drop]
    congr 1
    omega

/-- A write that is not refused is confined to the window exactly if it may be. -/
theorem writesInside_iff {m : EStateM Exn SubStream Unit} {buffer : List UInt8} (h : s.Valid)
    (hrun : m.run s = (throwIfGreater buffer.length >>= fun _ =>
      onBase (BaseStream.write buffer)).run s) : WritesInside m s ↔ s.Writable buffer := by
  by_cases hcheck : wrap64 (s.offset + s.length) < wrap64 (s.baseStream.position + buffer.length)
  · have herror : m.run s = .error .argumentOutOfRange s := by
      rw [hrun, throwIfGreater, bind_assoc, run_get_bind, if_pos hcheck]
      rfl
    refine ⟨fun _ hle => absurd hle (Int.not_le.2 hcheck), fun _ i _ => ?_⟩
    rw [stateAfter, herror]
  rw [throwIfGreater, bind_assoc, run_get_bind, if_neg hcheck, pure_bind] at hrun
  by_cases hlong : s.baseStream.maxLength < s.baseStream.position + buffer.length
  · have herror : m.run s = .error .io s := by
      rw [hrun]
      refine run_zoom_of_error (t := s.baseStream) ?_
      rw [BaseStream.write, run_get_bind, if_pos hlong]
      rfl
    refine ⟨fun _ _ hle => absurd hle (Nat.not_le.2 hlong), fun _ i _ => ?_⟩
    rw [stateAfter, herror]
  obtain ⟨hend, hinside⟩ := window_fits h (Int.not_lt.1 hcheck) (Nat.not_lt.1 hlong)
  have hok : m.run s = .ok () { s with baseStream := { s.baseStream with
      toMemoryStream := s.baseStream.toMemoryStream.write buffer } } := by
    rw [hrun]
    refine run_zoom_of_ok ?_
    rw [BaseStream.write, run_get_bind, if_neg hlong]
    rfl
  have hstate : (stateAfter m s).baseStream.bytes =
      (s.baseStream.toMemoryStream.write buffer).bytes := by
    rw [stateAfter_of_ok hok]
  have hoffset := h.offset
  have hlength := h.length
  refine ⟨fun hwrites _ _ i hi hout => ?_, fun hwritable i hout => ?_⟩
  · have hnot : ¬ s.Window (s.baseStream.position + i) := by
      rintro ⟨hstart, hstop⟩
      rw [Ordered] at hout
      omega
    have hsame := hwrites _ hnot
    rw [hstate, getElem?_write hinside, if_pos ⟨Nat.le_add_right _ _, by omega⟩,
      Nat.add_sub_cancel_left] at hsame
    exact hsame.symm
  · rw [hstate, getElem?_write hinside]
    by_cases hin : s.baseStream.position ≤ i ∧ i < s.baseStream.position + buffer.length
    · have hbuffer := hwritable (Int.not_lt.1 hcheck) (Nat.not_lt.1 hlong)
        (i - s.baseStream.position) (by omega) (by
          rw [Window] at hout
          rw [Ordered]
          rw [wrap64] at hend
          omega)
      rw [Nat.add_sub_cancel' hin.1] at hbuffer
      rw [if_pos hin, hbuffer]
    · rw [if_neg hin]

theorem permitted_write (h : s.Valid) (buffer : List UInt8) (offset count : Int) :
    WritesInside (write buffer offset count) s ↔
      (0 ≤ offset → 0 ≤ count → offset + count ≤ buffer.length →
        s.Writable ((buffer.drop offset.toNat).take count.toNat)) := by
  by_cases hargs : offset < 0 ∨ count < 0 ∨ buffer.length < offset + count
  · have herror : ∃ e, (write buffer offset count).run s = .error e s := by
      rw [write, throwIfGreater, bind_assoc, run_get_bind, BaseStream.writeArray, if_pos hargs]
      by_cases hcheck : wrap64 (s.offset + s.length) < wrap64 (s.baseStream.position + count)
      · rw [if_pos hcheck]
        exact ⟨_, rfl⟩
      · rw [if_neg hcheck]
        exact ⟨_, rfl⟩
    obtain ⟨e, hrun⟩ := herror
    refine ⟨fun _ hoffset hcount hfits => ?_, fun _ i _ => ?_⟩
    · omega
    · rw [stateAfter, hrun]
  · have hlength : ((buffer.drop offset.toNat).take count.toNat).length = count := by
      rw [List.length_take, List.length_drop]
      omega
    have hrun : (write buffer offset count).run s =
        (throwIfGreater ((buffer.drop offset.toNat).take count.toNat).length >>= fun _ =>
          onBase (BaseStream.write ((buffer.drop offset.toNat).take count.toNat))).run s := by
      rw [write, hlength, BaseStream.writeArray, if_neg hargs]
    rw [writesInside_iff h hrun]
    exact ⟨fun hwritable _ _ _ => hwritable,
      fun hwritable => hwritable (by omega) (by omega) (by omega)⟩

theorem keeps_onBase {m : EStateM Exn BaseStream α}
    (hm : ∀ n, Keeps (BaseStream.Holds n) m) : Keeps Valid (onBase m) := by
  apply keeps_zoom
  intro s hs
  exact { hm _ s.baseStream hs.toHolds with offset := hs.offset, length := hs.length }

theorem keeps_setPosition (value : Int) : Keeps Valid (setPosition value) := by
  apply keeps_get_bind
  intro s _
  dsimp only
  apply keeps_unless
  intro _
  apply keeps_unless
  intro _
  exact keeps_onBase fun n => BaseStream.keeps_setPosition _

theorem keeps_seek (offset : Int) (origin : SeekOrigin) : Keeps Valid (seek offset origin) := by
  apply keeps_get_bind
  intro s _
  cases s.newPosition offset origin with
  | none => exact keeps_throw _
  | some newPosition =>
    dsimp only
    apply keeps_unless
    intro _
    apply keeps_unless
    intro _
    apply (keeps_onBase fun n => BaseStream.keeps_seek _ _).bind
    intro _
    exact keeps_get_bind fun s _ => keeps_pure _

theorem keeps_read (bufferLength : Nat) (offset count : Int) :
    Keeps Valid (read bufferLength offset count) :=
  keeps_get_bind fun _ _ => keeps_onBase fun _ => BaseStream.keeps_readArray _ _ _

theorem keeps_readSpan (length : Nat) : Keeps Valid (readSpan length) := by
  apply keeps_get_bind
  intro s _
  dsimp only
  apply keeps_ite
  · intro _
    apply keeps_unless
    intro _
    exact keeps_onBase fun _ => BaseStream.keeps_read _
  · intro _
    exact keeps_onBase fun _ => BaseStream.keeps_read _

theorem keeps_throwIfGreater (count : Int) : Keeps Valid (throwIfGreater count) :=
  keeps_get_bind fun _ _ => keeps_unless fun _ => keeps_pure _

theorem keeps_write (buffer : List UInt8) (offset count : Int) :
    Keeps Valid (write buffer offset count) :=
  (keeps_throwIfGreater count).bind fun _ =>
    keeps_onBase fun _ => BaseStream.keeps_writeArray _ _ _

theorem keeps_writeSpan (buffer : List UInt8) : Keeps Valid (writeSpan buffer) :=
  (keeps_throwIfGreater _).bind fun _ => keeps_onBase fun _ => BaseStream.keeps_write _

theorem keeps_setOrigin {offset : Int} (hlow : -2 ^ 63 ≤ offset) (hhigh : offset < 2 ^ 63) :
    Keeps Valid (setOrigin offset) := by
  apply keeps_get_bind
  intro s hs
  apply keeps_unless
  intro _
  apply keeps_unless
  intro hwindow
  apply keeps_set
  exact { hs with window := Int.not_lt.1 hwindow, offset := ⟨hlow, hhigh⟩ }

theorem keeps_setLength {value : Int} (hlow : -2 ^ 63 ≤ value) (hhigh : value < 2 ^ 63) :
    Keeps Valid (setLength value) := by
  intro s hs
  by_cases hlonger : s.baseStream.length < wrap64 (s.offset + value)
  · cases hrun : (BaseStream.setLength (wrap64 (s.offset + value))).run s.baseStream with
    | ok u baseStream =>
      have hbase : (onBase (BaseStream.setLength (wrap64 (s.offset + value)))).run s =
          .ok u { s with baseStream } := run_zoom_of_ok hrun
      have hstate : (setLength value).run s = .ok () { s with baseStream, length := value } := by
        rw [setLength, run_get_bind]
        dsimp only
        rw [if_pos hlonger, run_bind_of_ok _ hbase]
        rfl
      rw [stateAfter_of_ok hstate]
      exact { BaseStream.holds_setLength hs.toHolds hlonger hrun with
        offset := hs.offset
        length := ⟨hlow, hhigh⟩ }
    | error e baseStream =>
      have hsame := BaseStream.setLength_error hrun
      have hbase : (onBase (BaseStream.setLength (wrap64 (s.offset + value)))).run s =
          .error e { s with baseStream } := run_zoom_of_error hrun
      have hstate : (setLength value).run s = .error e { s with baseStream } := by
        rw [setLength, run_get_bind]
        dsimp only
        rw [if_pos hlonger, run_bind_of_error _ hbase]
      rw [stateAfter, hstate, hsame]
      exact hs
  · have hstate : (setLength value).run s = .ok () { s with length := value } := by
      rw [setLength, run_get_bind]
      dsimp only
      rw [if_neg hlonger]
      rfl
    rw [stateAfter_of_ok hstate]
    exact { hs with window := Int.not_lt.1 hlonger, length := ⟨hlow, hhigh⟩ }

end SubStream

namespace SubStreamOp

theorem keeps_valid (op : SubStreamOp) (s : SubStream) (h : s.Valid) : (op.step s).Valid := by
  cases op with
  | setPosition value => exact SubStream.keeps_setPosition value.toInt s h
  | seek offset origin => exact SubStream.keeps_seek offset.toInt origin s h
  | read bufferLength offset count => exact SubStream.keeps_read _ _ _ s h
  | readSpan length => exact SubStream.keeps_readSpan length s h
  | write buffer offset count => exact SubStream.keeps_write _ _ _ s h
  | writeSpan buffer => exact SubStream.keeps_writeSpan buffer s h
  | setOrigin offset => exact SubStream.keeps_setOrigin offset.le_toInt offset.toInt_lt s h
  | setLength value => exact SubStream.keeps_setLength value.le_toInt value.toInt_lt s h

theorem confined_iff_permitted (op : SubStreamOp) (s : SubStream) (h : s.Valid) :
    op.Confined s ↔ op.Permitted s := by
  cases op with
  | setPosition value =>
    exact (SubStream.arrives_setPosition_iff s value.toInt).trans
      (SubStream.permitted_seek_begin h value.le_toInt value.toInt_lt)
  | seek offset origin =>
    cases origin with
    | begin => exact SubStream.permitted_seek_begin h offset.le_toInt offset.toInt_lt
    | current => exact SubStream.permitted_seek_current h offset.le_toInt offset.toInt_lt
    | «end» => exact SubStream.permitted_seek_end h offset.toInt
    | other =>
      refine ⟨fun _ => trivial, fun _ a t hrun => ?_⟩
      cases hrun
  | read bufferLength offset count => exact SubStream.permitted_read h count.toInt_lt
  | readSpan length => exact SubStream.permitted_readSpan h length
  | write buffer offset count => exact SubStream.permitted_write h buffer _ _
  | writeSpan buffer => exact SubStream.writesInside_iff h rfl
  | setOrigin offset => rfl
  | setLength value => rfl

end SubStreamOp

/-- A base stream within its limits. -/
structure BaseStream.WithinLimits (s : BaseStream) : Prop where
  fits : s.length ≤ s.maxLength
  maxLength : s.maxLength < 2 ^ 63
  maxPosition : s.maxPosition < 2 ^ 63

theorem SubStream.valid_of_new {baseStream : BaseStream} {offset length : Int} {s : SubStream}
    (hbase : baseStream.WithinLimits) (hoffset : offset < 2 ^ 63) (hlow : -2 ^ 63 ≤ length)
    (hhigh : length < 2 ^ 63) (hnew : SubStream.new baseStream offset length = .ok s) :
    s.Valid := by
  have hmax := hbase.maxPosition
  rw [SubStream.new] at hnew
  by_cases hneg : offset < 0
  · rw [if_pos hneg] at hnew
    cases hnew
  rw [if_neg hneg] at hnew
  by_cases hlong : (baseStream.length : Int) ≤ offset
  · rw [if_pos hlong] at hnew
    cases hnew
  rw [if_neg hlong] at hnew
  by_cases hwindow : (baseStream.length : Int) < wrap64 (offset + length)
  · rw [if_pos hwindow] at hnew
    cases hnew
  rw [if_neg hwindow] at hnew
  by_cases hreach : 0 ≤ offset ∧ offset ≤ baseStream.maxPosition
  · have hseek : (BaseStream.seek offset .begin).run baseStream =
        .ok () { baseStream with position := offset.toNat } :=
      BaseStream.run_setPosition hreach.1 hreach.2
    rw [hseek] at hnew
    cases hnew
    refine ⟨⟨Int.not_lt.1 hwindow, ?_, hbase.fits, hbase.maxLength, hmax, ?_⟩, ⟨?_, hoffset⟩,
      ⟨hlow, hhigh⟩⟩
    · change 0 < baseStream.length
      omega
    · change offset.toNat < 2 ^ 63
      omega
    · dsimp only
      omega
  · have hseek : (BaseStream.seek offset .begin).run baseStream =
        .error .argumentOutOfRange baseStream := BaseStream.run_setPosition_refused hreach
    rw [hseek] at hnew
    cases hnew

/-- The operations of a run are all confined to the window of the substream exactly if each of
them may be done in the state it is done in. -/
theorem SubStream.confined_iff (baseStream : BaseStream) (hbase : baseStream.WithinLimits)
    (offset length : Int64) (s : SubStream)
    (hnew : SubStream.new baseStream offset.toInt length.toInt = .ok s) (ops : List SubStreamOp) :
    AllSteps SubStreamOp.step SubStreamOp.Confined ops s ↔
      AllSteps SubStreamOp.step SubStreamOp.Permitted ops s :=
  allSteps_iff SubStreamOp.confined_iff_permitted (fun op s h _ => op.keeps_valid s h)
    (SubStream.valid_of_new hbase offset.toInt_lt length.le_toInt length.toInt_lt hnew)

/-- Four bytes of a stream of eight. -/
def sampleBaseStream : BaseStream where
  bytes := [0, 1, 2, 3, 4, 5, 6, 7]
  position := 0
  maxPosition := 2 ^ 31 - 1
  maxLength := 8

theorem SubStream.confined_iff_sample :
    AllSteps SubStreamOp.step SubStreamOp.Confined [.read 8 0 8, .writeSpan [9]]
        ⟨{ sampleBaseStream with position := 2 }, 2, 4⟩ ↔
      AllSteps SubStreamOp.step SubStreamOp.Permitted [.read 8 0 8, .writeSpan [9]]
        ⟨{ sampleBaseStream with position := 2 }, 2, 4⟩ :=
  SubStream.confined_iff sampleBaseStream ⟨by decide, by decide, by decide⟩ 2 4
    ⟨{ sampleBaseStream with position := 2 }, 2, 4⟩ rfl [.read 8 0 8, .writeSpan [9]]

/-- A seek from the current position adds the position twice, one from the end adds the length of
the base stream, and a window that is moved forward is read before its start. -/
theorem SubStream.seek_leaves_window :
    SubStream.new sampleBaseStream 2 4 = .ok ⟨{ sampleBaseStream with position := 2 }, 2, 4⟩ ∧
      ¬ SubStreamOp.Confined (.seek 0 .current) ⟨{ sampleBaseStream with position := 2 }, 2, 4⟩ ∧
      ¬ SubStreamOp.Confined (.seek 0 .end) ⟨{ sampleBaseStream with position := 2 }, 2, 4⟩ ∧
      ¬ AllSteps SubStreamOp.step SubStreamOp.Confined [.setOrigin 4, .readSpan 1]
        ⟨{ sampleBaseStream with position := 2 }, 2, 4⟩ := by
  refine ⟨rfl, ?_, ?_, ?_⟩
  · intro h
    have hnew : SubStream.newPosition ⟨{ sampleBaseStream with position := 2 }, 2, 4⟩ 0 .current =
        some 2 := rfl
    have hrun := SubStream.run_seek hnew ⟨by decide, by decide, by decide, by decide⟩
    exact absurd (h hrun).1 (by decide)
  · intro h
    have hnew : SubStream.newPosition ⟨{ sampleBaseStream with position := 2 }, 2, 4⟩ 0 .end =
        some 6 := rfl
    have hrun := SubStream.run_seek hnew ⟨by decide, by decide, by decide, by decide⟩
    exact absurd (h hrun).1 (by decide)
  · rintro ⟨-, h, -⟩
    have hread : (SubStream.readSpan 1).run ⟨{ sampleBaseStream with position := 2 }, 4, 4⟩ =
        .ok [2] ⟨{ sampleBaseStream with position := 3 }, 4, 4⟩ := rfl
    have hwindow := (h hread).2 0 (by decide)
    exact absurd hwindow.1 (by decide)

end AcOpenServer
