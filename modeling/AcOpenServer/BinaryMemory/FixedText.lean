import AcOpenServer.BinaryMemory.CharWidth
import AcOpenServer.BinaryMemory.Interchange

namespace AcOpenServer
open Library
set_option autoImplicit true

/-- The encodings of the fields, some of which are in UTF-32. -/
structure FieldNative extends TextNative where
  utf32LE : Encoding
  utf32BE : Encoding

namespace BinaryStreamWriter

/-- The bytes of a field that `WriteFixedString` fills with a text and with padding. -/
def fieldBytes (valueBytes : List UInt8) (byteLength : Nat) (paddingValue : UInt8) : List UInt8 :=
  valueBytes.take byteLength ++ (List.replicate byteLength paddingValue).drop valueBytes.length

/-- The array of the field is taken to be there for every length, also above `maxArrayLength`. -/
def writeFixedString (value : Utf16) (encoding : Encoding) (byteLength : Int)
    (paddingValue : UInt8) : EStateM Exn BinaryStreamWriter Unit :=
  if byteLength < 0 then throw .overflow
  else writeBytes (fieldBytes (encoding.getBytes value) byteLength.toNat paddingValue)

variable (native : FieldNative) (value : Utf16) (length : Int) (paddingValue : UInt8)

def writeFixedUTF8 : EStateM Exn BinaryStreamWriter Unit :=
  writeFixedString value native.utf8 length paddingValue

def writeFixedASCII : EStateM Exn BinaryStreamWriter Unit :=
  writeFixedString value native.ascii length paddingValue

def writeFixedShiftJIS : EStateM Exn BinaryStreamWriter Unit :=
  writeFixedString value native.shiftJIS length paddingValue

def writeFixedUTF16 : EStateM Exn BinaryStreamWriter Unit := do
  writeFixedString value (if (← get).bigEndian then native.utf16BE else native.utf16LE)
    (wrap32 (length * 2)) paddingValue

def writeFixedUTF16LittleEndian : EStateM Exn BinaryStreamWriter Unit :=
  writeFixedString value native.utf16LE (wrap32 (length * 2)) paddingValue

def writeFixedUTF16BigEndian : EStateM Exn BinaryStreamWriter Unit :=
  writeFixedString value native.utf16BE (wrap32 (length * 2)) paddingValue

def writeFixedUTF32 : EStateM Exn BinaryStreamWriter Unit := do
  writeFixedString value (if (← get).bigEndian then native.utf32BE else native.utf32LE)
    (wrap32 (length * 4)) paddingValue

def writeFixedUTF32LittleEndian : EStateM Exn BinaryStreamWriter Unit :=
  writeFixedString value native.utf32LE (wrap32 (length * 4)) paddingValue

def writeFixedUTF32BigEndian : EStateM Exn BinaryStreamWriter Unit :=
  writeFixedString value native.utf32BE (wrap32 (length * 4)) paddingValue

end BinaryStreamWriter

namespace BinaryStreamReader

/-- The loop that fills an array. -/
def fillArray (read : EStateM Exn BinaryStreamReader α) :
    Nat → EStateM Exn BinaryStreamReader (List α)
  | 0 => return []
  | count + 1 => do
    let value ← read
    return value :: (← fillArray read count)

/-- So is the array that is read into. -/
def readArray (read : EStateM Exn BinaryStreamReader α) (count : Int) :
    EStateM Exn BinaryStreamReader (List α) :=
  if count < 0 then throw .overflow else fillArray read count.toNat

def readBytes (count : Int) : EStateM Exn BinaryStreamReader (List UInt8) :=
  readArray readByte count

/-- The loop of `ReadFixedTerminatedStringW`, which counts the characters of the field in bytes. For
single bytes it is that of `ReadFixedTerminatedString`. -/
def terminatorIndex (w : CharWidth) (bytes : List UInt8) (length : Int) (index : Nat) :
    Except Exn Nat :=
  if _h : (index : Int) < length then
    match allZero bytes w.size index with
    | .error e => .error e
    | .ok true => .ok index
    | .ok false => terminatorIndex w bytes length (index + w.size)
  else .ok index
termination_by (length - index).toNat
decreasing_by
  have hpos := w.size_pos
  omega

def readFixedTerminatedString (encoding : Encoding) (length : Int) :
    EStateM Exn BinaryStreamReader Utf16 := do
  let bytes ← readBytes length
  let index ← ofExcept (terminatorIndex .eightBit bytes length 0)
  return encoding.getString (bytes.take index)

def readFixedTerminatedStringW (encoding : Encoding) (length : Int) (bytesPerChar : CharWidth) :
    EStateM Exn BinaryStreamReader Utf16 := do
  let bytes ← readBytes (wrap32 (length * bytesPerChar.size))
  let index ← ofExcept (terminatorIndex bytesPerChar bytes length 0)
  return encoding.getString (bytes.take index)

variable (native : FieldNative) (length : Int)

def readUTF8Fixed : EStateM Exn BinaryStreamReader Utf16 :=
  readFixedTerminatedString native.utf8 length

def readASCIIFixed : EStateM Exn BinaryStreamReader Utf16 :=
  readFixedTerminatedString native.ascii length

def readShiftJISFixed : EStateM Exn BinaryStreamReader Utf16 :=
  readFixedTerminatedString native.shiftJIS length

def readUTF16Fixed : EStateM Exn BinaryStreamReader Utf16 := do
  if (← get).bigEndian then readFixedTerminatedStringW native.utf16BE length .sixteenBit
  else readFixedTerminatedStringW native.utf16LE length .sixteenBit

def readUTF16LittleEndianFixed : EStateM Exn BinaryStreamReader Utf16 :=
  readFixedTerminatedStringW native.utf16LE length .sixteenBit

def readUTF16BigEndianFixed : EStateM Exn BinaryStreamReader Utf16 :=
  readFixedTerminatedStringW native.utf16BE length .sixteenBit

def readUTF32Fixed : EStateM Exn BinaryStreamReader Utf16 := do
  if (← get).bigEndian then readFixedTerminatedStringW native.utf32BE length .thirtyTwoBit
  else readFixedTerminatedStringW native.utf32LE length .thirtyTwoBit

def readUTF32LittleEndianFixed : EStateM Exn BinaryStreamReader Utf16 :=
  readFixedTerminatedStringW native.utf32LE length .thirtyTwoBit

def readUTF32BigEndianFixed : EStateM Exn BinaryStreamReader Utf16 :=
  readFixedTerminatedStringW native.utf32BE length .thirtyTwoBit

end BinaryStreamReader

namespace StreamCursor

/-- The cursor at another position. -/
def goTo (position : Nat) (c : StreamCursor) : StreamCursor :=
  { c with stream := { c.stream with position } }

end StreamCursor

namespace BinaryStreamWriter

variable {c : StreamCursor} {n : Nat}

theorem length_fieldBytes (valueBytes : List UInt8) (n : Nat) (paddingValue : UInt8) :
    (fieldBytes valueBytes n paddingValue).length = n := by
  rw [fieldBytes, List.length_append, List.length_take, List.length_drop, List.length_replicate]
  omega

theorem fieldBytes_of_le {valueBytes : List UInt8} (h : valueBytes.length ≤ n)
    (paddingValue : UInt8) :
    fieldBytes valueBytes n paddingValue =
      valueBytes ++ List.replicate (n - valueBytes.length) paddingValue := by
  rw [fieldBytes, List.take_of_length_le h, List.drop_replicate]

theorem run_writeBytes (values : List UInt8) (c : StreamCursor) :
    ∃ t, (writeBytes values).run c = .ok () t ∧ t.bigEndian = c.bigEndian ∧
      t.stream.position = c.stream.position + values.length ∧
      ∃ rest, t.stream.bytes.drop c.stream.position = values ++ rest := by
  cases values with
  | nil => exact ⟨c, rfl, rfl, rfl, _, rfl⟩
  | cons value values =>
    have hfirst : (writeByte value).run c = .ok () { c with stream := c.stream.write [value] } :=
      rfl
    have hwrites : StreamWrites c.bigEndian values (writeBytes values) :=
      streamWrites_writeBytes values
    have hrest := hwrites (d := { c with stream := c.stream.write [value] }) rfl
      (c.stream.position_write_le [value])
    refine ⟨_, (run_bind_of_ok _ hfirst).trans hrest, rfl, ?_, ?_⟩
    · change c.stream.position + 1 + values.length = c.stream.position + (values.length + 1)
      omega
    · dsimp only
      rw [MemoryStream.write_append, MemoryStream.drop_write]
      exact ⟨_, rfl⟩

theorem run_writeFixedString (value : Utf16) (encoding : Encoding) (n : Nat) (paddingValue : UInt8)
    (c : StreamCursor) :
    ∃ t, (writeFixedString value encoding n paddingValue).run c = .ok () t ∧
      t.bigEndian = c.bigEndian ∧ t.stream.position = c.stream.position + n ∧
      ∃ rest, t.stream.bytes.drop c.stream.position =
        fieldBytes (encoding.getBytes value) n paddingValue ++ rest := by
  obtain ⟨t, hrun, hbig, hposition, hbytes⟩ :=
    run_writeBytes (fieldBytes (encoding.getBytes value) n paddingValue) c
  rw [length_fieldBytes] at hposition
  refine ⟨t, ?_, hbig, hposition, hbytes⟩
  rw [writeFixedString, if_neg (by omega), Int.toNat_natCast, hrun]

end BinaryStreamWriter

namespace BinaryStreamReader

open CharWidth StreamCursor

variable {c : StreamCursor} {w : CharWidth} {bytes rest : List UInt8} {n p length : Nat}

theorem run_readByte (h : c.stream.bytes.drop c.stream.position = b :: rest) :
    readByte.run c = .ok b (c.goTo (c.stream.position + 1)) := by
  have hlt : c.stream.position < c.stream.bytes.length := by
    apply Nat.not_le.1
    intro hle
    rw [List.drop_eq_nil_of_le hle] at h
    cases h
  rw [readByte, internalReadByte, run_get_bind, if_pos hlt, h]
  rfl

theorem run_fillArray (h : c.stream.bytes.drop c.stream.position = bytes ++ rest) :
    (fillArray readByte bytes.length).run c =
      .ok bytes (c.goTo (c.stream.position + bytes.length)) := by
  induction bytes generalizing c with
  | nil => rfl
  | cons b bytes ih =>
    have hfirst := run_readByte h
    have hrest : (c.goTo (c.stream.position + 1)).stream.bytes.drop
        (c.goTo (c.stream.position + 1)).stream.position = bytes ++ rest := by
      change c.stream.bytes.drop (c.stream.position + 1) = _
      rw [← List.drop_drop, h]
      rfl
    rw [List.length_cons, fillArray, run_bind_of_ok _ hfirst, run_bind_of_ok _ (ih hrest)]
    change EStateM.Result.ok (b :: bytes)
      (c.goTo (c.stream.position + 1 + bytes.length)) = _
    rw [Nat.add_assoc, Nat.add_comm 1]

theorem run_readBytes (h : c.stream.bytes.drop c.stream.position = bytes ++ rest) :
    (readBytes bytes.length).run c = .ok bytes (c.goTo (c.stream.position + bytes.length)) := by
  rw [readBytes, readArray, if_neg (by omega), Int.toNat_natCast, run_fillArray h]

theorem terminatorIndex_eq (hrun : ∀ k, p + k * w.size < length ↔ k < n)
    (hfits : p + n * w.size ≤ bytes.length) :
    terminatorIndex w bytes length p = .ok (p + w.textLength bytes p n * w.size) := by
  induction n generalizing p with
  | zero =>
    have hnot : ¬ ((p : Int) < length) := by
      have hzero := hrun 0
      omega
    rw [terminatorIndex, dif_neg hnot, Nat.le_zero.1 (textLength_le w bytes p 0), Nat.zero_mul,
      Nat.add_zero]
  | succ n ih =>
    have hlt : (p : Int) < length := by
      have hzero := hrun 0
      omega
    have hrun' (k : Nat) : p + w.size + k * w.size < length ↔ k < n := by
      have hsucc := hrun (k + 1)
      rw [Nat.succ_mul] at hsucc
      omega
    rw [Nat.succ_mul] at hfits
    rw [terminatorIndex, dif_pos hlt, allZero_eq (by omega), textLength_succ]
    by_cases hzero : w.IsZeroAt bytes p
    · have htrue : decide ((bytes.drop p).take w.size = List.replicate w.size 0) = true :=
        decide_eq_true hzero
      rw [htrue, if_pos hzero, Nat.zero_mul, Nat.add_zero]
    · have hfalse : decide ((bytes.drop p).take w.size = List.replicate w.size 0) = false :=
        decide_eq_false hzero
      rw [hfalse, if_neg hzero]
      dsimp only
      rw [ih hrun' (by omega), Nat.succ_mul]
      exact congrArg Except.ok (by omega)

end BinaryStreamReader

/-- The characters of an encoding all have this width: every string takes whole ones, and more of
them are decoded to a longer string. -/
structure Encoding.Wide (w : CharWidth) (encoding : Encoding) : Prop where
  units : ∀ value, w.size ∣ (encoding.getBytes value).length
  grows : ∀ a b, w.size ∣ a.length → w.size ∣ b.length → b ≠ [] →
    (encoding.getString a).length < (encoding.getString (a ++ b)).length

structure FieldNative.Wide (native : FieldNative) : Prop where
  utf16LE : native.utf16LE.Wide .sixteenBit
  utf16BE : native.utf16BE.Wide .sixteenBit
  utf32LE : native.utf32LE.Wide .thirtyTwoBit
  utf32BE : native.utf32BE.Wide .thirtyTwoBit

/-- A text whose encoding fits in a field of `length` characters, has no terminator and is decoded
to the text. -/
structure FieldText (encoding : Encoding) (w : CharWidth) (value : Utf16) (length : Nat) :
    Prop where
  fits : (encoding.getBytes value).length ≤ length * w.size
  noTerminator : w.NoTerminator (encoding.getBytes value) 0
    ((encoding.getBytes value).length / w.size)
  decodes : encoding.getString (encoding.getBytes value) = value

/-- A text is read back where it was written, and both go behind the `size` bytes of the field. -/
def RoundTrips (write : EStateM Exn BinaryStreamWriter Unit)
    (read : EStateM Exn BinaryStreamReader Utf16) (value : Utf16) (size : Nat) (c : StreamCursor) :
    Prop :=
  ∃ t u, write.run c = .ok () t ∧ t.stream.position = c.stream.position + size ∧
    read.run (t.goTo c.stream.position) = .ok value u ∧
    u.stream.position = c.stream.position + size

section
variable {encoding : Encoding} {w : CharWidth} {value : Utf16} {length size : Nat}
  {c : StreamCursor} {write : EStateM Exn BinaryStreamWriter Unit}
  {read : EStateM Exn BinaryStreamReader Utf16}

open BinaryStreamWriter BinaryStreamReader CharWidth

theorem roundTrips_iff_of_read {result : Utf16}
    (hwrite : write.run c = (writeFixedString value encoding size 0).run c)
    (hread : ∀ t : StreamCursor, t.bigEndian = c.bigEndian →
      (∃ rest, t.stream.bytes.drop t.stream.position =
        fieldBytes (encoding.getBytes value) size 0 ++ rest) →
      read.run t = .ok result (t.goTo (t.stream.position + size))) :
    RoundTrips write read value size c ↔ result = value := by
  obtain ⟨t, hrun, hbig, hposition, hbytes⟩ := run_writeFixedString value encoding size 0 c
  have hback := hread (t.goTo c.stream.position) hbig hbytes
  rw [RoundTrips, hwrite, hrun]
  constructor
  · rintro ⟨t', u, hok, -, hread', -⟩
    cases hok
    exact (EStateM.Result.ok.inj (hback.symm.trans hread')).1
  · intro hsame
    rw [hsame] at hback
    exact ⟨t, _, rfl, hposition, hback, rfl⟩

theorem run_readFixedTerminatedStringW {bytes rest : List UInt8} (w : CharWidth)
    (hint : length * w.size < 2 ^ 31) (hlength : bytes.length = length * w.size)
    (h : c.stream.bytes.drop c.stream.position = bytes ++ rest) :
    (readFixedTerminatedStringW encoding length w).run c =
      .ok (encoding.getString (w.text bytes 0 (length ⌈/⌉ w.size)))
        (c.goTo (c.stream.position + length * w.size)) := by
  have hpos := w.size_pos
  have hcount : wrap32 ((length : Int) * w.size) = (bytes.length : Int) := by
    rw [hlength, Nat.cast_mul]
    exact wrap32_of_range (by omega) (by omega)
  have hrun (k : Nat) : 0 + k * w.size < length ↔ k < length ⌈/⌉ w.size := by
    rw [← not_le, ← not_le, ceilDiv_le_iff_le_mul hpos, Nat.zero_add, Nat.mul_comm]
  have hceil : length ⌈/⌉ w.size ≤ length := by
    rw [ceilDiv_le_iff_le_mul hpos]
    exact Nat.le_mul_of_pos_left length hpos
  have hfits : 0 + length ⌈/⌉ w.size * w.size ≤ bytes.length := by
    rw [hlength, Nat.zero_add]
    exact Nat.mul_le_mul_right w.size hceil
  have hindex := terminatorIndex_eq hrun hfits
  rw [Nat.zero_add] at hindex
  rw [readFixedTerminatedStringW, hcount, run_bind_of_ok _ (run_readBytes h), hindex, hlength]
  rfl

theorem run_readFixedTerminatedString {bytes rest : List UInt8} (hlength : bytes.length = length)
    (h : c.stream.bytes.drop c.stream.position = bytes ++ rest) :
    (readFixedTerminatedString encoding length).run c =
      .ok (encoding.getString (CharWidth.eightBit.text bytes 0 length))
        (c.goTo (c.stream.position + length)) := by
  have hrun (k : Nat) : 0 + k * CharWidth.eightBit.size < length ↔ k < length := by
    rw [Nat.zero_add, CharWidth.size, Nat.mul_one]
  have hfits : 0 + length * CharWidth.eightBit.size ≤ bytes.length := by
    rw [hlength, Nat.zero_add, CharWidth.size, Nat.mul_one]
  have hindex := terminatorIndex_eq hrun hfits
  rw [Nat.zero_add] at hindex
  rw [readFixedTerminatedString, ← hlength, run_bind_of_ok _ (run_readBytes h), hlength, hindex]
  rfl

theorem FieldText.text_eq (h : FieldText encoding w value length)
    (hunits : w.size ∣ (encoding.getBytes value).length) (hm : m ≤ length) :
    w.text (fieldBytes (encoding.getBytes value) (length * w.size) 0) 0 m =
      (encoding.getBytes value).take (m * w.size) := by
  obtain ⟨k, hk⟩ := hunits
  rw [Nat.mul_comm] at hk
  have hpos := w.size_pos
  have hfits := h.fits
  have hcount : (encoding.getBytes value).length / w.size = k := by
    rw [hk, Nat.mul_div_cancel k hpos]
  have hle : k ≤ length := by
    rw [hk] at hfits
    exact Nat.le_of_mul_le_mul_right hfits hpos
  have hlength := textLength_append_zeros hk hle (hcount ▸ h.noTerminator)
  rw [text, fieldBytes_of_le hfits, textLength_eq_min w _ 0 hm, hlength, List.drop_zero]
  by_cases hkm : k ≤ m
  · have hmul := Nat.mul_le_mul_right w.size hkm
    rw [Nat.min_eq_left hkm, ← hk, List.take_left, List.take_of_length_le (by omega)]
  · have hmul := Nat.mul_le_mul_right w.size (Nat.le_of_not_le hkm)
    rw [Nat.min_eq_right (Nat.le_of_not_le hkm), List.take_append_of_le_length (by omega)]

/-- The first characters of an encoded text are decoded to the whole text only if they are all. -/
theorem Encoding.Wide.getString_take_iff (hwide : encoding.Wide w)
    (hdecodes : encoding.getString (encoding.getBytes value) = value) (m : Nat) :
    encoding.getString ((encoding.getBytes value).take (m * w.size)) = value ↔
      (encoding.getBytes value).length ≤ m * w.size := by
  constructor
  · intro hsame
    apply Nat.not_lt.1
    intro hlt
    have htake : ((encoding.getBytes value).take (m * w.size)).length = m * w.size := by
      rw [List.length_take]
      omega
    have hdrop : ((encoding.getBytes value).drop (m * w.size)).length =
        (encoding.getBytes value).length - m * w.size := List.length_drop
    have hfront : w.size ∣ ((encoding.getBytes value).take (m * w.size)).length := by
      rw [htake]
      exact Nat.dvd_mul_left _ _
    have hback : w.size ∣ ((encoding.getBytes value).drop (m * w.size)).length := by
      rw [hdrop]
      exact Nat.dvd_sub (hwide.units value) (Nat.dvd_mul_left _ _)
    have hgrows := hwide.grows _ _ hfront hback (List.ne_nil_of_length_pos (by omega))
    rw [List.take_append_drop, hsame, hdecodes] at hgrows
    exact Nat.lt_irrefl _ hgrows
  · intro hle
    rw [List.take_of_length_le hle, hdecodes]

theorem roundTripsW_iff (h : FieldText encoding w value length) (hwide : encoding.Wide w)
    (hwrite : write.run c =
      (writeFixedString value encoding (wrap32 (length * w.size)) 0).run c)
    (hread : ∀ t : StreamCursor, t.bigEndian = c.bigEndian →
      read.run t = (readFixedTerminatedStringW encoding length w).run t) :
    RoundTrips write read value (length * w.size) c ↔ length * w.size < 2 ^ 31 ∧
      (encoding.getBytes value).length ≤ length ⌈/⌉ w.size * w.size := by
  by_cases hint : length * w.size < 2 ^ 31
  · have hsize : wrap32 ((length : Int) * w.size) = (length * w.size : Nat) := by
      rw [Nat.cast_mul]
      exact wrap32_of_range (by omega) (by omega)
    have hceil : length ⌈/⌉ w.size ≤ length := by
      rw [ceilDiv_le_iff_le_mul w.size_pos]
      exact Nat.le_mul_of_pos_left length w.size_pos
    rw [hsize] at hwrite
    rw [and_iff_right hint, ← hwide.getString_take_iff h.decodes,
      ← h.text_eq (hwide.units value) hceil]
    apply roundTrips_iff_of_read hwrite
    rintro t hbig ⟨rest, hbytes⟩
    rw [hread t hbig, run_readFixedTerminatedStringW w hint (length_fieldBytes _ _ _) hbytes]
  · refine iff_of_false ?_ fun hcond => hint hcond.1
    rintro ⟨t, u, hrun, hposition, -, -⟩
    rw [hwrite] at hrun
    by_cases hnegative : wrap32 ((length : Int) * w.size) < 0
    · rw [writeFixedString, if_pos hnegative] at hrun
      cases hrun
    · have hhigh : wrap32 ((length : Int) * w.size) < 2 ^ 31 := by
        unfold wrap32
        omega
      obtain ⟨n, hn⟩ := Int.eq_ofNat_of_zero_le (Int.not_lt.1 hnegative)
      obtain ⟨t', hrun', -, hposition', -⟩ := run_writeFixedString value encoding n 0 c
      rw [hn] at hrun hhigh
      cases hrun'.symm.trans hrun
      omega

theorem roundTrips_of_eightBit (h : FieldText encoding .eightBit value length) :
    RoundTrips (writeFixedString value encoding length 0)
      (readFixedTerminatedString encoding length) value length c := by
  have hone : length * CharWidth.eightBit.size = length := Nat.mul_one length
  have htext := h.text_eq (Nat.one_dvd _) (Nat.le_refl length)
  have hfits := h.fits
  rw [hone] at htext hfits
  refine (roundTrips_iff_of_read rfl ?_).2 rfl
  rintro t hbig ⟨rest, hbytes⟩
  rw [run_readFixedTerminatedString (length_fieldBytes _ _ _) hbytes, htext,
    List.take_of_length_le hfits, h.decodes]

end

/-- The forms of the methods for fields. -/
inductive FieldMethod where
  | utf8
  | utf16
  | utf16LittleEndian
  | utf16BigEndian
  | utf32
  | utf32LittleEndian
  | utf32BigEndian
  deriving DecidableEq, Repr

namespace FieldMethod

def width : FieldMethod → CharWidth
  | utf8 => .eightBit
  | utf16 | utf16LittleEndian | utf16BigEndian => .sixteenBit
  | utf32 | utf32LittleEndian | utf32BigEndian => .thirtyTwoBit

variable (native : FieldNative)

/-- The encoding of a form, which for two of them depends on the byte order. -/
def encoding (bigEndian : Bool) : FieldMethod → Encoding
  | utf8 => native.utf8
  | utf16 => if bigEndian then native.utf16BE else native.utf16LE
  | utf16LittleEndian => native.utf16LE
  | utf16BigEndian => native.utf16BE
  | utf32 => if bigEndian then native.utf32BE else native.utf32LE
  | utf32LittleEndian => native.utf32LE
  | utf32BigEndian => native.utf32BE

def write (value : Utf16) (length : Int) (paddingValue : UInt8) :
    FieldMethod → EStateM Exn BinaryStreamWriter Unit
  | utf8 => BinaryStreamWriter.writeFixedUTF8 native value length paddingValue
  | utf16 => BinaryStreamWriter.writeFixedUTF16 native value length paddingValue
  | utf16LittleEndian =>
    BinaryStreamWriter.writeFixedUTF16LittleEndian native value length paddingValue
  | utf16BigEndian => BinaryStreamWriter.writeFixedUTF16BigEndian native value length paddingValue
  | utf32 => BinaryStreamWriter.writeFixedUTF32 native value length paddingValue
  | utf32LittleEndian =>
    BinaryStreamWriter.writeFixedUTF32LittleEndian native value length paddingValue
  | utf32BigEndian => BinaryStreamWriter.writeFixedUTF32BigEndian native value length paddingValue

def read (length : Int) : FieldMethod → EStateM Exn BinaryStreamReader Utf16
  | utf8 => BinaryStreamReader.readUTF8Fixed native length
  | utf16 => BinaryStreamReader.readUTF16Fixed native length
  | utf16LittleEndian => BinaryStreamReader.readUTF16LittleEndianFixed native length
  | utf16BigEndian => BinaryStreamReader.readUTF16BigEndianFixed native length
  | utf32 => BinaryStreamReader.readUTF32Fixed native length
  | utf32LittleEndian => BinaryStreamReader.readUTF32LittleEndianFixed native length
  | utf32BigEndian => BinaryStreamReader.readUTF32BigEndianFixed native length

variable {native} {value : Utf16} {length : Nat} {c : StreamCursor}

/-- All forms but that for UTF-8 are one method over their encoding and width. -/
theorem wide_of_ne (hnative : native.Wide) (bigEndian : Bool) {m : FieldMethod} (hm : m ≠ utf8) :
    (m.encoding native bigEndian).Wide m.width := by
  cases m with
  | utf8 => exact absurd rfl hm
  | utf16 => cases bigEndian with
    | false => exact hnative.utf16LE
    | true => exact hnative.utf16BE
  | utf16LittleEndian => exact hnative.utf16LE
  | utf16BigEndian => exact hnative.utf16BE
  | utf32 => cases bigEndian with
    | false => exact hnative.utf32LE
    | true => exact hnative.utf32BE
  | utf32LittleEndian => exact hnative.utf32LE
  | utf32BigEndian => exact hnative.utf32BE

theorem run_write {m : FieldMethod} (hm : m ≠ utf8) (paddingValue : UInt8) :
    (m.write native value length paddingValue).run c =
      (BinaryStreamWriter.writeFixedString value (m.encoding native c.bigEndian)
        (wrap32 (length * m.width.size)) paddingValue).run c := by
  have htwo : ((CharWidth.sixteenBit.size : Nat) : Int) = 2 := rfl
  have hfour : ((CharWidth.thirtyTwoBit.size : Nat) : Int) = 4 := rfl
  cases m with
  | utf8 => exact absurd rfl hm
  | utf16 =>
    rw [write, BinaryStreamWriter.writeFixedUTF16, run_get_bind, width, htwo, encoding]
  | utf32 =>
    rw [write, BinaryStreamWriter.writeFixedUTF32, run_get_bind, width, hfour, encoding]
  | utf16LittleEndian =>
    rw [write, BinaryStreamWriter.writeFixedUTF16LittleEndian, width, htwo, encoding]
  | utf16BigEndian =>
    rw [write, BinaryStreamWriter.writeFixedUTF16BigEndian, width, htwo, encoding]
  | utf32LittleEndian =>
    rw [write, BinaryStreamWriter.writeFixedUTF32LittleEndian, width, hfour, encoding]
  | utf32BigEndian =>
    rw [write, BinaryStreamWriter.writeFixedUTF32BigEndian, width, hfour, encoding]

theorem run_read {m : FieldMethod} (hm : m ≠ utf8) (c : StreamCursor) :
    (m.read native length).run c = (BinaryStreamReader.readFixedTerminatedStringW
      (m.encoding native c.bigEndian) length m.width).run c := by
  cases m with
  | utf8 => exact absurd rfl hm
  | utf16 =>
    rw [read, BinaryStreamReader.readUTF16Fixed, run_get_bind, encoding, width]
    by_cases hbig : c.bigEndian = true
    · rw [if_pos hbig, if_pos hbig]
    · rw [if_neg hbig, if_neg hbig]
  | utf32 =>
    rw [read, BinaryStreamReader.readUTF32Fixed, run_get_bind, encoding, width]
    by_cases hbig : c.bigEndian = true
    · rw [if_pos hbig, if_pos hbig]
    · rw [if_neg hbig, if_neg hbig]
  | utf16LittleEndian =>
    rw [read, BinaryStreamReader.readUTF16LittleEndianFixed, encoding, width]
  | utf16BigEndian => rw [read, BinaryStreamReader.readUTF16BigEndianFixed, encoding, width]
  | utf32LittleEndian =>
    rw [read, BinaryStreamReader.readUTF32LittleEndianFixed, encoding, width]
  | utf32BigEndian => rw [read, BinaryStreamReader.readUTF32BigEndianFixed, encoding, width]

/-- Texts of fields come back exactly if no more characters are looked at in front of the length,
counted in bytes, than the text has. -/
theorem roundTrips_iff (hnative : native.Wide) (m : FieldMethod) (hint : length < 2 ^ 31)
    (h : FieldText (m.encoding native c.bigEndian) m.width value length) :
    RoundTrips (m.write native value length 0) (m.read native length) value
        (length * m.width.size) c ↔
      length * m.width.size < 2 ^ 31 ∧
        ((m.encoding native c.bigEndian).getBytes value).length ≤
          length ⌈/⌉ m.width.size * m.width.size := by
  by_cases hm : m = utf8
  · subst hm
    have hone : utf8.width.size = 1 := rfl
    have hfits := h.fits
    rw [hone, Nat.mul_one] at hfits
    rw [hone, Nat.mul_one, ceilDiv_one, Nat.mul_one]
    exact iff_of_true (roundTrips_of_eightBit h) ⟨hint, hfits⟩
  · apply roundTripsW_iff h (wide_of_ne hnative _ hm) (run_write hm 0)
    intro t hbig
    rw [run_read hm, hbig]

end FieldMethod

theorem Encoding.wide_of_length {encoding : Encoding} {w : CharWidth}
    (hbytes : ∀ value, (encoding.getBytes value).length = value.length * w.size)
    (hstring : ∀ bs, (encoding.getString bs).length = bs.length / w.size) : encoding.Wide w where
  units value := by
    rw [hbytes]
    exact Nat.dvd_mul_left _ _
  grows := by
    rintro a b - ⟨k, hk⟩ hne
    have hlength := List.length_pos_of_ne_nil hne
    have hpositive : 0 < k := by
      apply Nat.pos_of_ne_zero
      rintro rfl
      omega
    rw [hstring, hstring, List.length_append, hk, Nat.add_mul_div_left _ _ w.size_pos]
    omega

/-- The encodings, as they are for text in ASCII. -/
def asciiField : FieldNative where
  toTextNative := asciiNative
  utf32LE :=
    ⟨List.flatMap fun c => Layout.encode c.toUInt32,
      fun bs => (Layout.decodeAll UInt32 (bs.length / 4) bs).map UInt32.toUInt16⟩
  utf32BE :=
    ⟨List.flatMap fun c => Layout.encode (reverseEndianness c.toUInt32),
      fun bs => (Layout.decodeAll UInt32 (bs.length / 4) bs).map
        fun c => (reverseEndianness c).toUInt16⟩

theorem length_flatMap_encode_map [Layout α] (f : UInt16 → α) (value : Utf16) :
    (value.flatMap fun c => Layout.encode (f c)).length = value.length * Layout.size α := by
  rw [← List.flatMap_map f Layout.encode, Layout.length_flatMap_encode, List.length_map,
    Nat.mul_comm]

theorem length_map_decodeAll [Layout α] (g : α → UInt16) (count : Nat) (bs : List UInt8) :
    ((Layout.decodeAll α count bs).map g).length = count := by
  rw [List.length_map, Layout.length_decodeAll]

theorem wide_asciiField : asciiField.Wide where
  utf16LE := Encoding.wide_of_length (length_flatMap_encode_map id) fun _ =>
    Layout.length_decodeAll _ _
  utf16BE := Encoding.wide_of_length (length_flatMap_encode_map reverseEndianness) fun _ =>
    length_map_decodeAll _ _ _
  utf32LE := Encoding.wide_of_length (length_flatMap_encode_map UInt16.toUInt32) fun _ =>
    length_map_decodeAll _ _ _
  utf32BE := Encoding.wide_of_length
    (length_flatMap_encode_map fun c => reverseEndianness c.toUInt32) fun _ =>
      length_map_decodeAll _ _ _

theorem roundTrips_iff_sample :
    RoundTrips (FieldMethod.utf16.write asciiField (ascii "ab") (3 : Nat) 0)
      (FieldMethod.utf16.read asciiField (3 : Nat)) (ascii "ab") 6 (StreamCursor.new [] true) := by
  have htext : FieldText (FieldMethod.utf16.encoding asciiField true) .sixteenBit (ascii "ab") 3 :=
    ⟨by decide, by decide, by decide⟩
  exact (FieldMethod.roundTrips_iff wide_asciiField .utf16 (by decide) htext).2
    ⟨by decide, by decide⟩

/-- The second of the two characters of a field is not looked at. -/
theorem field_cut :
    ¬ RoundTrips (FieldMethod.utf16.write asciiField (ascii "ab") (2 : Nat) 0)
      (FieldMethod.utf16.read asciiField (2 : Nat)) (ascii "ab") 4 (StreamCursor.new [] true) := by
  have htext : FieldText (FieldMethod.utf16.encoding asciiField true) .sixteenBit (ascii "ab") 2 :=
    ⟨by decide, by decide, by decide⟩
  have hne : FieldMethod.utf16 ≠ .utf8 := by decide
  have hiff := roundTripsW_iff htext (FieldMethod.wide_of_ne wide_asciiField true hne)
    (FieldMethod.run_write (c := StreamCursor.new [] true) hne 0)
    (fun t hbig => hbig ▸ FieldMethod.run_read hne t)
  intro htrip
  exact absurd (hiff.1 htrip).2 (by decide)

end AcOpenServer
