import Mathlib

namespace Library
set_option autoImplicit true

/-- The UTF-8 encoding of a string. -/
def utf8Encode (s : String) : List UInt8 := s.toList.flatMap String.utf8EncodeChar

def isContinuation (b : UInt8) : Bool := 0x80 ≤ b && b ≤ 0xBF

/-- The second bytes that can follow a lead byte of a three or four byte sequence. -/
def isSecond (lead b : UInt8) : Bool :=
  if lead = 0xE0 then 0xA0 ≤ b && b ≤ 0xBF
  else if lead = 0xED then 0x80 ≤ b && b ≤ 0x9F
  else if lead = 0xF0 then 0x90 ≤ b && b ≤ 0xBF
  else if lead = 0xF4 then 0x80 ≤ b && b ≤ 0x8F
  else 0xE1 ≤ lead && lead ≤ 0xF3 && isContinuation b

/-- How many bytes of an ill-formed sequence one replacement character stands for: the
longest initial part that some well-formed sequence starts with, and at least one byte. -/
def maximalSubpart : List UInt8 → Nat
  | lead :: second :: third :: _ =>
    if isSecond lead second then
      if 0xF0 ≤ lead && isContinuation third then 3 else 2
    else 1
  | [lead, second] => if isSecond lead second then 2 else 1
  | _ => 1

/-- The first character of a byte string and the number of bytes it takes. -/
def utf8DecodeChar (bs : List UInt8) : Char × Nat :=
  match (bs.take 4).toByteArray.utf8DecodeChar? 0 with
  | some c => (c, c.utf8Size)
  | none => ('\uFFFD', maximalSubpart bs)

/-- Decode after skipping `skip` bytes, which belong to a character already decoded. -/
def utf8DecodeFrom : List UInt8 → (skip : Nat) → List Char
  | [], _ => []
  | _ :: bs, skip + 1 => utf8DecodeFrom bs skip
  | b :: bs, 0 =>
    let d := utf8DecodeChar (b :: bs)
    d.1 :: utf8DecodeFrom bs (d.2 - 1)

/-- UTF-8 decoding that replaces ill-formed input by U+FFFD and so never fails. -/
def utf8Decode (bs : List UInt8) : String := String.ofList (utf8DecodeFrom bs 0)

theorem utf8DecodeFrom_skip (bs rest : List UInt8) :
    utf8DecodeFrom (bs ++ rest) bs.length = utf8DecodeFrom rest 0 := by
  induction bs with
  | nil => rfl
  | cons b bs ih => exact ih

theorem utf8DecodeChar_encode (c : Char) (rest : List UInt8) :
    utf8DecodeChar (String.utf8EncodeChar c ++ rest) = (c, c.utf8Size) := by
  have hlen : (String.utf8EncodeChar c).length ≤ 4 := by
    rw [String.length_utf8EncodeChar]
    exact c.utf8Size_le_four
  have htake : (String.utf8EncodeChar c ++ rest).take 4 =
      String.utf8EncodeChar c ++ rest.take (4 - (String.utf8EncodeChar c).length) := by
    rw [List.take_append, List.take_of_length_le hlen]
  rw [utf8DecodeChar, htake, List.toByteArray_append,
    ByteArray.utf8DecodeChar?_utf8EncodeChar_append]

theorem utf8DecodeFrom_encodeChar (c : Char) (rest : List UInt8) :
    utf8DecodeFrom (String.utf8EncodeChar c ++ rest) 0 = c :: utf8DecodeFrom rest 0 := by
  have hd := utf8DecodeChar_encode c rest
  have hlen := String.length_utf8EncodeChar c
  cases he : String.utf8EncodeChar c with
  | nil => exact (String.utf8EncodeChar_ne_nil he).elim
  | cons b bs =>
    rw [he] at hd hlen
    rw [List.cons_append] at hd ⊢
    have hskip : c.utf8Size - 1 = bs.length := by rw [← hlen]; rfl
    rw [utf8DecodeFrom, hd]
    simp only [hskip, utf8DecodeFrom_skip]

theorem utf8DecodeFrom_encode (cs : List Char) :
    utf8DecodeFrom (cs.flatMap String.utf8EncodeChar) 0 = cs := by
  induction cs with
  | nil => rfl
  | cons c cs ih => rw [List.flatMap_cons, utf8DecodeFrom_encodeChar, ih]

theorem utf8Decode_encode (s : String) : utf8Decode (utf8Encode s) = s := by
  rw [utf8Decode, utf8Encode, utf8DecodeFrom_encode, String.ofList_toList]

/-- The zero byte occurs in the encoding of the zero character only. -/
theorem zero_mem_utf8EncodeChar {c : Char} (h : (0 : UInt8) ∈ String.utf8EncodeChar c) :
    c = '\x00' := by
  have hor (x : UInt8) {y : UInt8} (hy : y ≠ 0) : (0 : UInt8) ≠ x ||| y := by
    intro he
    exact hy (UInt8.or_eq_zero_iff.1 he.symm).2
  have hpos := c.utf8Size_pos
  have hle := c.utf8Size_le_four
  obtain hs | hs | hs | hs : c.utf8Size = 1 ∨ c.utf8Size = 2 ∨ c.utf8Size = 3 ∨
      c.utf8Size = 4 := by omega
  · rw [String.utf8EncodeChar_eq_singleton hs, List.mem_singleton] at h
    have hlt : c.val ≤ 0x7F := Char.utf8Size_eq_one_iff.1 hs
    apply Char.ext
    apply UInt32.toNat_inj.1
    have hn := congrArg UInt8.toNat h
    have hle' := UInt32.le_iff_toNat_le.1 hlt
    simp only [UInt32.toNat_toUInt8, UInt8.toNat_zero] at hn
    simp only [UInt32.reduceToNat] at hle'
    change c.val.toNat = 0
    omega
  · rw [String.utf8EncodeChar_eq_cons_cons hs] at h
    simp only [List.mem_cons, List.not_mem_nil, or_false] at h
    rcases h with h | h
    · exact (hor _ (by decide) h).elim
    · exact (hor _ (by decide) h).elim
  · rw [String.utf8EncodeChar_eq_cons_cons_cons hs] at h
    simp only [List.mem_cons, List.not_mem_nil, or_false] at h
    rcases h with h | h | h
    · exact (hor _ (by decide) h).elim
    · exact (hor _ (by decide) h).elim
    · exact (hor _ (by decide) h).elim
  · rw [String.utf8EncodeChar_eq_cons_cons_cons_cons hs] at h
    simp only [List.mem_cons, List.not_mem_nil, or_false] at h
    rcases h with h | h | h | h
    · exact (hor _ (by decide) h).elim
    · exact (hor _ (by decide) h).elim
    · exact (hor _ (by decide) h).elim
    · exact (hor _ (by decide) h).elim

theorem zero_not_mem_utf8Encode {s : String} (h : '\x00' ∉ s.toList) :
    (0 : UInt8) ∉ utf8Encode s := by
  intro hmem
  obtain ⟨c, hc, hz⟩ := List.mem_flatMap.1 hmem
  exact h (zero_mem_utf8EncodeChar hz ▸ hc)

example : utf8Decode [0x41, 0xE0, 0xA0, 0x42, 0xC3, 0xA9] = "A\uFFFDB\u00E9" := by decide

end Library
