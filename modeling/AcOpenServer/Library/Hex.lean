import Mathlib

namespace Library
set_option autoImplicit true

/-- The upper-case hexadecimal digit of a number below sixteen, as a UTF-16 code unit. -/
def hexDigit (n : Nat) : UInt16 :=
  if n < 10 then UInt16.ofNat (0x30 + n) else UInt16.ofNat (0x37 + n)

/-- The value of a hexadecimal digit of either case. -/
def hexValue? (c : UInt16) : Option Nat :=
  if 0x30 ≤ c ∧ c ≤ 0x39 then some (c.toNat - 0x30)
  else if 0x61 ≤ c ∧ c ≤ 0x66 then some (c.toNat - 0x57)
  else if 0x41 ≤ c ∧ c ≤ 0x46 then some (c.toNat - 0x37)
  else none

def hexPair (b : UInt8) : List UInt16 := [hexDigit (b.toNat / 16), hexDigit (b.toNat % 16)]

/-- The hexadecimal numeral of a byte string. -/
def hexText (bs : List UInt8) : List UInt16 := bs.flatMap hexPair

/-- The digits the numerals are made of. -/
def IsUpperHex (c : UInt16) : Prop := ∃ n < 16, hexDigit n = c

theorem toNat_hexDigit (h : n < 16) :
    (hexDigit n).toNat = if n < 10 then 0x30 + n else 0x37 + n := by
  unfold hexDigit
  by_cases hn : n < 10
  · rw [if_pos hn, if_pos hn, UInt16.toNat_ofNat']
    omega
  · rw [if_neg hn, if_neg hn, UInt16.toNat_ofNat']
    omega

theorem hexDigit_inj (hm : m < 16) (hn : n < 16) (h : hexDigit m = hexDigit n) : m = n := by
  have h' := congrArg UInt16.toNat h
  rw [toNat_hexDigit hm, toNat_hexDigit hn] at h'
  split at h' <;> split at h' <;> omega

theorem hexValue?_hexDigit (h : n < 16) : hexValue? (hexDigit n) = some n := by
  have hd := toNat_hexDigit h
  simp only [hexValue?, UInt16.le_iff_toNat_le, hd, UInt16.reduceToNat]
  by_cases hn : n < 10
  · rw [if_pos hn, if_pos (by omega)]
    exact congrArg some (by omega)
  · rw [if_neg hn, if_neg (by omega), if_neg (by omega), if_pos (by omega)]
    exact congrArg some (by omega)

theorem isUpperHex_of_mem_hexText (h : c ∈ hexText bs) : IsUpperHex c := by
  obtain ⟨b, _, hc⟩ := List.mem_flatMap.1 h
  have hb := b.toNat_lt
  rcases List.mem_cons.1 hc with rfl | hc
  · exact ⟨_, by omega, rfl⟩
  · exact ⟨_, by omega, (List.mem_singleton.1 hc).symm⟩

theorem hexPair_injective : Function.Injective hexPair := by
  intro a b h
  have ha := a.toNat_lt
  have hb := b.toNat_lt
  obtain ⟨hhigh, hrest⟩ := List.cons.inj h
  obtain ⟨hlow, _⟩ := List.cons.inj hrest
  have hhigh' := hexDigit_inj (by omega) (by omega) hhigh
  have hlow' := hexDigit_inj (by omega) (by omega) hlow
  apply UInt8.toNat_inj.1
  omega

theorem hexText_injective : Function.Injective hexText := by
  intro as
  induction as with
  | nil =>
    intro bs h
    cases bs with
    | nil => rfl
    | cons b bs => cases h
  | cons a as ih =>
    intro bs h
    cases bs with
    | nil => cases h
    | cons b bs =>
      obtain ⟨hpair, hrest⟩ := List.append_inj h rfl
      rw [hexPair_injective hpair, ih hrest]

@[simp] theorem length_hexText (bs : List UInt8) : (hexText bs).length = 2 * bs.length := by
  induction bs with
  | nil => rfl
  | cons b bs ih =>
    have hcons : hexText (b :: bs) = hexPair b ++ hexText bs := rfl
    rw [hcons, List.length_append, ih, List.length_cons]
    change 2 + _ = _
    omega

theorem hexPair_ofNat (hm : m < 16) (hn : n < 16) :
    hexPair (UInt8.ofNat (m * 16 + n)) = [hexDigit m, hexDigit n] := by
  have hvalue : (UInt8.ofNat (m * 16 + n)).toNat = m * 16 + n :=
    UInt8.toNat_ofNat_of_lt (by simp only [UInt8.size]; omega)
  have hhigh : (m * 16 + n) / 16 = m := by omega
  have hlow : (m * 16 + n) % 16 = n := by omega
  rw [hexPair, hvalue, hhigh, hlow]

end Library
