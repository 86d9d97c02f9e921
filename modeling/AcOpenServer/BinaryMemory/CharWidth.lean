import AcOpenServer.Library.FirstIndex
import AcOpenServer.Runtime

namespace AcOpenServer
open Library
set_option autoImplicit true

/-- The characters of the string methods. -/
inductive CharWidth where
  | eightBit
  | sixteenBit
  | thirtyTwoBit
  deriving DecidableEq, Repr

namespace CharWidth

def size : CharWidth → Nat
  | eightBit => 1
  | sixteenBit => 2
  | thirtyTwoBit => 4

theorem size_pos (w : CharWidth) : 0 < w.size := by
  cases w <;> decide

end CharWidth

/-- Whether these many bytes are zeros. No more of them are looked at when one is not. -/
def allZero (buffer : List UInt8) : (count : Nat) → Nat → Except Exn Bool
  | 0, _ => .ok true
  | count + 1, i =>
    match buffer[i]? with
    | none => .error .indexOutOfRange
    | some b => if b = 0 then allZero buffer count (i + 1) else .ok false

theorem allZero_eq {buffer : List UInt8} (h : p + count ≤ buffer.length) :
    allZero buffer count p =
      .ok (decide ((buffer.drop p).take count = List.replicate count 0)) := by
  induction count generalizing p with
  | zero => rfl
  | succ count ih =>
    have hlt : p < buffer.length := by omega
    rw [allZero, List.getElem?_eq_getElem hlt, List.drop_eq_getElem_cons hlt, List.take_succ_cons,
      List.replicate_succ]
    dsimp only
    rw [ih (by omega)]
    by_cases hzero : buffer[p] = 0
    · rw [if_pos hzero, hzero]
      simp only [List.cons.injEq, true_and]
    · have hne : ¬ buffer[p] :: (buffer.drop (p + 1)).take count =
          0 :: List.replicate count 0 := fun heq => hzero (List.cons.inj heq).1
      rw [if_neg hzero, decide_eq_false hne]

namespace CharWidth

/-- The character at an index consists of zeros. -/
def IsZeroAt (w : CharWidth) (buffer : List UInt8) (i : Nat) : Prop :=
  (buffer.drop i).take w.size = List.replicate w.size 0

instance (w : CharWidth) (buffer : List UInt8) : DecidablePred (w.IsZeroAt buffer) :=
  fun _ => inferInstanceAs (Decidable (_ = _))

/-- How many of `n` characters from an index on stand before the first that is zero. -/
def textLength (w : CharWidth) (buffer : List UInt8) (i n : Nat) : Nat :=
  firstIndex (fun k => decide (w.IsZeroAt buffer (i + k * w.size))) n

/-- Their bytes. -/
def text (w : CharWidth) (buffer : List UInt8) (i n : Nat) : List UInt8 :=
  (buffer.drop i).take (w.textLength buffer i n * w.size)

/-- How many whole characters there are from an index on. -/
def wholeChars (w : CharWidth) (buffer : List UInt8) (i : Nat) : Nat :=
  (buffer.length - i) / w.size

variable {w : CharWidth} {buffer : List UInt8} {i k n : Nat}

theorem textLength_le (w : CharWidth) (buffer : List UInt8) (i n : Nat) :
    w.textLength buffer i n ≤ n := firstIndex_le _ n

theorem textLength_succ (w : CharWidth) (buffer : List UInt8) (i n : Nat) :
    w.textLength buffer i (n + 1) =
      if w.IsZeroAt buffer i then 0 else w.textLength buffer (i + w.size) n + 1 := by
  have hshift (k : Nat) : i + (k + 1) * w.size = i + w.size + k * w.size := by
    rw [Nat.succ_mul]
    omega
  rw [textLength, firstIndex_succ, Nat.zero_mul, Nat.add_zero]
  simp only [hshift, decide_eq_true_eq]
  rfl

theorem length_text (h : i + n * w.size ≤ buffer.length) :
    (w.text buffer i n).length = w.textLength buffer i n * w.size := by
  have hle := Nat.mul_le_mul_right w.size (textLength_le w buffer i n)
  rw [text, List.length_take, List.length_drop]
  omega

/-- Where the text from an index on ends, behind its terminator if there is one. -/
def textEnd (w : CharWidth) (buffer : List UInt8) (i : Nat) : Nat :=
  i + w.textLength buffer i (w.wholeChars buffer i) * w.size +
    if w.textLength buffer i (w.wholeChars buffer i) < w.wholeChars buffer i then w.size else 0

/-- None of `n` characters from an index on is zero. -/
def NoTerminator (w : CharWidth) (buffer : List UInt8) (i n : Nat) : Prop :=
  ∀ k < n, ¬ w.IsZeroAt buffer (i + k * w.size)

instance (w : CharWidth) (buffer : List UInt8) (i n : Nat) :
    Decidable (w.NoTerminator buffer i n) :=
  inferInstanceAs (Decidable (∀ k < n, _))

theorem textLength_eq_iff : w.textLength buffer i n = n ↔ w.NoTerminator buffer i n := by
  rw [textLength, firstIndex_eq_bound_iff, NoTerminator]
  simp only [decide_eq_true_eq]

theorem textLength_eq_iff_of_le (h : k ≤ n) : w.textLength buffer i n = k ↔
    w.NoTerminator buffer i k ∧ (k < n → w.IsZeroAt buffer (i + k * w.size)) := by
  rw [textLength, firstIndex_eq_iff h, NoTerminator]
  simp only [decide_eq_true_eq]

theorem add_wholeChars_le (h : i ≤ buffer.length) :
    i + w.wholeChars buffer i * w.size ≤ buffer.length := by
  have hle := Nat.div_mul_le_self (buffer.length - i) w.size
  rw [wholeChars]
  omega

theorem textLength_eq_min (w : CharWidth) (buffer : List UInt8) (i : Nat) (h : k ≤ n) :
    w.textLength buffer i k = min (w.textLength buffer i n) k := firstIndex_eq_min h

theorem isZeroAt_append_iff {rest : List UInt8} (h : i + w.size ≤ buffer.length) :
    w.IsZeroAt (buffer ++ rest) i ↔ w.IsZeroAt buffer i := by
  have hlength : w.size ≤ (buffer.drop i).length := by
    rw [List.length_drop]
    omega
  rw [IsZeroAt, IsZeroAt, List.drop_append_of_le_length (by omega),
    List.take_append_of_le_length hlength]

theorem isZeroAt_replicate (h : w.size ≤ n) :
    w.IsZeroAt (buffer ++ List.replicate n 0) buffer.length := by
  rw [IsZeroAt, List.drop_left, List.take_replicate, Nat.min_eq_left h]

theorem textLength_append_zeros (hlength : buffer.length = k * w.size) (hk : k ≤ n)
    (hnone : w.NoTerminator buffer 0 k) :
    w.textLength (buffer ++ List.replicate (n * w.size - buffer.length) 0) 0 n = k := by
  rw [textLength_eq_iff_of_le hk]
  constructor
  · intro j hj
    have hnext := Nat.mul_le_mul_right w.size hj
    rw [Nat.succ_mul] at hnext
    rw [isZeroAt_append_iff (by omega)]
    exact hnone j hj
  · intro hlt
    have hnext := Nat.mul_le_mul_right w.size hlt
    rw [Nat.succ_mul] at hnext
    rw [Nat.zero_add, ← hlength]
    exact isZeroAt_replicate (by omega)

end CharWidth

end AcOpenServer
