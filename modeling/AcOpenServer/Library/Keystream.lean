import Mathlib

namespace Library
set_option autoImplicit true

/-- Bytes added to a key stream from byte `n` of it on. -/
def xorStream (ks : Nat → UInt8) (n : Nat) : List UInt8 → List UInt8
  | [] => []
  | b :: bs => (b ^^^ ks n) :: xorStream ks (n + 1) bs

@[simp] theorem length_xorStream (ks : Nat → UInt8) (n : Nat) (bs : List UInt8) :
    (xorStream ks n bs).length = bs.length := by
  induction bs generalizing n with
  | nil => rfl
  | cons b bs ih => rw [xorStream, List.length_cons, ih, List.length_cons]

theorem xorStream_append (ks : Nat → UInt8) (n : Nat) (as bs : List UInt8) :
    xorStream ks n (as ++ bs) = xorStream ks n as ++ xorStream ks (n + as.length) bs := by
  induction as generalizing n with
  | nil => rfl
  | cons a as ih =>
    rw [List.cons_append, xorStream, ih, xorStream, List.cons_append, List.length_cons,
      Nat.add_assoc, Nat.add_comm 1]

@[simp] theorem xorStream_xorStream (ks : Nat → UInt8) (n : Nat) (bs : List UInt8) :
    xorStream ks n (xorStream ks n bs) = bs := by
  induction bs generalizing n with
  | nil => rfl
  | cons b bs ih => rw [xorStream, xorStream, ih, UInt8.xor_assoc, UInt8.xor_self, UInt8.xor_zero]

end Library
