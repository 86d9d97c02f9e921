import Mathlib

namespace Library
set_option autoImplicit true

namespace Mersenne

/-- The high part of a number in base `2 ^ k`, added to its low part. -/
def fold (k n : Nat) : Nat := n / 2 ^ k + n % 2 ^ k

theorem fold_modEq (k n : Nat) : fold k n ≡ n [MOD mersenne k] := by
  have hpow : 2 ^ k ≡ 1 [MOD mersenne k] := by
    apply ((Nat.modEq_iff_dvd' Nat.one_le_two_pow).2 _).symm
    exact dvd_rfl
  calc fold k n = 1 * (n / 2 ^ k) + n % 2 ^ k := by rw [one_mul, fold]
    _ ≡ 2 ^ k * (n / 2 ^ k) + n % 2 ^ k [MOD mersenne k] := (hpow.symm.mul_right _).add_right _
    _ = n := Nat.div_add_mod n (2 ^ k)

theorem fold_le (h : n < 2 ^ (k + 1)) : fold k n ≤ 2 ^ k := by
  rw [pow_succ] at h
  rcases Nat.lt_or_ge n (2 ^ k) with hlt | hge
  · rw [fold, Nat.div_eq_of_lt hlt, Nat.mod_eq_of_lt hlt, zero_add]
    exact hlt.le
  · have hdiv : n / 2 ^ k = 1 := Nat.div_eq_of_lt_le (by omega) (by omega)
    have hmod := Nat.mod_lt n (Nat.two_pow_pos k)
    rw [fold, hdiv]
    omega

theorem fold_eq_ite (h : n < 2 ^ (k + 1)) :
    fold k n = if n < 2 ^ k then n else n - 2 ^ k + 1 := by
  rw [pow_succ] at h
  split
  · next hlt => rw [fold, Nat.div_eq_of_lt hlt, Nat.mod_eq_of_lt hlt, zero_add]
  · next hge =>
    have hdiv : n / 2 ^ k = 1 := Nat.div_eq_of_lt_le (by omega) (by omega)
    have hmod : n % 2 ^ k = n - 2 ^ k := by
      rw [Nat.mod_eq_sub_mod (by omega), Nat.mod_eq_of_lt (by omega)]
    rw [fold, hdiv, hmod, Nat.add_comm]

end Mersenne

end Library
