import Mathlib

namespace Library
set_option autoImplicit true

namespace Limbs

open Finset

/-- The number with the digits `x 0`, …, `x (n - 1)`, the least significant first. -/
def number (b n : Nat) (x : Nat → Nat) : Nat := ∑ i ∈ range n, x i * b ^ i

/-- What columns of any size carry into column `i` when they are reduced to digits. -/
def carry (b : Nat) (col : Nat → Nat) : Nat → Nat
  | 0 => 0
  | i + 1 => (carry b col i + col i) / b

def digit (b : Nat) (col : Nat → Nat) (i : Nat) : Nat := (carry b col i + col i) % b

/-- The products that meet in column `k` when numbers of `n` digits are multiplied. -/
def column (n : Nat) (x y : Nat → Nat) (k : Nat) : Nat :=
  ∑ j ∈ range n with j ≤ k ∧ k - j < n, x j * y (k - j)

theorem number_succ (b n : Nat) (x : Nat → Nat) :
    number b (n + 1) x = number b n x + x n * b ^ n := sum_range_succ ..

theorem number_congr (h : ∀ i < n, x i = y i) : number b n x = number b n y :=
  sum_congr rfl fun i hi => by rw [h i (mem_range.1 hi)]

theorem digit_add_carry (b : Nat) (col : Nat → Nat) (i : Nat) :
    digit b col i + b * carry b col (i + 1) = carry b col i + col i := Nat.mod_add_div ..

/-- The digits stand for the columns but for what is carried out of the last one. -/
theorem number_digit (b n : Nat) (col : Nat → Nat) :
    number b n (digit b col) + carry b col n * b ^ n = number b n col := by
  induction n with
  | zero => simp [number, carry]
  | succ n ih =>
    rw [number_succ, number_succ, ← ih]
    have h := digit_add_carry b col n
    calc number b n (digit b col) + digit b col n * b ^ n + carry b col (n + 1) * b ^ (n + 1)
        = number b n (digit b col) + (digit b col n + b * carry b col (n + 1)) * b ^ n := by ring
      _ = number b n (digit b col) + carry b col n * b ^ n + col n * b ^ n := by rw [h]; ring

theorem number_digit_of_lt (h : number b n col < b ^ n) :
    number b n (digit b col) = number b n col := by
  have hd := number_digit b n col
  have hcarry : carry b col n = 0 := by
    by_contra hne
    have hle : b ^ n ≤ carry b col n * b ^ n :=
      Nat.le_mul_of_pos_left _ (Nat.pos_of_ne_zero hne)
    omega
  rw [hcarry] at hd
  omega

theorem number_mul (b n : Nat) (x y : Nat → Nat) :
    number b n x * number b n y = number b (2 * n) (column n x y) := by
  have hmaps : ∀ p ∈ range n ×ˢ range n, p.1 + p.2 ∈ range (2 * n) := by
    intro p hp
    have h := mem_product.1 hp
    have h1 := mem_range.1 h.1
    have h2 := mem_range.1 h.2
    exact mem_range.2 (by omega)
  rw [number, number, sum_mul_sum, ← sum_product', ← sum_fiberwise_of_maps_to hmaps, number]
  apply sum_congr rfl
  intro k hk
  rw [column, sum_mul]
  apply sum_nbij' Prod.fst fun j => (j, k - j)
  · intro p hp
    simp only [mem_filter, mem_product, mem_range] at hp ⊢
    omega
  · intro j hj
    simp only [mem_filter, mem_product, mem_range] at hj ⊢
    omega
  · intro p hp
    simp only [mem_filter, mem_product, mem_range] at hp
    exact Prod.ext rfl (by dsimp only; omega)
  · intro j hj
    rfl
  · intro p hp
    simp only [mem_filter, mem_product, mem_range] at hp
    have hsnd : k - p.1 = p.2 := by omega
    rw [hsnd, ← hp.2, pow_add]
    ring

end Limbs

end Library
