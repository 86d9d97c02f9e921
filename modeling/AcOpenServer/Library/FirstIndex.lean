import Mathlib

namespace Library
set_option autoImplicit true

variable {p : Nat → Bool} {m n : Nat}

/-- The first of the numbers below a bound that has a property, or the bound if none has. -/
def firstIndex (p : Nat → Bool) (n : Nat) : Nat := (List.range n).findIdx p

theorem firstIndex_le (p : Nat → Bool) (n : Nat) : firstIndex p n ≤ n :=
  (List.findIdx_le_length : (List.range n).findIdx p ≤ _).trans_eq List.length_range

theorem firstIndex_succ (p : Nat → Bool) (n : Nat) :
    firstIndex p (n + 1) = if p 0 then 0 else firstIndex (fun k => p (k + 1)) n + 1 := by
  rw [firstIndex, List.range_succ_eq_map, List.findIdx_cons, List.findIdx_map]
  cases p 0 <;> rfl

theorem firstIndex_lt_iff : firstIndex p n < n ↔ ∃ k < n, p k = true := by
  induction n generalizing p with
  | zero => exact iff_of_false (Nat.lt_irrefl 0) fun ⟨k, hk, _⟩ => Nat.not_lt_zero k hk
  | succ n ih =>
    rw [firstIndex_succ]
    cases hp : p 0 with
    | true => exact iff_of_true (Nat.succ_pos n) ⟨0, Nat.succ_pos n, hp⟩
    | false =>
      rw [if_neg Bool.false_ne_true, Nat.add_lt_add_iff_right, ih]
      constructor
      · rintro ⟨k, hk, hpk⟩
        exact ⟨k + 1, Nat.succ_lt_succ hk, hpk⟩
      · rintro ⟨k, hk, hpk⟩
        cases k with
        | zero => exact absurd (hp.symm.trans hpk) Bool.false_ne_true
        | succ k => exact ⟨k, Nat.lt_of_succ_lt_succ hk, hpk⟩

theorem firstIndex_eq_bound_iff : firstIndex p n = n ↔ ∀ k < n, ¬ p k = true := by
  have hle := firstIndex_le p n
  have hlt := firstIndex_lt_iff (p := p) (n := n)
  constructor
  · intro heq k hk hpk
    exact absurd (hlt.2 ⟨k, hk, hpk⟩) (by omega)
  · intro hnone
    apply Nat.le_antisymm hle
    apply Nat.not_lt.1
    intro hsome
    obtain ⟨k, hk, hpk⟩ := hlt.1 hsome
    exact hnone k hk hpk

theorem apply_firstIndex (h : firstIndex p n < n) : p (firstIndex p n) = true := by
  have hlt : (List.range n).findIdx p < (List.range n).length := by rwa [List.length_range]
  have hget := List.findIdx_getElem (w := hlt)
  rwa [List.getElem_range] at hget

theorem firstIndex_eq_min (h : m ≤ n) : firstIndex p m = min (firstIndex p n) m := by
  induction m generalizing p n with
  | zero => exact (Nat.min_zero _).symm
  | succ m ih =>
    obtain ⟨n, rfl⟩ : ∃ k, n = k + 1 := ⟨n - 1, by omega⟩
    rw [firstIndex_succ, firstIndex_succ]
    cases p 0 with
    | true => exact (Nat.zero_min _).symm
    | false =>
      rw [if_neg Bool.false_ne_true, if_neg Bool.false_ne_true, ih (Nat.le_of_succ_le_succ h),
        Nat.succ_min_succ]

theorem firstIndex_eq_iff (h : m ≤ n) :
    firstIndex p n = m ↔ (∀ k < m, ¬ p k = true) ∧ (m < n → p m = true) := by
  have hmin := firstIndex_eq_min (p := p) h
  constructor
  · rintro rfl
    rw [Nat.min_self] at hmin
    exact ⟨firstIndex_eq_bound_iff.1 hmin, apply_firstIndex⟩
  · rintro ⟨hnone, hfirst⟩
    rw [firstIndex_eq_bound_iff.2 hnone] at hmin
    have hle := firstIndex_le p n
    apply Nat.le_antisymm _ (by omega)
    apply Nat.not_lt.1
    intro hlt
    have hsucc : firstIndex p (m + 1) = m + 1 := by
      rw [firstIndex_eq_min (Nat.le_trans hlt hle)]
      omega
    exact firstIndex_eq_bound_iff.1 hsucc m (Nat.lt_succ_self m) (hfirst (by omega))

end Library
