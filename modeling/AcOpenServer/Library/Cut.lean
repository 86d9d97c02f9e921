import Mathlib

namespace Library
set_option autoImplicit true

/-- A list that is being cut: the whole blocks, and what is left for the next one. -/
structure Cutting (α : Type) where
  blocks : List (List α)
  rest : List α

namespace Cutting

/-- One more element, which may complete a block of `n`. -/
def push (n : Nat) (s : Cutting α) (a : α) : Cutting α :=
  if s.rest.length + 1 = n then ⟨s.blocks ++ [s.rest ++ [a]], []⟩
  else ⟨s.blocks, s.rest ++ [a]⟩

end Cutting

/-- A list cut into blocks of `n`. -/
def cutInto (n : Nat) (as : List α) : Cutting α := as.foldl (Cutting.push n) ⟨[], []⟩

@[simp] theorem cut_nil (n : Nat) : cutInto n ([] : List α) = ⟨[], []⟩ := rfl

theorem cut_append (n : Nat) (as bs : List α) :
    cutInto n (as ++ bs) = bs.foldl (Cutting.push n) (cutInto n as) := List.foldl_append

theorem cut_snoc (n : Nat) (as : List α) (a : α) :
    cutInto n (as ++ [a]) = (cutInto n as).push n a := cut_append n as [a]

theorem length_rest_cut (hn : 0 < n) (as : List α) : (cutInto n as).rest.length = as.length % n := by
  induction as using List.reverseRecOn with
  | nil => exact (Nat.zero_mod n).symm
  | append_singleton as a ih =>
    have hlt := Nat.mod_lt as.length hn
    have hmod := Nat.add_mod as.length 1 n
    rw [cut_snoc, Cutting.push, List.length_append, List.length_singleton, ← Nat.mod_add_mod, ← ih]
    rw [← ih] at hlt
    split
    · next h => rw [h, Nat.mod_self, List.length_nil]
    · next h => rw [List.length_append, List.length_singleton, Nat.mod_eq_of_lt (by omega)]

/-- A list filled up with a value to the end of its last block. -/
def padTo (n : Nat) (a : α) (as : List α) : List α :=
  as ++ List.replicate ((n - as.length % n) % n) a

theorem dvd_length_padTo (hn : 0 < n) (a : α) (as : List α) : n ∣ (padTo n a as).length := by
  have hlt := Nat.mod_lt as.length hn
  rw [padTo, List.length_append, List.length_replicate]
  apply Nat.dvd_of_mod_eq_zero
  rcases Nat.eq_zero_or_pos (as.length % n) with h | h
  · rw [h, Nat.sub_zero, Nat.mod_self, Nat.add_zero, h]
  · rw [Nat.mod_eq_of_lt (by omega : n - as.length % n < n), ← Nat.mod_add_mod,
      Nat.add_sub_cancel' hlt.le, Nat.mod_self]

theorem padTo_append_of_dvd {as : List α} (h : n ∣ as.length) (a : α) (bs : List α) :
    padTo n a (as ++ bs) = as ++ padTo n a bs := by
  obtain ⟨k, hk⟩ := h
  rw [padTo, padTo, List.length_append, hk, Nat.mul_add_mod, List.append_assoc]

end Library
