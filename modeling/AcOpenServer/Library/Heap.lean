import Mathlib

namespace Library
set_option autoImplicit true

/-- Arrays that are shared by reference; a reference is the number of arrays made before it. -/
structure Heap (α : Type) where
  arrays : List (List α)
  deriving DecidableEq, Repr

namespace Heap

/-- The reference of the next array. -/
def next (heap : Heap α) : Nat := heap.arrays.length

def get (heap : Heap α) (r : Nat) : List α := heap.arrays.getD r []

def set (heap : Heap α) (r : Nat) (array : List α) : Heap α := ⟨heap.arrays.set r array⟩

def alloc (heap : Heap α) (array : List α) : Heap α := ⟨heap.arrays ++ [array]⟩

variable {heap : Heap α}

theorem next_set (r : Nat) (array : List α) : (heap.set r array).next = heap.next :=
  List.length_set

theorem next_alloc (array : List α) : (heap.alloc array).next = heap.next + 1 :=
  List.length_append

theorem get_set_self (h : r < heap.next) (array : List α) : (heap.set r array).get r = array := by
  rw [get, set, List.getD_eq_getElem?_getD, List.getElem?_set_self h]
  rfl

theorem get_set_of_ne {r s : Nat} (h : s ≠ r) (array : List α) :
    (heap.set r array).get s = heap.get s := by
  rw [get, set, List.getD_eq_getElem?_getD, List.getElem?_set_ne h.symm, get,
    List.getD_eq_getElem?_getD]

theorem get_alloc_next (array : List α) : (heap.alloc array).get heap.next = array := by
  rw [get, alloc, next, List.getD_eq_getElem?_getD, List.getElem?_concat_length]
  rfl

theorem get_alloc_of_lt {r : Nat} (h : r < heap.next) (array : List α) :
    (heap.alloc array).get r = heap.get r := by
  rw [get, alloc, List.getD_eq_getElem?_getD, List.getElem?_append_left h, get,
    List.getD_eq_getElem?_getD]

end Heap

end Library
