import Mathlib.Data.List.Infix
import Mathlib.Tactic.Common

/-! C arrays of a fixed size: an access outside the array has no value, and an array with a length
counter is a stack. The view of such a stack is the part of the array below the counter. -/

namespace SwmLvgl.CArray

variable {α : Type*} {n : Nat}

/-- `a[i]`; none outside the array. -/
def get (a : Vector α n) (i : Int) : Option α :=
  if 0 ≤ i then a[i.toNat]? else none

/-- `a[i] = x`; none outside the array. -/
def set (a : Vector α n) (i : Int) (x : α) : Option (Vector α n) :=
  if 0 ≤ i ∧ i.toNat < n then some (a.setIfInBounds i.toNat x) else none

theorem get_natCast (a : Vector α n) (i : Nat) : get a i = a[i]? := by
  simp [get]

theorem get_of_lt (a : Vector α n) {i : Nat} (h : i < n) : get a i = some a[i] := by
  rw [get_natCast, Vector.getElem?_eq_getElem h]

theorem set_of_lt (a : Vector α n) {i : Nat} (h : i < n) (x : α) :
    set a i x = some (a.setIfInBounds i x) := by
  simp [set, h]

theorem get_eq_none_iff (a : Vector α n) (i : Int) : get a i = none ↔ i < 0 ∨ (n : Int) ≤ i := by
  unfold get
  split <;> simp <;> omega

/-- The entries of the array below the counter, bottom first. -/
def view (a : Vector α n) (len : Nat) : List α := a.toList.take len

@[simp] theorem length_view (a : Vector α n) {len : Nat} (h : len ≤ n) :
    (view a len).length = len := by
  simp [view, h]

@[simp] theorem view_zero (a : Vector α n) : view a 0 = [] := rfl

theorem getElem?_view (a : Vector α n) (len i : Nat) :
    (view a len)[i]? = if i < len then a[i]? else none := by
  simp [view, List.getElem?_take]

theorem view_set_of_le (a : Vector α n) {len i : Nat} (h : len ≤ i) (x : α) :
    view (a.setIfInBounds i x) len = view a len := by
  apply List.ext_getElem?
  intro j
  simp only [getElem?_view, Vector.getElem?_setIfInBounds]
  by_cases hj : j < len
  · rw [if_pos hj, if_pos hj, if_neg (by omega)]
  · rw [if_neg hj, if_neg hj]

/-- Writing at the counter and counting the entry in pushes. -/
theorem view_push (a : Vector α n) {len : Nat} (h : len < n) (x : α) :
    view (a.setIfInBounds len x) (len + 1) = view a len ++ [x] := by
  apply List.ext_getElem?
  intro j
  rw [getElem?_view, List.getElem?_append, length_view a h.le, getElem?_view,
    Vector.getElem?_setIfInBounds]
  rcases Nat.lt_trichotomy j len with hj | rfl | hj
  · rw [if_pos (by omega), if_neg (by omega), if_pos hj, if_pos hj]
  · simp [h]
  · rw [if_neg (by omega), if_neg (by omega), List.getElem?_eq_none (by simp; omega)]

/-- Counting the top entry out pops. -/
theorem view_pop (a : Vector α n) {len : Nat} (h : len + 1 ≤ n) :
    view a len = (view a (len + 1)).dropLast := by
  rw [List.dropLast_eq_take, length_view a h, view, view, List.take_take]
  congr 1
  omega

/-- Writing just below the counter replaces the top entry. -/
theorem view_replaceTop (a : Vector α n) {len : Nat} (h : len + 1 ≤ n) (x : α) :
    view (a.setIfInBounds len x) (len + 1) = (view a (len + 1)).dropLast ++ [x] := by
  rw [view_push a h, view_pop a h]

theorem getLast?_view (a : Vector α n) {len : Nat} (h : len + 1 ≤ n) :
    (view a (len + 1)).getLast? = a[len]? := by
  rw [List.getLast?_eq_getElem?, length_view a h, getElem?_view]
  simp

end SwmLvgl.CArray
