import Mathlib.Data.List.ReduceOption

/-!
# A table of slots

A table holds values in some of its slots, in any order and possibly more than once.  A value is put
into an empty slot, and all values with some property are removed at once.

`reduceOption` is what the table holds.  It does not matter for that which slot a value is put into.
-/

set_option autoImplicit false

namespace Rust.Slots

universe u

variable {α : Type u} {slots : List (Option α)} {a : α} {p : α → Bool} {i : ℕ}

/-- `first <= a && a <= last`. -/
def inRange {α : Type u} [LE α] [DecidableLE α] (first last a : α) : Bool :=
  decide (first ≤ a) && decide (a ≤ last)

theorem inRange_iff {α : Type u} [LE α] [DecidableLE α] {first last a : α} :
    inRange first last a = true ↔ first ≤ a ∧ a ≤ last := by
  rw [inRange, Bool.and_eq_true, decide_eq_true_eq, decide_eq_true_eq]

/-- Empty the slots whose value has the property. -/
def clear (p : α → Bool) (slot : Option α) : Option α := if slot.any p then none else slot

theorem reduceOption_set (h : slots[i]? = some none) :
    (slots.set i (some a)).reduceOption.Perm (a :: slots.reduceOption) := by
  induction slots generalizing i with
  | nil => cases h
  | cons x slots ih =>
    cases i with
    | zero =>
      rw [List.getElem?_cons_zero] at h
      cases h
      exact .refl _
    | succ i =>
      rw [List.getElem?_cons_succ] at h
      rw [List.set_cons_succ]
      cases x with
      | none => exact ih h
      | some b =>
        rw [List.reduceOption_cons_of_some, List.reduceOption_cons_of_some]
        exact ((ih h).cons b).trans (.swap a b _)

theorem reduceOption_clear (p : α → Bool) (slots : List (Option α)) :
    (slots.map (clear p)).reduceOption = slots.reduceOption.filter fun a ↦ !p a := by
  induction slots with
  | nil => rfl
  | cons x slots ih =>
    rw [List.map_cons]
    cases x with
    | none => exact ih
    | some a =>
      rw [List.reduceOption_cons_of_some, List.filter_cons, ← ih, clear, Option.any_some]
      cases p a <;> rfl

/-- The first empty slot. -/
theorem getElem?_of_findIdx? (h : slots.findIdx? Option.isNone = some i) :
    slots[i]? = some none := by
  obtain ⟨hlt, hnone, -⟩ := List.findIdx?_eq_some_iff_getElem.mp h
  rw [List.getElem?_eq_getElem hlt, Option.isNone_iff_eq_none.mp hnone]

theorem exists_findIdx? (h : none ∈ slots) : ∃ i, slots.findIdx? Option.isNone = some i := by
  refine Option.isSome_iff_exists.mp ?_
  rw [List.findIdx?_isSome, List.any_eq_true]
  exact ⟨none, h, rfl⟩

end Rust.Slots
