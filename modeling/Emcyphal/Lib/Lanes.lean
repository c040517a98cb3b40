import Mathlib.Data.List.Nodup
import Mathlib.Logic.Function.Basic

/-!
# Lists whose members know where they are

A family of lists, one for each key, where an element is in at most one of them, and carries a mark
that says in which.  `Linked` is the connection between the two.  The mark is what makes it possible
to take an element out without searching for it, and to move it to another list.

All that happens is `place`, the change of an element's mark to any other one: the element is taken
out of the list it is in, and appended to the list it is placed in.
-/

set_option autoImplicit false

namespace Rust.Lanes

universe u v

variable {ι : Type u} {κ : Type v} [DecidableEq ι] [DecidableEq κ]

/-- Each element is in the list that its mark says, once, and in no other one. -/
structure Linked (lanes : κ → List ι) (mark : ι → Option κ) : Prop where
  mem : ∀ k i, i ∈ lanes k ↔ mark i = some k
  nodup : ∀ k, (lanes k).Nodup

/-- The element is moved to the list of the mark, or to none. -/
def place (lanes : κ → List ι) (i : ι) (mark : Option κ) (k : κ) : List ι :=
  (lanes k).erase i ++ if mark = some k then [i] else []

variable {lanes : κ → List ι} {mark : ι → Option κ} {i j : ι} {k k' : κ} {m : Option κ}

omit [DecidableEq κ] in
theorem Linked.erase_eq_self (h : Linked lanes mark) (hk : mark i ≠ some k) :
    (lanes k).erase i = lanes k :=
  List.erase_of_not_mem fun hmem ↦ hk ((h.mem k i).mp hmem)

theorem Linked.place (h : Linked lanes mark) (i : ι) (m : Option κ) :
    Linked (Lanes.place lanes i m) (Function.update mark i m) where
  mem k j := by
    rw [Lanes.place, List.mem_append, (h.nodup k).mem_erase_iff]
    by_cases hj : j = i
    · subst hj
      rw [Function.update_self]
      split <;> simp_all
    · rw [Function.update_of_ne hj, h.mem k j]
      split <;> simp [hj]
  nodup k := by
    rw [Lanes.place]
    split
    · refine List.Nodup.append ((h.nodup k).erase i) (List.nodup_singleton i) ?_
      intro j hj hi
      rw [List.mem_singleton.mp hi] at hj
      exact (h.nodup k).not_mem_erase hj
    · rw [List.append_nil]
      exact (h.nodup k).erase i

/-- Only the list an element is in changes when it is taken out. -/
theorem Linked.place_none (h : Linked lanes mark) (hi : mark i = some k) :
    Lanes.place lanes i none = Function.update lanes k ((lanes k).erase i) := by
  funext k'
  by_cases hk : k' = k
  · subst hk
    simp [Lanes.place]
  · rw [Function.update_of_ne hk, Lanes.place, h.erase_eq_self]
    · simp
    · rw [hi]
      simpa using Ne.symm hk

/-- An element that is in no list is appended to one. -/
theorem Linked.place_some (h : Linked lanes mark) (hi : mark i = none) (k : κ) :
    Lanes.place lanes i (some k) = Function.update lanes k (lanes k ++ [i]) := by
  funext k'
  rw [Lanes.place, h.erase_eq_self (by rw [hi]; nofun)]
  by_cases hk : k' = k
  · subst hk
    simp
  · simp [Function.update_of_ne hk, Ne.symm hk]

/-- An element that is in no list does not have to be taken out. -/
theorem Linked.place_of_none (h : Linked lanes mark) (hi : mark i = none) :
    Lanes.place lanes i none = lanes := by
  funext k
  rw [Lanes.place, h.erase_eq_self (by rw [hi]; nofun)]
  simp

/-- Taking an element out and appending it is placing it. -/
theorem place_place (hnodup : ∀ k, (lanes k).Nodup) (i : ι) (m : Option κ) :
    Lanes.place (Lanes.place lanes i none) i m = Lanes.place lanes i m := by
  funext k
  simp only [Lanes.place, reduceCtorEq, if_false, List.append_nil]
  rw [List.erase_of_not_mem (hnodup k).not_mem_erase]

/-- The front of a list stays there when another element is moved. -/
theorem head?_place (hj : (lanes k).head? = some j) (hne : j ≠ i) (m : Option κ) :
    (Lanes.place lanes i m k).head? = some j := by
  obtain ⟨rest, hrest⟩ := List.head?_eq_some_iff.mp hj
  rw [Lanes.place, hrest, List.erase_cons_tail (by simpa using hne)]
  rfl

/-! ## The order within a list -/

/-- The one element is in the list, and the other one is not in front of it. -/
def Ahead (xs : List ι) (i j : ι) : Prop := ∃ front back, xs = front ++ i :: back ∧ j ∉ front

variable {xs : List ι}

omit [DecidableEq ι] in
theorem Ahead.mem (h : Ahead xs i j) : i ∈ xs := by
  obtain ⟨front, back, rfl, -⟩ := h
  simp

omit [DecidableEq ι] in
theorem ahead_of_not_mem (hi : i ∈ xs) (hj : j ∉ xs) : Ahead xs i j := by
  obtain ⟨front, back, rfl⟩ := List.append_of_mem hi
  exact ⟨front, back, rfl, fun hfront ↦ hj (List.mem_append_left _ hfront)⟩

omit [DecidableEq ι] in
theorem Ahead.append (h : Ahead xs i j) (ys : List ι) : Ahead (xs ++ ys) i j := by
  obtain ⟨front, back, rfl, hj⟩ := h
  exact ⟨front, back ++ ys, by simp, hj⟩

theorem Ahead.erase (h : Ahead xs i j) {a : ι} (ha : a ≠ i) : Ahead (xs.erase a) i j := by
  obtain ⟨front, back, rfl, hj⟩ := h
  by_cases hfront : a ∈ front
  · refine ⟨front.erase a, back, ?_, fun hmem ↦ hj (List.mem_of_mem_erase hmem)⟩
    rw [List.erase_append_left _ hfront]
  · refine ⟨front, back.erase a, ?_, hj⟩
    rw [List.erase_append_right _ hfront, List.erase_cons_tail (by simpa using Ne.symm ha)]

/-- An element stays ahead of another one, whichever element is moved but itself. -/
theorem Ahead.place (h : Ahead (lanes k) i j) {a : ι} (ha : a ≠ i) (m : Option κ) :
    Ahead (Lanes.place lanes a m k) i j := by
  rw [Lanes.place]
  exact (h.erase ha).append _

/-- An element that is moved goes behind all others. -/
theorem ahead_place (hnodup : (lanes k).Nodup) (hi : i ∈ lanes k) (hne : i ≠ j) (m : Option κ) :
    Ahead (Lanes.place lanes j m k) i j := by
  rw [Lanes.place]
  exact (ahead_of_not_mem ((List.mem_erase_of_ne hne).mpr hi) hnodup.not_mem_erase).append _

omit [DecidableEq ι] in
theorem Ahead.head?_ne (h : Ahead xs i j) (hne : i ≠ j) : xs.head? ≠ some j := by
  obtain ⟨front, back, rfl, hj⟩ := h
  intro hhead
  cases front with
  | nil =>
    rw [List.nil_append, List.head?_cons, Option.some_inj] at hhead
    exact hne hhead
  | cons x front =>
    rw [List.cons_append, List.head?_cons, Option.some_inj] at hhead
    exact hj (hhead ▸ List.mem_cons_self)

end Rust.Lanes
