import Mathlib.Order.Lattice
import Mathlib.Tactic.Push

/-!
# A register for the newest element

A `Newest` has seen some elements and holds at most one of them.  `offer` lets an element replace
what is held unless a newer one was seen before, and `take` empties the register.  What is newer is
decided by a key.

`Valid` is the invariant: nothing that was seen is newer than what is held.
-/

set_option autoImplicit false

namespace Rust

universe u v

structure Newest (α : Type u) where
  /-- All elements that were offered, the latest last. -/
  seen : List α
  held : Option α

namespace Newest

variable {α : Type u} {κ : Type v} [LinearOrder κ] (key : α → κ)

def empty (α : Type u) : Newest α := ⟨[], none⟩

/-- Accepts an element if nothing newer was seen. -/
def offer (n : Newest α) (a : α) : Newest α :=
  ⟨n.seen ++ [a], if ∀ x ∈ n.seen, key x ≤ key a then some a else n.held⟩

/-- Takes the element that is held, if it is selected. -/
def take (n : Newest α) (select : α → Bool) : Option α × Newest α :=
  match n.held with
  | none => (none, n)
  | some a => if select a then (some a, { n with held := none }) else (none, n)

/-- The element that is held was seen, and nothing newer was. -/
def Valid (n : Newest α) : Prop :=
  ∀ a, n.held = some a → a ∈ n.seen ∧ ∀ x ∈ n.seen, key x ≤ key a

variable {n : Newest α} {key}

theorem valid_empty : (empty α).Valid key := fun a ha ↦ by cases ha

theorem Valid.offer (h : n.Valid key) (a : α) : (n.offer key a).Valid key := by
  intro b hb
  rw [Newest.offer] at hb ⊢
  dsimp only at hb ⊢
  split at hb
  · rename_i hnew
    cases hb
    refine ⟨by simp, fun x hx ↦ ?_⟩
    rcases List.mem_append.mp hx with hx | hx
    · exact hnew x hx
    · rw [List.mem_singleton.mp hx]
  · rename_i hold
    push Not at hold
    obtain ⟨y, hy, hlt⟩ := hold
    obtain ⟨hmem, hle⟩ := h b hb
    refine ⟨List.mem_append_left _ hmem, fun x hx ↦ ?_⟩
    rcases List.mem_append.mp hx with hx | hx
    · exact hle x hx
    · rw [List.mem_singleton.mp hx]
      exact hlt.le.trans (hle y hy)

theorem take_cases (n : Newest α) (select : α → Bool) :
    n.take select = (none, n) ∨ ∃ a, n.held = some a ∧ select a = true ∧
      n.take select = (some a, { n with held := none }) := by
  rw [Newest.take]
  cases hheld : n.held with
  | none => exact .inl rfl
  | some a =>
    cases hselect : select a with
    | true => exact .inr ⟨a, rfl, hselect, by simp [hselect]⟩
    | false => exact .inl (by simp [hselect])

theorem Valid.take (h : n.Valid key) (select : α → Bool) : (n.take select).2.Valid key := by
  rcases n.take_cases select with heq | ⟨a, -, -, heq⟩
  · rwa [heq]
  · rw [heq]
    exact fun b hb ↦ by cases hb

/-- It is enough to remember the newest key that was seen. -/
theorem forall_seen_iff {newest bottom k : κ} (hle : ∀ x ∈ n.seen, key x ≤ newest)
    (hmem : newest = bottom ∨ ∃ x ∈ n.seen, key x = newest) (hbottom : bottom ≤ k) :
    (∀ x ∈ n.seen, key x ≤ k) ↔ newest ≤ k := by
  constructor
  · intro h
    rcases hmem with rfl | ⟨x, hx, rfl⟩
    · exact hbottom
    · exact h x hx
  · exact fun h x hx ↦ (hle x hx).trans h

end Newest

end Rust
