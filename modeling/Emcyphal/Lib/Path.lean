import Mathlib.Data.List.Forall2

/-!
# Paths with labels

A writer goes from state to state and emits a label at each step.  A reader gets the labels in the
same order, maybe later, and goes through the same states.  `Path step s is t` is the relation
between the two: the labels `is` lead from the state `s` to the state `t`.

`concat` is what the writer does to a path, `split` says that whoever got only the first labels is
at a state on the way, and `of_concat` is the last step of a path, on which an induction along the
labels relies.
-/

set_option autoImplicit false

namespace Rust

universe u v

inductive Path {σ : Type u} {ι : Type v} (step : σ → ι → σ → Prop) : σ → List ι → σ → Prop
  | nil (s : σ) : Path step s [] s
  | cons {s s' t : σ} {i : ι} {is : List ι} (hstep : step s i s') (hrest : Path step s' is t) :
      Path step s (i :: is) t

namespace Path

variable {σ : Type u} {ι : Type v} {step step' : σ → ι → σ → Prop} {s t u : σ} {i : ι}
  {is js : List ι}

/-- The writer takes a step. -/
theorem concat (h : Path step s is t) (hstep : step t i u) : Path step s (is ++ [i]) u := by
  induction h with
  | nil t => exact .cons hstep (.nil u)
  | cons hfirst _ ih => exact .cons hfirst (ih hstep)

/-- The labels of the first part lead to a state on the way. -/
theorem split (h : Path step s (is ++ js) u) : ∃ t, Path step s is t ∧ Path step t js u := by
  induction is generalizing s with
  | nil => exact ⟨s, .nil s, h⟩
  | cons i is ih =>
    cases h with
    | cons hstep hrest =>
      obtain ⟨t, hfirst, hlast⟩ := ih hrest
      exact ⟨t, .cons hstep hfirst, hlast⟩

/-- The last step of a path. -/
theorem of_concat (h : Path step s (is ++ [i]) u) : ∃ t, Path step s is t ∧ step t i u := by
  obtain ⟨t, hinit, hlast⟩ := h.split
  cases hlast with
  | cons hstep hrest =>
    cases hrest with
    | nil => exact ⟨t, hinit, hstep⟩

theorem mono (h : Path step s is t) (hle : ∀ s i s', step s i s' → step' s i s') :
    Path step' s is t := by
  induction h with
  | nil s => exact .nil s
  | cons hstep _ ih => exact .cons (hle _ _ _ hstep) ih

end Path

/-- A list that is related to two others in a row is in two parts itself. -/
theorem forall₂_append_right {α : Type u} {β : Type v} {R : α → β → Prop} {as : List α}
    {bs cs : List β} (h : List.Forall₂ R as (bs ++ cs)) :
    ∃ as₁ as₂, as = as₁ ++ as₂ ∧ List.Forall₂ R as₁ bs ∧ List.Forall₂ R as₂ cs :=
  ⟨as.take bs.length, as.drop bs.length, (List.take_append_drop ..).symm,
    List.forall₂_take_append _ _ _ h, List.forall₂_drop_append _ _ _ h⟩

end Rust
