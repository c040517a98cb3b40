import Mathlib.Data.List.Basic

/-!
# A line

Things wait in a line for someone who takes several of them at once.  The one in front is handed
over; of those that were handed over, some are finished, and the last one may be given back, after
which it is in front again.  A thing that comes too late for something is dropped, if it was the
last to arrive.

`Line.Runs` is what may happen to a line, as a relation.  What is left of a line is in the order of
arrival (`Line.Runs.sublist`), so that the one in front is always the first to have arrived of those
that wait.

Someone who watches the line sees the things from the outside (`view`).
-/

set_option autoImplicit false

namespace Rust

universe u v w

/-- A line, with all things that ever arrived. -/
structure Line (α : Type u) where
  arrived : List α
  /-- The things that were handed over, and are not finished. -/
  handed : List α
  waiting : List α

inductive LineEvent (α : Type u) (β : Type v) (τ : Type w)
  | arrived (a : α)
  | handed (b : β)
  | returned (b : β)
  | finished (b : β)
  | dropped (b : β) (now : τ)

namespace Line

variable {α : Type u} {β : Type v} {τ : Type w} {view : α → β} {late : τ → α → Prop}

def empty : Line α := ⟨[], [], []⟩

inductive Step (view : α → β) (late : τ → α → Prop) : Line α → LineEvent α β τ → Line α → Prop
  | arrive {as hs ws : List α} (a : α) :
      Step view late ⟨as, hs, ws⟩ (.arrived a) ⟨as ++ [a], hs, ws ++ [a]⟩
  | hand {as hs ws : List α} (a : α) :
      Step view late ⟨as, hs, a :: ws⟩ (.handed (view a)) ⟨as, hs ++ [a], ws⟩
  | giveBack {as hs ws : List α} (a : α) :
      Step view late ⟨as, hs ++ [a], ws⟩ (.returned (view a)) ⟨as, hs, a :: ws⟩
  | finish {as hs hs' ws : List α} (a : α) :
      Step view late ⟨as, hs ++ a :: hs', ws⟩ (.finished (view a)) ⟨as, hs ++ hs', ws⟩
  | drop {as hs ws : List α} {a : α} {now : τ} (hlate : late now a) :
      Step view late ⟨as ++ [a], hs, ws ++ [a]⟩ (.dropped (view a) now) ⟨as ++ [a], hs, ws⟩

inductive Runs (view : α → β) (late : τ → α → Prop) :
    Line α → List (LineEvent α β τ) → Line α → Prop
  | nil (l : Line α) : Runs view late l [] l
  | cons {l l' l'' : Line α} {e : LineEvent α β τ} {es : List (LineEvent α β τ)}
      (hstep : Step view late l e l') (hrest : Runs view late l' es l'') :
      Runs view late l (e :: es) l''

variable {l l' l'' : Line α} {e : LineEvent α β τ} {es es' : List (LineEvent α β τ)}

theorem Step.runs (h : Step view late l e l') : Runs view late l [e] l' := .cons h (.nil l')

theorem Runs.trans (h : Runs view late l es l') (h' : Runs view late l' es' l'') :
    Runs view late l (es ++ es') l'' := by
  induction h with
  | nil => exact h'
  | cons hstep _ ih => exact .cons hstep (ih h')

theorem Step.sublist (h : Step view late l e l') (hl : (l.handed ++ l.waiting).Sublist l.arrived) :
    (l'.handed ++ l'.waiting).Sublist l'.arrived := by
  cases h with
  | arrive a => simpa only [← List.append_assoc] using hl.append (.refl [a])
  | hand a => simpa using hl
  | giveBack a => simpa using hl
  | finish a =>
    refine .trans ?_ hl
    exact (List.Sublist.append (.refl _) (List.sublist_cons_self a _)).append (.refl _)
  | drop _ =>
    refine .trans ?_ hl
    exact (List.Sublist.refl _).append (List.sublist_append_left _ _)

/-- **Whatever is left of a line is in the order of arrival.** -/
theorem Runs.sublist (h : Runs view late l es l')
    (hl : (l.handed ++ l.waiting).Sublist l.arrived) :
    (l'.handed ++ l'.waiting).Sublist l'.arrived := by
  induction h with
  | nil => exact hl
  | cons hstep _ ih => exact ih (hstep.sublist hl)

end Line

end Rust
