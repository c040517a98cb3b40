import Mathlib.Data.List.Nodup
import Mathlib.Data.List.Perm.Basic
import Mathlib.Logic.Function.Basic

/-!
# Lists by class

A function `f : κ → List α` keeps one list for each class.  `all.flatMap f`, for a list `all` of the
classes, is everything that is kept.  The lemmas say, up to a permutation, what is kept after the
list of one class was replaced.
-/

set_option autoImplicit false

namespace Rust

universe u v

variable {κ : Type u} {α : Type v} [DecidableEq κ] {all : List κ} {c : κ}

theorem flatMap_perm_erase (f : κ → List α) (hc : c ∈ all) :
    (all.flatMap f).Perm (f c ++ (all.erase c).flatMap f) :=
  (List.perm_cons_erase hc).flatMap_right f

theorem flatMap_update_perm (f : κ → List α) (hnodup : all.Nodup) (hc : c ∈ all) (l : List α) :
    (all.flatMap (Function.update f c l)).Perm (l ++ (all.erase c).flatMap f) := by
  have hrest : (all.erase c).flatMap (Function.update f c l) = (all.erase c).flatMap f := by
    refine List.flatMap_congr fun c' hc' ↦ ?_
    rw [Function.update_of_ne (hnodup.mem_erase_iff.mp hc').1]
  have hperm := flatMap_perm_erase (Function.update f c l) hc
  rwa [Function.update_self, hrest] at hperm

/-- An element is added at the end of one list. -/
theorem flatMap_concat_perm (f : κ → List α) (hnodup : all.Nodup) (hc : c ∈ all) (x : α) :
    (all.flatMap (Function.update f c (f c ++ [x]))).Perm (x :: all.flatMap f) := by
  refine (flatMap_update_perm f hnodup hc _).trans ?_
  rw [List.append_assoc, List.singleton_append]
  exact List.perm_middle.trans ((flatMap_perm_erase f hc).symm.cons x)

/-- An element is taken from the front of one list. -/
theorem flatMap_tail_perm (f : κ → List α) (hnodup : all.Nodup) (hc : c ∈ all) {x : α}
    {xs : List α} (hx : f c = x :: xs) :
    (all.flatMap f).Perm (x :: all.flatMap (Function.update f c xs)) := by
  refine (flatMap_perm_erase f hc).trans ?_
  rw [hx, List.cons_append]
  exact (flatMap_update_perm f hnodup hc xs).symm.cons x

end Rust
