import Emcyphal.Lib.Machine

/-!
# Machines that finish their work

In each state there is a number of things left to do, and every step that does something does one
of them at least.  Then a run has no more such steps than that (`run_of_work`).  If there also is
such a step as long as the machine is not at rest, it can be brought to rest (`exists_rest`), and
any schedule that goes on as long as there is something to do ends there.
-/

set_option autoImplicit false

universe u

namespace Rust

variable {σ ι ο : Type u} {step : σ → ι → Exec (σ × ο)} {valid : σ → ι → Prop}
  {Inv : List ο → σ → Prop} {work : σ → ℕ}

/-- **The steps that do something are bounded** by what there is to do. -/
theorem run_of_work {moves : ο → Bool}
    (h : ∀ os s i, Inv os s → valid s i → ∃ s' o, step s i = .ok (s', o) ∧ Inv (os ++ [o]) s' ∧
      work s' + (if moves o then 1 else 0) ≤ work s)
    {s : σ} (hs : Inv [] s) {is : List ι} (his : Admissible step valid s is) :
    ∃ t os, run step s is = .ok (t, os) ∧ Inv os t ∧ work t + os.countP moves ≤ work s := by
  have hstep : ∀ os s' i, Inv os s' ∧ work s' + os.countP moves ≤ work s → valid s' i →
      ∃ t o, step s' i = .ok (t, o) ∧ Inv (os ++ [o]) t ∧
        work t + (os ++ [o]).countP moves ≤ work s := by
    rintro os s' i ⟨hinv, hwork⟩ hvalid
    obtain ⟨t, o, hstep, ht, hless⟩ := h os s' i hinv hvalid
    refine ⟨t, o, hstep, ht, ?_⟩
    rw [List.countP_append, List.countP_singleton]
    omega
  exact run_of_outputs hstep ⟨hs, Nat.le_refl _⟩ his

/-- **The machine can be brought to rest**, if in each other state there is a step that does
something. -/
theorem exists_rest {Rest : σ → Prop}
    (h : ∀ os s, Inv os s → ¬ Rest s → ∃ i s' o, valid s i ∧ step s i = .ok (s', o) ∧
      Inv (os ++ [o]) s' ∧ work s' < work s)
    (os : List ο) {s : σ} (hs : Inv os s) :
    ∃ is t os', Admissible step valid s is ∧ run step s is = .ok (t, os') ∧ Inv (os ++ os') t ∧
      Rest t := by
  induction hwork : work s using Nat.strongRecOn generalizing os s with
  | ind n ih =>
    by_cases hrest : Rest s
    · exact ⟨[], s, [], trivial, rfl, by rwa [List.append_nil], hrest⟩
    · obtain ⟨i, s', o, hvalid, hstep, hs', hless⟩ := h os s hs hrest
      obtain ⟨is, t, os', hadmissible, hrun, ht, hrest'⟩ := ih (work s') (hwork ▸ hless) _ hs' rfl
      refine ⟨i :: is, t, o :: os', ⟨hvalid, ?_⟩,
        run_cons_eq_ok.mpr ⟨s', o, os', hstep, hrun, rfl⟩, ?_, hrest'⟩
      · rwa [hstep]
      · rwa [List.append_assoc, List.singleton_append] at ht

end Rust
