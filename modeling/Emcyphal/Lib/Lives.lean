import Emcyphal.Lib.Machine

/-!
# Components that come and go

A system may consist of components that are created and dropped while it runs, each a machine of its
own, and each of which sees only some of what happens.  What a component has to be like is then read
off the log of the system: it was created by some event, it was not dropped since, and it has gone
through what the events after its creation mean to it.

`Lives` says this, and `lives_concat` what one more event changes.
-/

set_option autoImplicit false

namespace Rust

universe u

variable {σ ι ο ε : Type u}

/-- After this log there is a component in this state: created by an event that is a `birth`, not
dropped since, and with the `own` inputs of the events after that one. -/
def Lives (step : σ → ι → Exec (σ × ο)) (birth : ε → Option σ) (dies : ε → Prop)
    (own : ε → Option ι) (log : List ε) (s : σ) : Prop :=
  ∃ before e after s₀ os, log = before ++ e :: after ∧ birth e = some s₀ ∧
    (∀ x ∈ after, ¬ dies x) ∧ run step s₀ (after.filterMap own) = .ok (s, os)

variable {step : σ → ι → Exec (σ × ο)} {birth : ε → Option σ} {dies : ε → Prop}
  {own : ε → Option ι} {log : List ε} {e : ε} {s : σ}

theorem not_lives_nil : ¬ Lives step birth dies own [] s := by
  rintro ⟨before, e, after, s₀, os, hlog, -⟩
  exact List.append_ne_nil_of_right_ne_nil _ (List.cons_ne_nil _ _) hlog.symm

theorem Lives.of_birth (h : birth e = some s) : Lives step birth dies own (log ++ [e]) s :=
  ⟨log, e, [], s, [], rfl, h, by simp, rfl⟩

/-- The component lives on, and the event is an input to it or is not. -/
theorem Lives.concat {s₀ : σ} (h : Lives step birth dies own log s₀) (hdies : ¬ dies e)
    (hown : own e = none ∧ s = s₀ ∨ ∃ i o, own e = some i ∧ step s₀ i = .ok (s, o)) :
    Lives step birth dies own (log ++ [e]) s := by
  obtain ⟨before, e₀, after, s₁, os, rfl, hbirth, hafter, hrun⟩ := h
  have hafter' : ∀ x ∈ after ++ [e], ¬ dies x :=
    List.forall_mem_append.mpr ⟨hafter, List.forall_mem_singleton.mpr hdies⟩
  have hlog : before ++ e₀ :: after ++ [e] = before ++ e₀ :: (after ++ [e]) := by
    rw [List.append_assoc, List.cons_append]
  rcases hown with ⟨hnone, rfl⟩ | ⟨i, o, hsome, hstep⟩
  · refine ⟨before, e₀, after ++ [e], s₁, os, hlog, hbirth, hafter', ?_⟩
    rw [List.filterMap_append, List.filterMap_cons_none hnone, List.filterMap_nil, List.append_nil]
    exact hrun
  · refine ⟨before, e₀, after ++ [e], s₁, os ++ [o], hlog, hbirth, hafter', ?_⟩
    rw [List.filterMap_append, List.filterMap_cons_some hsome, List.filterMap_nil]
    exact run_concat_eq_ok.mpr ⟨s₀, os, o, hrun, hstep, rfl⟩

/-- **What one more event changes.** -/
theorem lives_concat : Lives step birth dies own (log ++ [e]) s ↔ birth e = some s ∨
    ¬ dies e ∧ ∃ s₀, Lives step birth dies own log s₀ ∧
      (own e = none ∧ s = s₀ ∨ ∃ i o, own e = some i ∧ step s₀ i = .ok (s, o)) := by
  constructor
  · rintro ⟨before, e₀, after, s₀, os, hlog, hbirth, hafter, hrun⟩
    rcases List.eq_nil_or_concat after with rfl | ⟨after, x, rfl⟩
    · obtain ⟨rfl, hsame⟩ := List.append_inj' hlog rfl
      cases hsame
      cases hrun
      exact .inl hbirth
    · rw [List.concat_eq_append, ← List.cons_append, ← List.append_assoc] at hlog
      obtain ⟨rfl, hsame⟩ := List.append_inj' hlog rfl
      cases hsame
      rw [List.concat_eq_append] at hafter hrun
      obtain ⟨hafter, hlast⟩ := List.forall_mem_append.mp hafter
      refine .inr ⟨hlast e (by simp), ?_⟩
      rw [List.filterMap_append] at hrun
      cases hown : own e with
      | none =>
        rw [List.filterMap_cons_none hown, List.filterMap_nil, List.append_nil] at hrun
        exact ⟨s, ⟨before, e₀, after, s₀, os, rfl, hbirth, hafter, hrun⟩, .inl ⟨rfl, rfl⟩⟩
      | some i =>
        rw [List.filterMap_cons_some hown, List.filterMap_nil] at hrun
        obtain ⟨s₁, os₁, o, hrun₁, hstep, -⟩ := run_concat_eq_ok.mp hrun
        exact ⟨s₁, ⟨before, e₀, after, s₀, os₁, rfl, hbirth, hafter, hrun₁⟩,
          .inr ⟨i, o, rfl, hstep⟩⟩
  · rintro (hbirth | ⟨hdies, s₀, hlives, hown⟩)
    · exact .of_birth hbirth
    · exact hlives.concat hdies hown

/-- A component that lives was reached from its creation, so it has what each run from there has. -/
theorem Lives.exists_run (h : Lives step birth dies own log s) :
    ∃ e s₀ is os, birth e = some s₀ ∧ run step s₀ is = .ok (s, os) := by
  obtain ⟨before, e, after, s₀, os, -, hbirth, -, hrun⟩ := h
  exact ⟨e, s₀, _, os, hbirth, hrun⟩

/-- **Invariance along a run over valid inputs**, for an invariant about the log of the inputs and
the outputs so far. -/
theorem run_of_log {σ ι ο : Type u} {step : σ → ι → Exec (σ × ο)} {valid : σ → ι → Prop}
    {Inv : List (ι × ο) → σ → Prop}
    (h : ∀ log s i, Inv log s → valid s i → ∃ s' o, step s i = .ok (s', o) ∧
      Inv (log ++ [(i, o)]) s')
    {s : σ} (hs : Inv [] s) {is : List ι} (his : Admissible step valid s is) :
    ∃ t os, run step s is = .ok (t, os) ∧ Inv (is.zip os) t := by
  obtain ⟨t, os, hrun, ht⟩ := run_of_records (fun log e ↦ log ++ [e]) h hs his
  refine ⟨t, os, hrun, ?_⟩
  have hfold : ∀ (log acc : List (ι × ο)), log.foldl (fun log e ↦ log ++ [e]) acc = acc ++ log := by
    intro log
    induction log with
    | nil => exact fun acc ↦ (List.append_nil acc).symm
    | cons e log ih =>
      intro acc
      rw [List.foldl_cons, ih, List.append_assoc, List.singleton_append]
  rwa [hfold, List.nil_append] at ht

end Rust
