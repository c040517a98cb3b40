import Emcyphal.Lib.Exec
import Mathlib.Data.List.Induction

/-!
# Runs of a state machine

A component is a step function `σ → ι → Exec (σ × ο)`: in a state, given an input, it panics or
returns the next state and an output.  `run` feeds it a list of inputs.

Everything said about a run comes from something said about one step, and this file is where that
induction is done.  `run_of_preserves` turns "the invariant holds and one step keeps it, without
panicking" into the same for a run; `Simulates.run_eq` and `Simulates.run_ok` turn a simulation of a
single step by an abstract machine into one of whole runs, output by output.
-/

set_option autoImplicit false

namespace Rust

universe u

variable {σ ι ο τ ο' : Type u}

/-- Feed the inputs to the machine one after the other; the outputs come back in order. -/
def run (step : σ → ι → Exec (σ × ο)) : σ → List ι → Exec (σ × List ο)
  | s, [] => .ok (s, [])
  | s, i :: is => do
    let r ← step s i
    let rs ← run step r.1 is
    return (rs.1, r.2 :: rs.2)

variable {step : σ → ι → Exec (σ × ο)}

@[simp] theorem run_nil (s : σ) : run step s [] = .ok (s, []) := rfl

theorem run_cons_eq_ok {s t : σ} {i : ι} {is : List ι} {os : List ο} :
    run step s (i :: is) = .ok (t, os) ↔
      ∃ s' o os', step s i = .ok (s', o) ∧ run step s' is = .ok (t, os') ∧ os = o :: os' := by
  rw [run, bind_eq_ok]
  constructor
  · rintro ⟨⟨s', o⟩, hs, hrest⟩
    obtain ⟨⟨t', os'⟩, hr, he⟩ := bind_eq_ok.mp hrest
    cases he
    exact ⟨s', o, os', hs, hr, rfl⟩
  · rintro ⟨s', o, os', hs, hr, rfl⟩
    exact ⟨(s', o), hs, bind_eq_ok.mpr ⟨(t, os'), hr, rfl⟩⟩

/-- A run over a longer list is a run over its first part, continued over the second. -/
theorem run_append_eq_ok {s t : σ} {is js : List ι} {os : List ο} :
    run step s (is ++ js) = .ok (t, os) ↔
      ∃ s' os₁ os₂, run step s is = .ok (s', os₁) ∧ run step s' js = .ok (t, os₂) ∧
        os = os₁ ++ os₂ := by
  induction is generalizing s os with
  | nil => simp
  | cons i is ih =>
    rw [List.cons_append, run_cons_eq_ok]
    constructor
    · rintro ⟨s₁, o, os', hs, hr, rfl⟩
      obtain ⟨s₂, os₁, os₂, h₁, h₂, rfl⟩ := ih.mp hr
      exact ⟨s₂, o :: os₁, os₂, run_cons_eq_ok.mpr ⟨s₁, o, os₁, hs, h₁, rfl⟩, h₂, rfl⟩
    · rintro ⟨s₂, os₁, os₂, h₁, h₂, rfl⟩
      obtain ⟨s₁, o, os', hs, hr, rfl⟩ := run_cons_eq_ok.mp h₁
      exact ⟨s₁, o, os' ++ os₂, hs, ih.mpr ⟨s₂, os', os₂, hr, h₂, rfl⟩, rfl⟩

theorem run_concat_eq_ok {s t : σ} {is : List ι} {i : ι} {os : List ο} :
    run step s (is ++ [i]) = .ok (t, os) ↔
      ∃ s' os' o, run step s is = .ok (s', os') ∧ step s' i = .ok (t, o) ∧ os = os' ++ [o] := by
  rw [run_append_eq_ok]
  constructor
  · rintro ⟨s', os₁, os₂, h₁, h₂, rfl⟩
    obtain ⟨t', o, os', hs, hr, rfl⟩ := run_cons_eq_ok.mp h₂
    cases hr
    exact ⟨s', os₁, o, h₁, hs, rfl⟩
  · rintro ⟨s', os', o, h₁, hs, rfl⟩
    exact ⟨s', os', [o], h₁, run_cons_eq_ok.mpr ⟨t, o, [], hs, rfl, rfl⟩, rfl⟩

/-- A machine whose states are images of the states of another runs as that one does. -/
theorem run_map {f : τ → σ} {step' : τ → ι → Exec (τ × ο)}
    (h : ∀ t i, step (f t) i = (step' t i).map (Prod.map f id)) (t : τ) (is : List ι) :
    run step (f t) is = (run step' t is).map (Prod.map f id) := by
  induction is generalizing t with
  | nil => rfl
  | cons i is ih =>
    rw [run, run, h]
    cases step' t i with
    | error e => rfl
    | ok r =>
      simp only [Except.map, Prod.map_fst, Prod.map_snd, ok_bind, ih, id_eq]
      cases run step' r.1 is <;> rfl

/-- A machine that shows less of what another one shows runs as that one does. -/
theorem run_map_out {f : ο' → ο} {step' : σ → ι → Exec (σ × ο')}
    (h : ∀ s i, step s i = (step' s i).map (Prod.map id f)) (s : σ) (is : List ι) :
    run step s is = (run step' s is).map (Prod.map id (List.map f)) := by
  induction is generalizing s with
  | nil => rfl
  | cons i is ih =>
    rw [run, run, h]
    cases step' s i with
    | error e => rfl
    | ok r =>
      simp only [Except.map, Prod.map_fst, Prod.map_snd, ok_bind, ih, id_eq]
      cases run step' r.1 is <;> rfl

/-- One step from a state satisfying `Inv`, on an input allowed by `ok`, does not panic and ends in
a state satisfying `Inv`. -/
def Preserves (step : σ → ι → Exec (σ × ο)) (ok : ι → Prop) (Inv : σ → Prop) : Prop :=
  ∀ s i, Inv s → ok i → ∃ s' o, step s i = .ok (s', o) ∧ Inv s'

/-- **Invariance along a run**: neither does a run panic, and it keeps the invariant. -/
theorem run_of_preserves {ok : ι → Prop} {Inv : σ → Prop} (h : Preserves step ok Inv) {s : σ}
    (hs : Inv s) {is : List ι} (his : ∀ i ∈ is, ok i) :
    ∃ t os, run step s is = .ok (t, os) ∧ Inv t := by
  induction is generalizing s with
  | nil => exact ⟨s, [], rfl, hs⟩
  | cons i is ih =>
    obtain ⟨s', o, hstep, hs'⟩ := h s i hs (his i (by simp))
    obtain ⟨t, os, hrun, ht⟩ := ih hs' fun j hj ↦ his j (by simp [hj])
    exact ⟨t, o :: os, run_cons_eq_ok.mpr ⟨s', o, os, hstep, hrun, rfl⟩, ht⟩

/-- Every input is valid in the state the machine is in when it gets it. -/
def Admissible (step : σ → ι → Exec (σ × ο)) (valid : σ → ι → Prop) : σ → List ι → Prop
  | _, [] => True
  | s, i :: is => valid s i ∧
    match step s i with
    | .ok r => Admissible step valid r.1 is
    | .error _ => True

instance decidableAdmissible {valid : σ → ι → Prop} [∀ s i, Decidable (valid s i)] :
    (s : σ) → (is : List ι) → Decidable (Admissible step valid s is)
  | _, [] => isTrue trivial
  | s, i :: is =>
    letI : Decidable (match step s i with
        | .ok r => Admissible step valid r.1 is
        | .error _ => True) :=
      match step s i with
      | .ok r => decidableAdmissible r.1 is
      | .error _ => isTrue trivial
    inferInstanceAs (Decidable (valid s i ∧ _))

theorem Admissible.of_forall {valid : σ → ι → Prop} (h : ∀ s i, valid s i) (s : σ) (is : List ι) :
    Admissible step valid s is := by
  induction is generalizing s with
  | nil => trivial
  | cons i is ih =>
    refine ⟨h s i, ?_⟩
    split
    · exact ih _
    · trivial

/-- **Invariance along a run over valid inputs**, where what is valid depends on the state. -/
theorem run_of_admissible {valid : σ → ι → Prop} {Inv : σ → Prop}
    (h : ∀ s i, Inv s → valid s i → ∃ s' o, step s i = .ok (s', o) ∧ Inv s') {s : σ} (hs : Inv s)
    {is : List ι} (his : Admissible step valid s is) :
    ∃ t os, run step s is = .ok (t, os) ∧ Inv t := by
  induction is generalizing s with
  | nil => exact ⟨s, [], rfl, hs⟩
  | cons i is ih =>
    obtain ⟨hi, hrest⟩ := his
    obtain ⟨s', o, hstep, hs'⟩ := h s i hs hi
    rw [hstep] at hrest
    obtain ⟨t, os, hrun, ht⟩ := ih hs' hrest
    exact ⟨t, o :: os, run_cons_eq_ok.mpr ⟨s', o, os, hstep, hrun, rfl⟩, ht⟩

/-- **Invariance along a run over valid inputs that does not panic.** -/
theorem inv_of_run {valid : σ → ι → Prop} {Inv : σ → Prop}
    (h : ∀ s i s' o, Inv s → valid s i → step s i = .ok (s', o) → Inv s') {s t : σ} (hs : Inv s)
    {is : List ι} (his : Admissible step valid s is) {os : List ο}
    (hrun : run step s is = .ok (t, os)) : Inv t := by
  induction is generalizing s os with
  | nil =>
    cases hrun
    exact hs
  | cons i is ih =>
    obtain ⟨hi, hrest⟩ := his
    obtain ⟨s', o, os', hstep, hrun', rfl⟩ := run_cons_eq_ok.mp hrun
    rw [hstep] at hrest
    exact ih (h s i s' o hs hi hstep) hrest hrun'

/-- **Invariance along a run over valid inputs, with a record of it**: the invariant may be about
what the inputs and outputs so far add up to. -/
theorem run_of_records {μ : Type u} (record : μ → ι × ο → μ) {valid : σ → ι → Prop}
    {Inv : μ → σ → Prop} (h : ∀ m s i, Inv m s → valid s i → ∃ s' o, step s i = .ok (s', o) ∧
    Inv (record m (i, o)) s') {m : μ}
    {s : σ} (hs : Inv m s) {is : List ι} (his : Admissible step valid s is) :
    ∃ t os, run step s is = .ok (t, os) ∧ Inv ((is.zip os).foldl record m) t := by
  induction is generalizing m s with
  | nil => exact ⟨s, [], rfl, hs⟩
  | cons i is ih =>
    obtain ⟨hi, hrest⟩ := his
    obtain ⟨s', o, hstep, hs'⟩ := h m s i hs hi
    rw [hstep] at hrest
    obtain ⟨t, os, hrun, ht⟩ := ih hs' hrest
    exact ⟨t, o :: os, run_cons_eq_ok.mpr ⟨s', o, os, hstep, hrun, rfl⟩, ht⟩

/-- **Invariance along a run over valid inputs**, for an invariant about what the inputs so far add
up to. -/
theorem run_of_inputs {μ : Type u} (record : μ → ι → μ) {valid : σ → ι → Prop}
    {Inv : μ → σ → Prop} (h : ∀ m s i, Inv m s → valid s i → ∃ s' o, step s i = .ok (s', o) ∧
    Inv (record m i) s') {m : μ}
    {s : σ} (hs : Inv m s) {is : List ι} (his : Admissible step valid s is) :
    ∃ t os, run step s is = .ok (t, os) ∧ Inv (is.foldl record m) t := by
  induction is generalizing m s with
  | nil => exact ⟨s, [], rfl, hs⟩
  | cons i is ih =>
    obtain ⟨hi, hrest⟩ := his
    obtain ⟨s', o, hstep, hs'⟩ := h m s i hs hi
    rw [hstep] at hrest
    obtain ⟨t, os, hrun, ht⟩ := ih hs' hrest
    exact ⟨t, o :: os, run_cons_eq_ok.mpr ⟨s', o, os, hstep, hrun, rfl⟩, ht⟩

/-- **Invariance along a run over valid inputs**, for an invariant about the outputs so far. -/
theorem run_of_outputs {valid : σ → ι → Prop} {Inv : List ο → σ → Prop}
    (h : ∀ os s i, Inv os s → valid s i → ∃ s' o, step s i = .ok (s', o) ∧ Inv (os ++ [o]) s')
    {s : σ} (hs : Inv [] s) {is : List ι} (his : Admissible step valid s is) :
    ∃ t os, run step s is = .ok (t, os) ∧ Inv os t := by
  suffices hall : ∀ os₀ : List ο, Inv os₀ s →
      ∃ t os, run step s is = .ok (t, os) ∧ Inv (os₀ ++ os) t from hall [] hs
  clear hs
  induction is generalizing s with
  | nil =>
    intro os₀ hs
    exact ⟨s, [], rfl, by rwa [List.append_nil]⟩
  | cons i is ih =>
    intro os₀ hs
    obtain ⟨hi, hrest⟩ := his
    obtain ⟨s', o, hstep, hs'⟩ := h os₀ s i hs hi
    rw [hstep] at hrest
    obtain ⟨t, os, hrun, ht⟩ := ih hrest (os₀ ++ [o]) hs'
    refine ⟨t, o :: os, run_cons_eq_ok.mpr ⟨s', o, os, hstep, hrun, rfl⟩, ?_⟩
    rwa [List.append_assoc, List.singleton_append] at ht

/-- **Invariance along a run over valid inputs that does not panic**, for an invariant about the
outputs so far. -/
theorem inv_of_outputs {valid : σ → ι → Prop} {Inv : List ο → σ → Prop}
    (h : ∀ os s i s' o, Inv os s → valid s i → step s i = .ok (s', o) → Inv (os ++ [o]) s')
    {s t : σ} (hs : Inv [] s) {is : List ι} (his : Admissible step valid s is) {os : List ο}
    (hrun : run step s is = .ok (t, os)) : Inv os t := by
  suffices hall : ∀ os₀ : List ο, Inv os₀ s → Inv (os₀ ++ os) t from hall [] hs
  clear hs
  induction is generalizing s os with
  | nil =>
    intro os₀ hs
    cases hrun
    rwa [List.append_nil]
  | cons i is ih =>
    intro os₀ hs
    obtain ⟨hi, hrest⟩ := his
    obtain ⟨s', o, os', hstep, hrun', rfl⟩ := run_cons_eq_ok.mp hrun
    rw [hstep] at hrest
    have ht := ih hrest hrun' (os₀ ++ [o]) (h os₀ s i s' o hs hi hstep)
    rwa [List.append_assoc, List.singleton_append] at ht

/-- What each step shows of its input, a run shows of its inputs. -/
theorem forall₂_of_run {P : ι → ο → Prop} (h : ∀ s i s' o, step s i = .ok (s', o) → P i o)
    {s t : σ} {is : List ι} {os : List ο} (hrun : run step s is = .ok (t, os)) :
    List.Forall₂ P is os := by
  induction is generalizing s os with
  | nil =>
    cases hrun
    exact .nil
  | cons i is ih =>
    obtain ⟨s', o, os', hstep, hrest, rfl⟩ := run_cons_eq_ok.mp hrun
    exact .cons (h s i s' o hstep) (ih hrest)

/-- **A machine comes to rest** on one input over and over, if each step does a part of what there
is to do. -/
theorem run_replicate {Inv : List ο → σ → Prop} {backlog : σ → ℕ} {i : ι}
    (h : ∀ os s, Inv os s → ∃ s' o, step s i = .ok (s', o) ∧ Inv (os ++ [o]) s' ∧
      backlog s' ≤ backlog s - 1) (os : List ο) {s : σ} (hs : Inv os s) {n : ℕ}
    (hn : backlog s ≤ n) : ∃ t os', run step s (List.replicate n i) = .ok (t, os') ∧
      Inv (os ++ os') t ∧ backlog t = 0 := by
  induction n generalizing os s with
  | zero => exact ⟨s, [], rfl, by rwa [List.append_nil], Nat.le_zero.mp hn⟩
  | succ n ih =>
    obtain ⟨s', o, hstep, hs', hle⟩ := h os s hs
    obtain ⟨t, os', hrun, ht, hzero⟩ := ih _ hs' (by omega)
    refine ⟨t, o :: os', run_cons_eq_ok.mpr ⟨s', o, os', hstep, hrun, rfl⟩, ?_, hzero⟩
    rwa [List.append_assoc, List.singleton_append] at ht

/-- If exactly the inputs that are not allowed panic, a run completes if all of its inputs are
allowed, and only then. -/
theorem run_ok_iff {ok : ι → Prop} {Inv : σ → Prop} (h : Preserves step ok Inv)
    (hpanic : ∀ s i, Inv s → ¬ ok i → ∃ e, step s i = .error e) {s : σ} (hs : Inv s) {is : List ι} :
    (∃ t os, run step s is = .ok (t, os)) ↔ ∀ i ∈ is, ok i := by
  refine ⟨fun hrun ↦ ?_, fun his ↦ ?_⟩
  · induction is generalizing s with
    | nil => simp
    | cons i is ih =>
      obtain ⟨t, os, hrun⟩ := hrun
      obtain ⟨s', o, os', hstep, hrest, rfl⟩ := run_cons_eq_ok.mp hrun
      have hi : ok i := by
        by_contra hnot
        obtain ⟨e, herr⟩ := hpanic s i hs hnot
        cases hstep.symm.trans herr
      obtain ⟨s₁, o₁, hstep', hs₁⟩ := h s i hs hi
      cases hstep.symm.trans hstep'
      exact List.forall_mem_cons.mpr ⟨hi, ih hs₁ ⟨t, os', hrest⟩⟩
  · obtain ⟨t, os, hrun, -⟩ := run_of_preserves h hs his
    exact ⟨t, os, hrun⟩

/-- Each step extends a history, here the outputs so far, and keeps an invariant about it. -/
def Traces (step : σ → ι → Exec (σ × ο)) (Inv : List ο → σ → Prop) : Prop :=
  ∀ os s i s' o, Inv os s → step s i = .ok (s', o) → Inv (os ++ [o]) s'

/-- **Invariance along a run that does not panic**, for an invariant about the outputs so far. -/
theorem run_of_traces {Inv : List ο → σ → Prop} (h : Traces step Inv) {s t : σ} {is : List ι}
    {os : List ο} (hs : Inv [] s) (hrun : run step s is = .ok (t, os)) : Inv os t := by
  induction is using List.reverseRecOn generalizing t os with
  | nil =>
    cases hrun
    exact hs
  | append_singleton is i ih =>
    obtain ⟨s', os', o, hinit, hstep, rfl⟩ := run_concat_eq_ok.mp hrun
    exact h os' s' i t o (ih hinit) hstep

/-- A run of a total machine, the abstract side of a simulation. -/
def runTotal (abs : τ → ι → τ × ο') : τ → List ι → τ × List ο'
  | t, [] => (t, [])
  | t, i :: is =>
    let r := abs t i
    let rs := runTotal abs r.1 is
    (rs.1, r.2 :: rs.2)

theorem runTotal_concat (abs : τ → ι → τ × ο') (t : τ) (is : List ι) (i : ι) :
    runTotal abs t (is ++ [i]) = ((abs (runTotal abs t is).1 i).1,
      (runTotal abs t is).2 ++ [(abs (runTotal abs t is).1 i).2]) := by
  induction is generalizing t with
  | nil => rfl
  | cons j is ih => rw [List.cons_append, runTotal, ih]; rfl

/-- From related states, a step either does what the abstract machine does, with `f` of its output,
and ends in related states; or it panics, on an input that is not allowed. -/
def Simulates (step : σ → ι → Exec (σ × ο)) (abs : τ → ι → τ × ο') (ok : ι → Prop)
    (R : σ → τ → Prop) (f : ο' → ο) : Prop :=
  ∀ s t i, R s t →
    (∃ s', step s i = .ok (s', f (abs t i).2) ∧ R s' (abs t i).1) ∨
      ¬ ok i ∧ ∃ e, step s i = .error e

/-- **Simulation along a run**: a run that does not panic shows the abstract outputs, and ends in
related states. -/
theorem Simulates.run_eq {abs : τ → ι → τ × ο'} {ok : ι → Prop} {R : σ → τ → Prop} {f : ο' → ο}
    (h : Simulates step abs ok R f) {s s' : σ} {t : τ} (hst : R s t) {is : List ι} {os : List ο}
    (hrun : run step s is = .ok (s', os)) :
    R s' (runTotal abs t is).1 ∧ os = (runTotal abs t is).2.map f := by
  induction is generalizing s t os with
  | nil =>
    cases hrun
    exact ⟨hst, rfl⟩
  | cons i is ih =>
    obtain ⟨s₁, o, os', hstep, hrest, rfl⟩ := run_cons_eq_ok.mp hrun
    rcases h s t i hst with ⟨s₂, hstep', h₂⟩ | ⟨-, e, herr⟩
    · cases hstep.symm.trans hstep'
      obtain ⟨hs', hos⟩ := ih h₂ hrest
      exact ⟨hs', by rw [hos]; rfl⟩
    · cases hstep.symm.trans herr

/-- A run over allowed inputs does not panic. -/
theorem Simulates.run_ok {abs : τ → ι → τ × ο'} {ok : ι → Prop} {R : σ → τ → Prop} {f : ο' → ο}
    (h : Simulates step abs ok R f) {s : σ} {t : τ} (hst : R s t) {is : List ι}
    (his : ∀ i ∈ is, ok i) :
    ∃ s', run step s is = .ok (s', (runTotal abs t is).2.map f) ∧ R s' (runTotal abs t is).1 := by
  induction is generalizing s t with
  | nil => exact ⟨s, rfl, hst⟩
  | cons i is ih =>
    rcases h s t i hst with ⟨s₁, hstep, h₁⟩ | ⟨hnot, -⟩
    · obtain ⟨s', hrun, hs'⟩ := ih h₁ fun j hj ↦ his j (by simp [hj])
      exact ⟨s', run_cons_eq_ok.mpr ⟨s₁, _, _, hstep, hrun, rfl⟩, hs'⟩
    · exact absurd (his i (by simp)) hnot

/-- **Simulation along a run over valid inputs**: the run does not panic, and shows the abstract
outputs. -/
theorem run_of_simulates {abs : τ → ι → τ × ο} {valid : σ → ι → Prop} {R : τ → σ → Prop}
    (h : ∀ t s i, R t s → valid s i →
      ∃ s', step s i = .ok (s', (abs t i).2) ∧ R (abs t i).1 s') {s : σ} {t : τ} (hst : R t s)
    {is : List ι} (his : Admissible step valid s is) :
    ∃ s', run step s is = .ok (s', (runTotal abs t is).2) ∧ R (runTotal abs t is).1 s' := by
  induction is generalizing s t with
  | nil => exact ⟨s, rfl, hst⟩
  | cons i is ih =>
    obtain ⟨hi, hrest⟩ := his
    obtain ⟨s₁, hstep, h₁⟩ := h t s i hst hi
    rw [hstep] at hrest
    obtain ⟨s', hrun, hs'⟩ := ih h₁ hrest
    exact ⟨s', run_cons_eq_ok.mpr ⟨s₁, _, _, hstep, hrun, rfl⟩, hs'⟩

end Rust
