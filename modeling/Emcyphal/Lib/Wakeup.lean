import Emcyphal.Lib.Machine

/-!
# Missed wake-ups

A task polls a machine for a condition.  If the condition is not met, the poll is pending: the
machine keeps the waker of the task in one of its slots, and the task sleeps until the machine wakes
that slot.  A wake-up is missed if the condition is met and the task sleeps on.

`heard` is the machine together with the wakers it wakes, `asleep` is the task, and
`NoMissedWakeup.of_waits` is the rule for showing that no wake-up is missed: what the machine
remembers of a pending poll (`Waits`) contradicts the condition, and each step that does not wake
the waker keeps it.
-/

set_option autoImplicit false

namespace Rust

universe u

variable {σ ι ο W Q : Type u}

/-- The wakers of the slots that were emptied. -/
def woken (before after : List (Option W)) : List W :=
  (before.zip after).filterMap fun slot ↦ if slot.2.isNone then slot.1 else none

/-- A step of the machine, and the wakers that it wakes. -/
def heard (step : σ → ι → Exec (σ × ο)) (wakers : σ → List (Option W)) (s : σ) (i : ι) :
    Exec (σ × ο × List W) := do
  let (s', o) ← step s i
  return (s', o, woken (wakers s) (wakers s'))

/-- The last poll of the task, with its waker and what it was for, as long as it is pending and the
waker was not woken.  `poll` tells which steps are polls of the task, and which of them are
pending. -/
def asleep [DecidableEq W] (poll : ι → ο → Option (Option (W × Q))) (last : Option (W × Q))
    (x : ι × ο × List W) : Option (W × Q) :=
  (poll x.1 x.2.1).getD (last.filter fun l ↦ decide (l.1 ∉ x.2.2))

/-- **The task does not miss a wake-up**: in each run from `s₀`, as long as the task sleeps, the
condition it waits for is not met. -/
def NoMissedWakeup [DecidableEq W] (step : σ → ι → Exec (σ × ο)) (wakers : σ → List (Option W))
    (valid : σ → ι → Prop) (poll : ι → ο → Option (Option (W × Q))) (Met : Q → σ → Prop) (s₀ : σ) :
    Prop :=
  ∀ is, Admissible (heard step wakers) valid s₀ is →
    ∃ s os, run (heard step wakers) s₀ is = .ok (s, os) ∧
      ∀ w q, (is.zip os).foldl (asleep poll) none = some (w, q) → ¬ Met q s

theorem mem_woken_of_getElem? {before after : List (Option W)} {i : ℕ} {w : W}
    (hbefore : before[i]? = some (some w)) (hafter : after[i]? = some none) :
    w ∈ woken before after := by
  refine List.mem_filterMap.mpr ⟨(some w, none), List.mem_of_getElem? (i := i) ?_, rfl⟩
  rw [List.getElem?_zip_eq_some]
  exact ⟨hbefore, hafter⟩

variable [DecidableEq W] {step : σ → ι → Exec (σ × ο)} {wakers : σ → List (Option W)}
  {valid : σ → ι → Prop} {poll : ι → ο → Option (Option (W × Q))} {Met : Q → σ → Prop} {s₀ : σ}

/-- **The rule for wake-ups.** -/
theorem NoMissedWakeup.of_waits (Inv : σ → Prop) (Waits : W → Q → σ → Prop)
    (hstep : ∀ s i, Inv s → valid s i → ∃ s' o, step s i = .ok (s', o) ∧ Inv s' ∧
      (∀ w q, poll i o = some (some (w, q)) → Waits w q s') ∧
      (poll i o = none → ∀ w q, Waits w q s → w ∉ woken (wakers s) (wakers s') → Waits w q s'))
    (hwaits : ∀ w q s, Inv s → Waits w q s → ¬ Met q s) (hs₀ : Inv s₀) :
    NoMissedWakeup step wakers valid poll Met s₀ := by
  have hrecord : ∀ last s i, (Inv s ∧ ∀ w q, last = some (w, q) → Waits w q s) → valid s i →
      ∃ s' o, heard step wakers s i = .ok (s', o) ∧
        Inv s' ∧ ∀ w q, asleep poll last (i, o) = some (w, q) → Waits w q s' := by
    intro last s i ⟨hs, hlast⟩ hi
    obtain ⟨s', o, hstep', hs', hpending, hkeeps⟩ := hstep s i hs hi
    refine ⟨s', (o, woken (wakers s) (wakers s')), by rw [heard, hstep']; rfl, hs', ?_⟩
    intro w q h
    rw [asleep] at h
    cases hpoll : poll i o with
    | some res =>
      rw [hpoll] at h
      exact hpending w q (hpoll.trans (congrArg some h))
    | none =>
      rw [hpoll, Option.getD_none, Option.filter_eq_some_iff, decide_eq_true_iff] at h
      exact hkeeps hpoll w q (hlast w q h.1) h.2
  intro is his
  have hnew : Inv s₀ ∧ ∀ w q, (none : Option (W × Q)) = some (w, q) → Waits w q s₀ := by
    refine ⟨hs₀, fun w q h ↦ ?_⟩
    cases h
  obtain ⟨s, os, hrun, hs, hlast⟩ := run_of_records (asleep poll) hrecord hnew his
  exact ⟨s, os, hrun, fun w q h ↦ hwaits w q s hs (hlast w q h)⟩

end Rust
