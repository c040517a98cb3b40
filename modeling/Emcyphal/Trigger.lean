import Emcyphal.Endpoint

/-!
# Triggers

A task that waits for some priorities is registered with a trigger, and the owner of the trigger
wakes it with the priorities that become ready.  That is enough if everything that becomes ready at
a priority the task waits for comes with such a wake-up (`Alerts`): then a task that is still
registered waits for priorities that are not ready (`Waits`).
-/

set_option autoImplicit false

namespace Emcyphal.PriorityTrigger

variable {t t' : PriorityTrigger} {priorities ready ready' mask : PrioritySet} {w : Waker}

theorem filter_wake (t : PriorityTrigger) (priorities : PrioritySet) :
    (t.wake priorities).filter = t.filter := by
  rw [wake]
  split <;> rfl

/-- A waker that is registered after a wake-up was so before. -/
theorem waker_of_wake {w : Waker} (h : (t.wake priorities).waker = some w) : t.waker = some w := by
  rw [wake] at h
  split at h
  · cases h
  · exact h

theorem waker_wake (t : PriorityTrigger) (priorities : PrioritySet) :
    (t.wake priorities).waker = t.waker ∨ (t.wake priorities).waker = none := by
  rw [wake]
  split
  · exact .inr rfl
  · exact .inl rfl

theorem wake_newEq {p : Priority} (h : t.filter.contains p = true) :
    (t.wake (.newEq p)).waker = none := by
  rw [wake, if_pos]
  rw [Bool.not_eq_true', Bool.eq_false_iff, Ne, PrioritySet.isEmpty_iff]
  intro hempty
  simpa [h] using hempty p

/-- What becomes ready wakes whoever waits for it. -/
structure Alerts (t t' : PriorityTrigger) (ready ready' : PrioritySet) : Prop where
  filter : t'.filter = t.filter
  waker : t'.waker = t.waker ∨ t'.waker = none
  ready : ∀ p, t'.waker ≠ none → t.filter.contains p = true → ready'.contains p = true →
    ready.contains p = true

theorem Alerts.of_subset (h : ∀ p, ready'.contains p = true → ready.contains p = true) :
    Alerts t t ready ready' := ⟨rfl, .inl rfl, fun p _ _ ↦ h p⟩

theorem Alerts.of_wake {p : Priority}
    (h : ∀ q, ready'.contains q = true → q = p ∨ ready.contains q = true) :
    Alerts t (t.wake (.newEq p)) ready ready' := by
  refine ⟨filter_wake t _, waker_wake t _, fun q hwaker hq hready ↦ ?_⟩
  rcases h q hready with rfl | hready
  · exact absurd (wake_newEq hq) hwaker
  · exact hready

/-- The waker waits for the priorities, and none of them is ready. -/
structure Waits (t : PriorityTrigger) (ready : PrioritySet) (w : Waker) (mask : PrioritySet) :
    Prop where
  trigger : t = ⟨some w, mask⟩
  idle : ∀ p, mask.contains p = true → ready.contains p = false

theorem waits_register (t : PriorityTrigger) (h : (ready &&& mask).isEmpty = true) :
    Waits (t.register w mask) ready w mask := by
  refine ⟨rfl, fun p hp ↦ ?_⟩
  simpa [hp] using PrioritySet.isEmpty_iff.mp h p

theorem Waits.isEmpty (h : Waits t ready w mask) : (ready &&& mask).isEmpty = true := by
  rw [PrioritySet.isEmpty_iff]
  intro p
  rw [PrioritySet.contains_and]
  cases hp : mask.contains p with
  | false => rw [Bool.and_false]
  | true => rw [h.idle p hp, Bool.false_and]

/-- A waker that was not woken waits on. -/
theorem Waits.of_alerts (h : Waits t ready w mask) (ha : Alerts t t' ready ready')
    (hwaker : t'.waker ≠ none) : Waits t' ready' w mask := by
  obtain ⟨rfl, hidle⟩ := h
  have hw : t'.waker = some w := ha.waker.resolve_right hwaker
  refine ⟨?_, fun p hp ↦ Bool.eq_false_iff.mpr fun hready ↦ ?_⟩
  · cases t'
    exact congrArg₂ PriorityTrigger.mk hw ha.filter
  · cases (hidle p hp).symm.trans (ha.ready p hwaker hp hready)

end Emcyphal.PriorityTrigger
