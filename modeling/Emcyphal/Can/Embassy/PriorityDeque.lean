import Emcyphal.Core
import Mathlib.Logic.Function.Basic

/-!
# A deque for each priority

`PriorityDeque` of `emcyphal-stm32-embassy/src/utils.rs`.  The priorities of the deques that are not
empty are cached.
-/

set_option autoImplicit false

namespace Emcyphal.Can.Embassy

structure PriorityDeque (T : Type) (N : ℕ) where
  queues : Priority → List T
  priorities : PrioritySet

namespace PriorityDeque

variable {T : Type} {N : ℕ}

def new : PriorityDeque T N := ⟨fun _ ↦ [], .NONE⟩

def front (d : PriorityDeque T N) (priority : Priority) : Option T := (d.queues priority).head?

/-- The deque is written, and its priority is removed if it is empty. -/
def removed (d : PriorityDeque T N) (priority : Priority) (queue : List T) : PriorityDeque T N where
  queues := Function.update d.queues priority queue
  priorities := if queue.isEmpty then d.priorities.remove priority else d.priorities

def popFront (d : PriorityDeque T N) (priority : Priority) : Option T × PriorityDeque T N :=
  let queue := d.queues priority
  (queue.head?, d.removed priority queue.tail)

def popBack (d : PriorityDeque T N) (priority : Priority) : Option T × PriorityDeque T N :=
  let queue := d.queues priority
  (queue.getLast?, d.removed priority queue.dropLast)

/-- `none` is the error of a full deque. -/
def pushFront (d : PriorityDeque T N) (priority : Priority) (item : T) :
    Option Unit × PriorityDeque T N :=
  let queue := d.queues priority
  let (res, queue) := if queue.length < N then (some (), item :: queue) else (none, queue)
  (res, ⟨Function.update d.queues priority queue, d.priorities.insert priority⟩)

/-- `none` is the error of a full deque. -/
def pushBack (d : PriorityDeque T N) (priority : Priority) (item : T) :
    Option Unit × PriorityDeque T N :=
  let queue := d.queues priority
  let (res, queue) := if queue.length < N then (some (), queue ++ [item]) else (none, queue)
  (res, ⟨Function.update d.queues priority queue, d.priorities.insert priority⟩)

/-- The cache is right. -/
def Consistent (d : PriorityDeque T N) : Prop :=
  ∀ p, d.priorities.contains p = true ↔ d.queues p ≠ []

variable {d : PriorityDeque T N} {p : Priority} {item : T} {rest : List T}

theorem consistent_new : (new : PriorityDeque T N).Consistent := fun p ↦ by simp [new]

theorem Consistent.removed (h : d.Consistent) (p : Priority) (queue : List T)
    (hsubset : d.queues p = [] → queue = []) : (d.removed p queue).Consistent := by
  intro q
  by_cases hq : q = p
  · subst hq
    cases queue with
    | nil => simp [PriorityDeque.removed]
    | cons item queue =>
      have hne : d.queues q ≠ [] := fun hnil ↦ by cases hsubset hnil
      simpa [PriorityDeque.removed] using (h q).mpr hne
  · rw [PriorityDeque.removed]
    dsimp only
    rw [Function.update_of_ne hq, ← h q]
    split
    · simp [Ne.symm hq]
    · rfl

theorem popFront_cons (hqueue : d.queues p = item :: rest) :
    d.popFront p = (some item, d.removed p rest) := by
  rw [popFront, hqueue]
  rfl

theorem popBack_concat (hqueue : d.queues p = rest ++ [item]) :
    d.popBack p = (some item, d.removed p rest) := by
  rw [popBack, hqueue, List.getLast?_concat, List.dropLast_concat]

/-- What is left when a deque was extended. -/
def extended (d : PriorityDeque T N) (p : Priority) (queue : List T) : PriorityDeque T N :=
  ⟨Function.update d.queues p queue, d.priorities.insert p⟩

theorem pushFront_of_lt (h : (d.queues p).length < N) :
    d.pushFront p item = (some (), d.extended p (item :: d.queues p)) := by
  rw [pushFront, if_pos h]
  rfl

theorem pushBack_of_lt (h : (d.queues p).length < N) :
    d.pushBack p item = (some (), d.extended p (d.queues p ++ [item])) := by
  rw [pushBack, if_pos h]
  rfl

theorem Consistent.extended (h : d.Consistent) (p : Priority) {queue : List T} (hne : queue ≠ []) :
    (d.extended p queue).Consistent := by
  intro q
  rw [PriorityDeque.extended, PrioritySet.contains_insert]
  by_cases hq : q = p
  · simp [hq, hne]
  · simp [hq, Ne.symm hq, h q]

end PriorityDeque

/-- One value for each priority. -/
abbrev PriorityArray (T : Type) := Priority → T

end Emcyphal.Can.Embassy
