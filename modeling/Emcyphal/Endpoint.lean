import Emcyphal.Core
import Mathlib.Data.List.Perm.Basic
import Mathlib.Logic.Function.Basic

/-!
# What the endpoints and the buffers share

The types by which an endpoint talks to its buffer, from `endpoint.rs` and `buffer.rs`, and the two
small containers of `utils.rs` that buffers are built from: a trigger that wakes a task, and a map
with a slot for each priority.
-/

set_option autoImplicit false

namespace Emcyphal

/-- A tick count that identifies a task to be woken. -/
abbrev Waker := ℕ

/-- Wakes a task when something happens at one of the priorities it waits for.  The waker
registration keeps the last waker that was registered, until it is woken. -/
structure PriorityTrigger where
  waker : Option Waker
  filter : PrioritySet

namespace PriorityTrigger

def new : PriorityTrigger := ⟨none, .NONE⟩

def register (_t : PriorityTrigger) (w : Waker) (filter : PrioritySet) : PriorityTrigger :=
  ⟨some w, filter⟩

def wake (t : PriorityTrigger) (priorities : PrioritySet) : PriorityTrigger :=
  if !(priorities &&& t.filter).isEmpty then { t with waker := none } else t

end PriorityTrigger

/-- What an endpoint gets to know about a transfer, apart from its payload. -/
structure TransferMeta where
  priority : Priority
  address : Option NodeId
  transferId : TransferId
  timestamp : Instant
  loopBack : Bool
deriving DecidableEq

/-- Why a buffer does not accept a transfer. -/
inductive BufferError
  | priorityNotReady
  | messageAddressSpecified
  | serviceAddressNotSpecified
  | scratchpadNotInitialized
deriving DecidableEq, Repr

/-! ## A slot for each priority -/

structure PriorityMap (V : Type) where
  set : PrioritySet
  values : Priority → Option V

namespace PriorityMap

variable {V : Type}

def new (V : Type) : PriorityMap V := ⟨.NONE, fun _ ↦ none⟩

def keys (m : PriorityMap V) : PrioritySet := m.set

def isEmpty (m : PriorityMap V) : Bool := m.set.isEmpty

def insert (m : PriorityMap V) (key : Priority) (value : V) : Option V × PriorityMap V :=
  (m.values key, ⟨m.set.insert key, Function.update m.values key (some value)⟩)

def remove (m : PriorityMap V) (key : Priority) : Option V × PriorityMap V :=
  (m.values key, ⟨m.set.remove key, Function.update m.values key none⟩)

/-- `map[key] = value` for a key that is there. -/
def assign (m : PriorityMap V) (key : Priority) (value : V) : PriorityMap V :=
  { m with values := Function.update m.values key (some value) }

/-- The cached set says which slots are occupied. -/
def Consistent (m : PriorityMap V) : Prop := ∀ p, m.set.contains p = (m.values p).isSome

theorem consistent_new : (new V).Consistent := fun p ↦ by simp [new]

theorem Consistent.insert {m : PriorityMap V} (h : m.Consistent) (key : Priority) (value : V) :
    (m.insert key value).2.Consistent := by
  intro p
  by_cases hp : key = p
  · subst hp
    simp [PriorityMap.insert]
  · simp [PriorityMap.insert, hp, h p, Function.update_of_ne (Ne.symm hp)]

theorem Consistent.remove {m : PriorityMap V} (h : m.Consistent) (key : Priority) :
    (m.remove key).2.Consistent := by
  intro p
  by_cases hp : key = p
  · subst hp
    simp [PriorityMap.remove]
  · simp [PriorityMap.remove, hp, h p, Function.update_of_ne (Ne.symm hp)]

theorem Consistent.assign {m : PriorityMap V} (h : m.Consistent) {key : Priority}
    (hkey : m.set.contains key = true) (value : V) : (m.assign key value).Consistent := by
  intro p
  by_cases hp : p = key
  · subst hp
    simp [PriorityMap.assign, hkey]
  · simp [PriorityMap.assign, h p, Function.update_of_ne hp]

/-- The values that are there. -/
def entries (m : PriorityMap V) : List V := Priority.all.filterMap m.values

/-- The value of one key, and the others. -/
theorem entries_update (f : Priority → Option V) (key : Priority) (value : Option V) :
    (Priority.all.filterMap (Function.update f key value)).Perm
      (value.toList ++ (Priority.all.erase key).filterMap f) := by
  have hperm := (List.perm_cons_erase (Priority.mem_all key)).filterMap
    (Function.update f key value)
  refine hperm.trans (List.Perm.of_eq ?_)
  have hothers : (Priority.all.erase key).filterMap (Function.update f key value) =
      (Priority.all.erase key).filterMap f := by
    refine List.filterMap_congr fun p hp ↦ ?_
    exact Function.update_of_ne ((Priority.nodup_all.mem_erase_iff.mp hp).1) _ _
  rw [List.filterMap_cons, Function.update_self, hothers]
  cases value <;> rfl

end PriorityMap

end Emcyphal
