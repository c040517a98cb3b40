import Mathlib.Data.List.Basic
import Mathlib.Order.Basic

/-!
# An account of what was sent

A sender is given items one after the other, each of which it sends in parts.  Items are numbered as
they are given.  One of them is being sent, and one is waiting; an item that is waiting may be
replaced or given up, but one that was started is sent to its end.

`Ledger` keeps the numbers, with the parts that were sent of each item.  Whatever happens, the
numbers are in order (`indexes` only changes at its end), and the parts are sent one item after the
other.
-/

set_option autoImplicit false

namespace Rust

universe u

variable {α : Type u}

structure Ledger (α : Type u) where
  /-- The items that were sent to their end. -/
  done : List (ℕ × List α)
  /-- The item that is being sent. -/
  current : Option (ℕ × List α)
  /-- The item that is waiting. -/
  pending : Option ℕ

namespace Ledger

def empty : Ledger α := ⟨[], none, none⟩

/-- The items of which something was sent. -/
def sent (l : Ledger α) : List (ℕ × List α) := l.done ++ l.current.toList

/-- Everything that was sent. -/
def parts (l : Ledger α) : List α := l.sent.flatMap Prod.snd

/-- The items that were sent, or will be. -/
def indexes (l : Ledger α) : List ℕ := l.sent.map Prod.fst ++ l.pending.toList

/-- The waiting item is given up. -/
def forget (l : Ledger α) : Ledger α := { l with pending := none }

/-- Another item is waiting now. -/
def push (l : Ledger α) (idx : ℕ) : Ledger α := { l with pending := some idx }

/-- The waiting item is started, unless there is another one to send. -/
def start (l : Ledger α) : Ledger α :=
  match l.current with
  | some _ => l
  | none => { l with current := l.pending.map fun idx ↦ (idx, []), pending := none }

/-- A part is sent, and with the last one the item is done. -/
def send (l : Ledger α) (part : α) (last : Bool) : Ledger α :=
  match l.current with
  | some (idx, parts) =>
    if last then { l with done := l.done ++ [(idx, parts ++ [part])], current := none }
    else { l with current := some (idx, parts ++ [part]) }
  | none => l

variable {l : Ledger α}

theorem indexes_forget_of_none (h : l.pending = none) : l.forget.indexes = l.indexes := by
  rw [indexes, indexes, h]
  rfl

/-- The items that are left are in the same order. -/
theorem indexes_forget_sublist (l : Ledger α) : l.forget.indexes.Sublist l.indexes := by
  rw [indexes, indexes]
  exact (List.Sublist.refl _).append (List.nil_sublist _)

theorem indexes_push (l : Ledger α) (idx : ℕ) : (l.push idx).indexes =
    l.forget.indexes ++ [idx] := by
  rw [indexes, indexes]
  simp [push, forget, sent]

theorem indexes_start (l : Ledger α) : l.start.indexes = l.indexes := by
  obtain ⟨done, current, pending⟩ := l
  cases current with
  | some e => rfl
  | none => cases pending <;> simp [start, indexes, sent]

theorem indexes_send (l : Ledger α) (part : α) (last : Bool) :
    (l.send part last).indexes = l.indexes := by
  obtain ⟨done, current, pending⟩ := l
  cases current with
  | none => rfl
  | some e => cases last <;> simp [send, indexes, sent]

theorem parts_start (l : Ledger α) : l.start.parts = l.parts := by
  obtain ⟨done, current, pending⟩ := l
  cases current with
  | some e => rfl
  | none => cases pending <;> simp [start, parts, sent]

theorem parts_send (h : l.current.isSome = true) (part : α) (last : Bool) :
    (l.send part last).parts = l.parts ++ [part] := by
  obtain ⟨done, current, pending⟩ := l
  cases current with
  | none => cases h
  | some e => cases last <;> simp [send, parts, sent]

/-- The items are numbered in the order they were given. -/
def Ordered (l : Ledger α) (count : ℕ) : Prop :=
  l.indexes.Pairwise (· < ·) ∧ ∀ idx ∈ l.indexes, idx < count

theorem ordered_empty : (empty : Ledger α).Ordered 0 := ⟨.nil, nofun⟩

theorem Ordered.forget {count : ℕ} (h : l.Ordered count) : l.forget.Ordered count :=
  ⟨h.1.sublist l.indexes_forget_sublist, fun idx hidx ↦ h.2 idx (l.indexes_forget_sublist.subset
    hidx)⟩

theorem Ordered.push {count : ℕ} (h : l.Ordered count) : (l.push count).Ordered (count + 1) := by
  obtain ⟨hpairwise, hlt⟩ := h.forget
  rw [Ordered, indexes_push]
  refine ⟨List.pairwise_append.mpr ⟨hpairwise, List.pairwise_singleton _ _, ?_⟩, fun idx hidx ↦ ?_⟩
  · intro idx hidx j hj
    rw [List.mem_singleton.mp hj]
    exact hlt idx hidx
  · rcases List.mem_append.mp hidx with hidx | hidx
    · exact Nat.lt_succ_of_lt (hlt idx hidx)
    · rw [List.mem_singleton.mp hidx]
      exact Nat.lt_succ_self count

/-- The items that were sent are in order. -/
theorem Ordered.sent {count : ℕ} (h : l.Ordered count) : (l.sent.map Prod.fst).Pairwise (· < ·) :=
  h.1.sublist (List.sublist_append_left _ _)

/-- When nothing is left to send, the last item of the account was the last to be sent. -/
theorem getLast?_sent (hpending : l.pending = none) :
    (l.sent.map Prod.fst).getLast? = l.indexes.getLast? := by
  rw [indexes, hpending, Option.toList_none, List.append_nil]

end Ledger

end Rust
