import Mathlib.Data.Nat.ModEq
import Mathlib.Logic.Function.Basic

/-!
# Ring buffers

A queue in an array.  The cells in use follow one another, and after the last cell of the array
comes the first one.  A producer writes behind them (`push`), and a consumer reads the first of them
and gives it back (`release`), so that each of the two works on cells of its own.

`toList` is what is in the queue.
-/

set_option autoImplicit false

namespace Rust

universe u

/-- A ring buffer in an array of `n` cells. -/
structure RingBuffer (α : Type u) (n : ℕ) where
  cells : Fin n → α
  /-- The first cell in use. -/
  start : Fin n
  /-- The number of cells in use. -/
  length : ℕ
  length_le : length ≤ n

namespace RingBuffer

variable {α : Type u} {n : ℕ} {r : RingBuffer α n}

/-- The cell that comes `k` cells after the first one in use. -/
def cell (r : RingBuffer α n) (k : ℕ) : Fin n := ⟨(r.start + k) % n, Nat.mod_lt _ r.start.pos⟩

def toList (r : RingBuffer α n) : List α := (List.range r.length).map fun k ↦ r.cells (r.cell k)

/-- The first cell in use. -/
def first (r : RingBuffer α n) : Option (Fin n) := if r.length = 0 then none else some r.start

/-- The element is lost if there is no room for it. -/
def push (r : RingBuffer α n) (a : α) : RingBuffer α n :=
  if h : r.length < n then { r with
    cells := Function.update r.cells (r.cell r.length) a
    length := r.length + 1
    length_le := h }
  else r

/-- The cells in use are given back, up to this one. -/
def release (r : RingBuffer α n) (i : Fin n) : RingBuffer α n where
  cells := r.cells
  start := ⟨(i + 1) % n, Nat.mod_lt _ i.pos⟩
  length := r.length - ((i + n - r.start) % n + 1)
  length_le := (Nat.sub_le _ _).trans r.length_le

@[simp] theorem length_toList : r.toList.length = r.length := by
  rw [toList, List.length_map, List.length_range]

theorem toList_eq_nil_iff : r.toList = [] ↔ r.length = 0 := by
  rw [← List.length_eq_zero_iff, length_toList]

/-- Different cells in use are not the same cell. -/
theorem cell_ne_cell {k l : ℕ} (hkl : k < l) (hl : l < n) : r.cell l ≠ r.cell k := by
  intro heq
  have hmod : r.start + l ≡ r.start + k [MOD n] := Fin.mk.inj heq
  have hlk := (Nat.ModEq.add_left_cancel' _ hmod).eq_of_lt_of_lt hl (hkl.trans hl)
  exact hkl.ne hlk.symm

/-- **What is written is read last.** -/
theorem toList_push (h : r.length < n) (a : α) : (r.push a).toList = r.toList ++ [a] := by
  rw [push, dif_pos h, toList, List.range_succ, List.map_append]
  refine congrArg₂ (· ++ ·) (List.map_congr_left fun k hk ↦ ?_) ?_
  · exact Function.update_of_ne (cell_ne_cell (List.mem_range.mp hk) h).symm ..
  · exact congrArg (fun x ↦ [x]) (Function.update_self ..)

/-- **What is read is given back.** -/
theorem toList_of_first {i : Fin n} (h : r.first = some i) :
    r.toList = r.cells i :: (r.release i).toList := by
  rw [first] at h
  split at h
  · cases h
  · rename_i hlength
    cases h
    obtain ⟨l, hl⟩ := Nat.exists_eq_succ_of_ne_zero hlength
    have hmod : (r.start.val + n - r.start.val) % n = 0 := by
      rw [Nat.add_sub_cancel_left, Nat.mod_self]
    have hrest : (r.release r.start).length = l := by
      change r.length - ((r.start.val + n - r.start.val) % n + 1) = l
      rw [hmod, hl]
      rfl
    rw [toList, hl, List.range_succ_eq_map, List.map_cons, List.map_map, toList, hrest]
    refine congrArg₂ List.cons ?_ (List.map_congr_left fun k _ ↦ ?_)
    · exact congrArg r.cells (Fin.ext (Nat.mod_eq_of_lt r.start.isLt))
    · have hsucc : r.cell (k + 1) = (r.release r.start).cell k := by
        refine Fin.ext ?_
        change (r.start + (k + 1)) % n = ((r.start + 1) % n + k) % n
        rw [Nat.mod_add_mod, Nat.add_right_comm, Nat.add_assoc]
      exact congrArg r.cells hsucc

theorem first_eq_none_iff : r.first = none ↔ r.toList = [] := by
  rw [toList_eq_nil_iff, first]
  split <;> simp_all

end RingBuffer

end Rust
