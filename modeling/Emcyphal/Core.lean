import Mathlib.Data.BitVec
import Mathlib.Order.Fin.Basic
import Mathlib.Tactic.IntervalCases

/-!
# Basic types of the protocol

The types of `emcyphal-core` and the time types the stack is built on.  Identifiers with a limited
range are `Fin`s, so an identifier that the code masks or checks is in range by construction.

`PrioritySet` is the one type here with an algorithm in it: a set of priorities is a `u8`, and its
smallest and largest elements are read off by counting zeros.  `contains_insert`, `contains_remove`,
`first_eq_some_iff` and `last_eq_some_iff` say that it behaves as a set.
-/

set_option autoImplicit false

namespace Emcyphal

/-! ## Time -/

/-- A `u64` tick count. -/
abbrev Instant := Fin (2 ^ 64)

/-- A `u64` tick count. -/
abbrev Duration := Fin (2 ^ 64)

instance instNeZeroTicks : NeZero (2 ^ 64) := ⟨by decide⟩

namespace Instant

def MIN : Instant := ⟨0, by decide⟩

def MAX : Instant := ⟨2 ^ 64 - 1, by decide⟩

/-- Adds a duration, stopping at the last representable instant. -/
def saturatingAdd (t : Instant) (d : Duration) : Instant :=
  ⟨min (t.val + d.val) (2 ^ 64 - 1), by omega⟩

theorem le_MAX (t : Instant) : t ≤ MAX := Nat.le_pred_of_lt t.isLt

/-- Whether an instant is within `d` of `t` does not depend on the saturation. -/
theorem le_saturatingAdd {s t : Instant} {d : Duration} :
    s ≤ saturatingAdd t d ↔ s.val ≤ t.val + d.val := by
  rw [Fin.le_def, saturatingAdd]
  have := s.isLt
  simp only [le_min_iff]
  omega

theorem saturatingAdd_mono {s t : Instant} (h : s ≤ t) (d : Duration) :
    saturatingAdd s d ≤ saturatingAdd t d := by
  rw [Fin.le_def] at h ⊢
  simp only [saturatingAdd]
  omega

end Instant

/-! ## Identifiers -/

/-- A byte of a frame or of a buffer. -/
abbrev Byte := BitVec 8

/-- 7-bit node identifier. -/
abbrev NodeId := Fin 128

def NodeId.fromU8Truncating (value : Byte) : NodeId :=
  ⟨(value &&& 0x7f#8).toNat, by
    rw [BitVec.toNat_and]
    exact lt_of_le_of_lt Nat.and_le_right (by decide)⟩

/-- 13-bit subject identifier. -/
abbrev SubjectId := Fin 8192

def SubjectId.MAX : SubjectId := ⟨0x1fff, by decide⟩

def SubjectId.fromU16Truncating (value : BitVec 16) : SubjectId :=
  ⟨(value &&& 0x1fff#16).toNat, by
    rw [BitVec.toNat_and]
    exact lt_of_le_of_lt Nat.and_le_right (by decide)⟩

/-- 9-bit service identifier. -/
abbrev ServiceId := Fin 512

def ServiceId.fromU16Truncating (value : BitVec 16) : ServiceId :=
  ⟨(value &&& 0x1ff#16).toNat, by
    rw [BitVec.toNat_and]
    exact lt_of_le_of_lt Nat.and_le_right (by decide)⟩

/-- 5-bit transfer identifier. -/
abbrev TransferId := Fin 32

instance instNeZeroTransferIds : NeZero 32 := ⟨by decide⟩

def TransferId.fromU8Truncating (value : Byte) : TransferId :=
  ⟨(value &&& 0x1f#8).toNat, by
    rw [BitVec.toNat_and]
    exact lt_of_le_of_lt Nat.and_le_right (by decide)⟩

def TransferId.intoU8 (id : TransferId) : Byte := BitVec.ofNat 8 id

/-! ## Priorities -/

/-- Transfer priority.  A higher priority has a lower numerical value. -/
inductive Priority
  | exceptional
  | immediate
  | fast
  | high
  | nominal
  | low
  | slow
  | optional
deriving DecidableEq, Repr

namespace Priority

def intoU8 : Priority → ℕ
  | exceptional => 0
  | immediate => 1
  | fast => 2
  | high => 3
  | nominal => 4
  | low => 5
  | slow => 6
  | optional => 7

def fromU8Truncating (code : ℕ) : Priority :=
  match code % 8 with
  | 0 => exceptional
  | 1 => immediate
  | 2 => fast
  | 3 => high
  | 4 => nominal
  | 5 => low
  | 6 => slow
  | _ => optional

def MAX : Priority := optional

def tryFromU8 (code : ℕ) : Option Priority :=
  if code ≤ optional.intoU8 then some (fromU8Truncating code) else none

theorem intoU8_lt (p : Priority) : p.intoU8 < 8 := by cases p <;> decide

theorem intoU8_injective : Function.Injective intoU8 := by
  intro p q h
  cases p <;> cases q <;> first | rfl | exact absurd h (by decide)

/-- The priorities are ordered by their numerical value. -/
instance : LinearOrder Priority where
  le p q := p.intoU8 ≤ q.intoU8
  lt p q := p.intoU8 < q.intoU8
  le_refl p := Nat.le_refl p.intoU8
  le_trans _ _ _ h h' := Nat.le_trans h h'
  le_antisymm _ _ h h' := intoU8_injective (Nat.le_antisymm h h')
  le_total p q := Nat.le_total p.intoU8 q.intoU8
  lt_iff_le_not_ge _ _ := Nat.lt_iff_le_and_not_ge
  toDecidableLE p q := inferInstanceAs (Decidable (p.intoU8 ≤ q.intoU8))
  toDecidableLT p q := inferInstanceAs (Decidable (p.intoU8 < q.intoU8))
  toDecidableEq := inferInstance

/-- All priorities, in their order. -/
def all : List Priority := [exceptional, immediate, fast, high, nominal, low, slow, optional]

theorem mem_all (p : Priority) : p ∈ all := by cases p <;> decide

theorem nodup_all : all.Nodup := by decide

theorem pairwise_all : all.Pairwise (· < ·) := by decide

theorem le_def {p q : Priority} : p ≤ q ↔ p.intoU8 ≤ q.intoU8 := Iff.rfl

@[simp] theorem fromU8Truncating_intoU8 (p : Priority) : fromU8Truncating p.intoU8 = p := by
  cases p <;> rfl

theorem intoU8_fromU8Truncating {code : ℕ} (h : code < 8) :
    (fromU8Truncating code).intoU8 = code := by
  interval_cases code <;> rfl

theorem tryFromU8_eq_some {code : ℕ} {p : Priority} :
    tryFromU8 code = some p ↔ code = p.intoU8 := by
  constructor
  · intro h
    rw [tryFromU8] at h
    split at h
    · rename_i hc
      have hcode : code < 8 := Nat.lt_succ_of_le hc
      obtain rfl := Option.some.inj h
      exact (intoU8_fromU8Truncating hcode).symm
    · exact absurd h (by simp)
  · rintro rfl
    have h : p.intoU8 ≤ optional.intoU8 := Nat.le_of_lt_succ p.intoU8_lt
    rw [tryFromU8, if_pos h, fromU8Truncating_intoU8]

end Priority

/-- A set of priorities, one bit for each. -/
structure PrioritySet where
  bits : BitVec 8
deriving DecidableEq

namespace PrioritySet

def NONE : PrioritySet := ⟨0⟩

def ALL : PrioritySet := ⟨0xff#8⟩

def newEq (priority : Priority) : PrioritySet := ⟨1#8 <<< priority.intoU8⟩

def contains (s : PrioritySet) (priority : Priority) : Bool :=
  (s.bits >>> priority.intoU8) &&& 1#8 != 0

def insert (s : PrioritySet) (priority : Priority) : PrioritySet :=
  ⟨s.bits ||| (newEq priority).bits⟩

def remove (s : PrioritySet) (priority : Priority) : PrioritySet :=
  ⟨s.bits &&& ~~~(newEq priority).bits⟩

def inter (s t : PrioritySet) : PrioritySet := ⟨s.bits &&& t.bits⟩

instance : AndOp PrioritySet := ⟨inter⟩

def union (s t : PrioritySet) : PrioritySet := ⟨s.bits ||| t.bits⟩

instance : OrOp PrioritySet := ⟨union⟩

def complement (s : PrioritySet) : PrioritySet := ⟨~~~s.bits⟩

instance : Complement PrioritySet := ⟨complement⟩

/-- The numerically smallest priority of the set. -/
def first (s : PrioritySet) : Option Priority := Priority.tryFromU8 s.bits.ctz.toNat

/-- The numerically largest priority of the set.  The subtraction wraps around for the empty
set. -/
def last (s : PrioritySet) : Option Priority :=
  Priority.tryFromU8 ((8 - s.bits.clz.toNat + 255) % 256)

def isEmpty (s : PrioritySet) : Bool := s.bits == 0

/-! ### What the bits say -/

theorem contains_eq_getLsbD (s : PrioritySet) (p : Priority) :
    s.contains p = s.bits.getLsbD p.intoU8 := by
  have h : ∀ b : BitVec 8, ∀ i < 8, ((b >>> i) &&& 1#8 != 0) = b.getLsbD i := by decide
  exact h s.bits p.intoU8 p.intoU8_lt

theorem getLsbD_newEq (p q : Priority) : (newEq p).bits.getLsbD q.intoU8 = decide (p = q) := by
  cases p <;> cases q <;> rfl

@[simp] theorem contains_NONE (p : Priority) : NONE.contains p = false := by
  rw [contains_eq_getLsbD]; simp [NONE]

@[simp] theorem contains_insert (s : PrioritySet) (p q : Priority) :
    (s.insert p).contains q = (s.contains q || decide (p = q)) := by
  simp only [contains_eq_getLsbD, insert, BitVec.getLsbD_or, getLsbD_newEq]

@[simp] theorem contains_remove (s : PrioritySet) (p q : Priority) :
    (s.remove p).contains q = (s.contains q && decide (p ≠ q)) := by
  have hq : q.intoU8 < 8 := q.intoU8_lt
  simp only [contains_eq_getLsbD, remove, BitVec.getLsbD_and, BitVec.getLsbD_not, getLsbD_newEq, hq,
    decide_true, Bool.true_and, decide_not]

@[simp] theorem contains_and (s t : PrioritySet) (p : Priority) :
    (s &&& t).contains p = (s.contains p && t.contains p) := by
  show (inter s t).contains p = _
  simp only [contains_eq_getLsbD, inter, BitVec.getLsbD_and]

@[simp] theorem contains_or (s t : PrioritySet) (p : Priority) :
    (s ||| t).contains p = (s.contains p || t.contains p) := by
  show (union s t).contains p = _
  simp only [contains_eq_getLsbD, union, BitVec.getLsbD_or]

@[simp] theorem contains_not (s : PrioritySet) (p : Priority) :
    (~~~s).contains p = !s.contains p := by
  show s.complement.contains p = _
  have hp : p.intoU8 < 8 := p.intoU8_lt
  simp only [contains_eq_getLsbD, complement, BitVec.getLsbD_not, hp, decide_true, Bool.true_and]

@[simp] theorem contains_newEq (p q : Priority) : (newEq p).contains q = decide (p = q) := by
  rw [contains_eq_getLsbD, getLsbD_newEq]

/-- Two sets with the same elements are equal. -/
theorem ext_contains {s t : PrioritySet} (h : ∀ p, s.contains p = t.contains p) : s = t := by
  obtain ⟨a⟩ := s
  obtain ⟨b⟩ := t
  congr 1
  refine BitVec.eq_of_getLsbD_eq fun i hi ↦ ?_
  have hp := h (Priority.fromU8Truncating i)
  rw [contains_eq_getLsbD, contains_eq_getLsbD] at hp
  rwa [Priority.intoU8_fromU8Truncating hi] at hp

/-- `first` is the smallest element. -/
theorem first_eq_some_iff {s : PrioritySet} {p : Priority} :
    s.first = some p ↔ s.contains p = true ∧ ∀ q, s.contains q = true → p ≤ q := by
  have h : ∀ b : BitVec 8, ∀ i < 8, b.ctz.toNat = i ↔
      b.getLsbD i = true ∧ ∀ j < 8, b.getLsbD j = true → i ≤ j := by decide
  rw [first, Priority.tryFromU8_eq_some, h s.bits p.intoU8 p.intoU8_lt]
  simp only [contains_eq_getLsbD, Priority.le_def]
  refine and_congr_right fun _ ↦ ⟨fun hj q hq ↦ hj _ q.intoU8_lt hq, fun hq j hj hb ↦ ?_⟩
  have hj' := Priority.intoU8_fromU8Truncating hj
  simpa only [hj'] using hq (Priority.fromU8Truncating j) (by rwa [hj'])

/-- There is a smallest element unless the set is empty. -/
theorem first_eq_none_iff {s : PrioritySet} : s.first = none ↔ ∀ p, s.contains p = false := by
  have h : ∀ b : BitVec 8, 7 < b.ctz.toNat ↔ ∀ i < 8, b.getLsbD i = false := by decide
  have hnone : s.first = none ↔ 7 < s.bits.ctz.toNat := by
    rw [first, Priority.tryFromU8]
    split
    · rename_i hle
      simp only [reduceCtorEq, false_iff, not_lt]
      exact hle
    · rename_i hgt
      simp only [true_iff]
      exact not_le.mp hgt
  rw [hnone, h]
  simp only [contains_eq_getLsbD]
  refine ⟨fun hall p ↦ hall _ p.intoU8_lt, fun hall i hi ↦ ?_⟩
  have hp := hall (Priority.fromU8Truncating i)
  rwa [Priority.intoU8_fromU8Truncating hi] at hp

/-- The smallest element is the first that is found. -/
theorem first_eq_find? (s : PrioritySet) : s.first = Priority.all.find? s.contains := by
  have h : ∀ b : BitVec 8, first ⟨b⟩ = Priority.all.find? (contains ⟨b⟩) := by decide
  exact h s.bits

theorem isEmpty_iff {s : PrioritySet} : s.isEmpty = true ↔ ∀ p, s.contains p = false := by
  rw [isEmpty, beq_iff_eq]
  constructor
  · intro h p
    rw [contains_eq_getLsbD, h]
    simp
  · intro h
    exact congrArg bits (ext_contains (t := ⟨0⟩) fun p ↦ by rw [h p]; exact (contains_NONE p).symm)

/-- `last` is the largest element. -/
theorem last_eq_some_iff {s : PrioritySet} {p : Priority} :
    s.last = some p ↔ s.contains p = true ∧ ∀ q, s.contains q = true → q ≤ p := by
  have h : ∀ b : BitVec 8, ∀ i < 8, (8 - b.clz.toNat + 255) % 256 = i ↔
      b.getLsbD i = true ∧ ∀ j < 8, b.getLsbD j = true → j ≤ i := by decide
  rw [last, Priority.tryFromU8_eq_some, h s.bits p.intoU8 p.intoU8_lt]
  simp only [contains_eq_getLsbD, Priority.le_def]
  refine and_congr_right fun _ ↦ ⟨fun hj q hq ↦ hj _ q.intoU8_lt hq, fun hq j hj hb ↦ ?_⟩
  have hj' := Priority.intoU8_fromU8Truncating hj
  simpa only [hj'] using hq (Priority.fromU8Truncating j) (by rwa [hj'])

end PrioritySet

end Emcyphal
