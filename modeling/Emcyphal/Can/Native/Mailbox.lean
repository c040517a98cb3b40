import Emcyphal.Can.MessageRam
import Emcyphal.Core
import Mathlib.Data.List.FinRange
import Mathlib.Logic.Function.Basic

/-!
# Mailboxes

`emcyphal-stm32-native/src/utils.rs`.  A `MailboxPriorityMap` says which mailbox a frame of some
priority is in, and a `TxMailboxSet` is what a register says of the mailboxes.  The bits of a set
above the mailboxes are never set, and are left out.
-/

set_option autoImplicit false

namespace Emcyphal.Can.Native

instance instNeZeroMailboxes : NeZero TX_FIFO_MAX := ⟨by decide⟩

abbrev TxMailboxIdx := Fin TX_FIFO_MAX

def TxMailboxIdx.new (value : BitVec 8) : Option TxMailboxIdx :=
  if h : value.toNat ≤ TX_FIFO_MAX - 1 then some ⟨value.toNat, Nat.lt_succ_of_le h⟩ else none

/-- `u8::from`. -/
def TxMailboxIdx.intoU8 (idx : TxMailboxIdx) : BitVec 8 := BitVec.ofNat 8 idx

/-! ## Sets -/

structure TxMailboxSet where
  bits : BitVec 3
deriving DecidableEq

namespace TxMailboxSet

def NONE : TxMailboxSet := ⟨0⟩

def ALL : TxMailboxSet := ⟨BitVec.allOnes 3⟩

def insert (s : TxMailboxSet) (key : TxMailboxIdx) : TxMailboxSet := ⟨s.bits ||| 1#3 <<< key.val⟩

def remove (s : TxMailboxSet) (key : TxMailboxIdx) : TxMailboxSet :=
  ⟨s.bits &&& ~~~(1#3 <<< key.val)⟩

def newEq (key : TxMailboxIdx) : TxMailboxSet := NONE.insert key

def contains (s : TxMailboxSet) (key : TxMailboxIdx) : Bool := (s.bits >>> key.val) &&& 1 != 0

def first (s : TxMailboxSet) : Option TxMailboxIdx :=
  TxMailboxIdx.new (BitVec.ofNat 8 s.bits.ctz.toNat)

instance instComplement : Complement TxMailboxSet := ⟨fun s ↦ ⟨~~~s.bits⟩⟩

instance instAndOp : AndOp TxMailboxSet := ⟨fun s t ↦ ⟨s.bits &&& t.bits⟩⟩

instance instOrOp : OrOp TxMailboxSet := ⟨fun s t ↦ ⟨s.bits ||| t.bits⟩⟩

/-- The mailboxes of a set, in the order of an iteration over it. -/
def toList (s : TxMailboxSet) : List TxMailboxIdx :=
  (List.finRange TX_FIFO_MAX).filter s.contains

theorem contains_eq (s : TxMailboxSet) (key : TxMailboxIdx) :
    s.contains key = s.bits.getLsbD key := by
  have h : ∀ (b : BitVec 3) (k : Fin 3), ((b >>> k.val) &&& 1 != 0) = b.getLsbD k := by decide
  exact h s.bits key

@[simp] theorem contains_NONE (key : TxMailboxIdx) : NONE.contains key = false := by
  revert key
  decide

@[simp] theorem contains_insert (s : TxMailboxSet) (key other : TxMailboxIdx) :
    (s.insert key).contains other = (s.contains other || decide (key = other)) := by
  have h : ∀ (b : BitVec 3) (k l : Fin 3),
      (b ||| 1#3 <<< k.val).getLsbD l = (b.getLsbD l || decide (k = l)) := by decide
  rw [contains_eq, contains_eq]
  exact h s.bits key other

@[simp] theorem contains_remove (s : TxMailboxSet) (key other : TxMailboxIdx) :
    (s.remove key).contains other = (s.contains other && decide (key ≠ other)) := by
  have h : ∀ (b : BitVec 3) (k l : Fin 3),
      (b &&& ~~~(1#3 <<< k.val)).getLsbD l = (b.getLsbD l && decide (k ≠ l)) := by decide
  rw [contains_eq, contains_eq]
  exact h s.bits key other

@[simp] theorem contains_not (s : TxMailboxSet) (key : TxMailboxIdx) :
    (~~~s).contains key = !s.contains key := by
  have h : ∀ (b : BitVec 3) (k : Fin 3), (~~~b).getLsbD k = !b.getLsbD k := by decide
  rw [contains_eq, contains_eq]
  exact h s.bits key

@[simp] theorem contains_and (s t : TxMailboxSet) (key : TxMailboxIdx) :
    (s &&& t).contains key = (s.contains key && t.contains key) := by
  rw [contains_eq, contains_eq, contains_eq]
  exact BitVec.getLsbD_and

@[simp] theorem contains_or (s t : TxMailboxSet) (key : TxMailboxIdx) :
    (s ||| t).contains key = (s.contains key || t.contains key) := by
  rw [contains_eq, contains_eq, contains_eq]
  exact BitVec.getLsbD_or

theorem mem_toList {s : TxMailboxSet} {key : TxMailboxIdx} :
    key ∈ s.toList ↔ s.contains key = true := by
  rw [toList, List.mem_filter, and_iff_right (List.mem_finRange key)]

theorem ne_ALL_iff {s : TxMailboxSet} : s ≠ ALL ↔ ∃ key, s.contains key = false := by
  have h : ∀ b : BitVec 3, b ≠ BitVec.allOnes 3 ↔ ∃ k : Fin 3, b.getLsbD k = false := by decide
  rw [Ne, TxMailboxSet.mk.injEq]
  simp only [contains_eq]
  exact h s.bits

theorem contains_of_first {s : TxMailboxSet} {key : TxMailboxIdx} (h : s.first = some key) :
    s.contains key = true := by
  have hall : ∀ b : BitVec 3, ∀ k ∈ TxMailboxIdx.new (BitVec.ofNat 8 b.ctz.toNat),
      b.getLsbD k = true := by decide
  rw [contains_eq]
  exact hall s.bits key h

end TxMailboxSet

/-! ## Mailboxes and priorities -/

structure MailboxPriorityMap where
  forward : TxMailboxIdx → Option Priority
  backward : Priority → Option TxMailboxIdx

namespace MailboxPriorityMap

def new : MailboxPriorityMap := ⟨fun _ ↦ none, fun _ ↦ none⟩

/-- `none` if one of the keys is in use. -/
def insert (m : MailboxPriorityMap) (mailbox : TxMailboxIdx) (priority : Priority) :
    Option MailboxPriorityMap :=
  if (m.forward mailbox).isSome || (m.backward priority).isSome then none
  else some ⟨Function.update m.forward mailbox (some priority),
    Function.update m.backward priority (some mailbox)⟩

def removeByMailbox (m : MailboxPriorityMap) (mailbox : TxMailboxIdx) :
    Option Priority × MailboxPriorityMap :=
  match m.forward mailbox with
  | none => (none, m)
  | some priority => (some priority, ⟨Function.update m.forward mailbox none,
    Function.update m.backward priority none⟩)

def removeByPriority (m : MailboxPriorityMap) (priority : Priority) :
    Option TxMailboxIdx × MailboxPriorityMap :=
  match m.backward priority with
  | none => (none, m)
  | some mailbox => (some mailbox, ⟨Function.update m.forward mailbox none,
    Function.update m.backward priority none⟩)

def getByPriority (m : MailboxPriorityMap) (priority : Priority) : Option TxMailboxIdx :=
  m.backward priority

def containsPriority (m : MailboxPriorityMap) (priority : Priority) : Bool :=
  (m.getByPriority priority).isSome

/-- The map is a bijection between its mailboxes and its priorities. -/
def Bijective (m : MailboxPriorityMap) : Prop :=
  ∀ mailbox priority, m.forward mailbox = some priority ↔ m.backward priority = some mailbox

variable {m : MailboxPriorityMap} {mailbox : TxMailboxIdx} {priority : Priority}

theorem bijective_new : new.Bijective := fun _ _ ↦ by simp [new]

/-! ### Entries -/

theorem removeByPriority_backward (q : Priority) :
    (m.removeByPriority priority).2.backward q = if q = priority then none else m.backward q := by
  rw [removeByPriority]
  cases hentry : m.backward priority with
  | none =>
    dsimp only
    split
    · rename_i hq
      rw [hq, hentry]
    · rfl
  | some mailbox => exact Function.update_apply ..

theorem Bijective.removeByPriority_forward (h : m.Bijective) {q : Priority} :
    (m.removeByPriority priority).2.forward mailbox = some q ↔
      m.forward mailbox = some q ∧ q ≠ priority := by
  rw [removeByPriority]
  cases hentry : m.backward priority with
  | none =>
    refine (and_iff_left_of_imp fun hq heq ↦ ?_).symm
    cases hentry.symm.trans ((h mailbox priority).mp (heq ▸ hq))
  | some mailbox' =>
    have hforward := (h mailbox' priority).mpr hentry
    dsimp only
    rw [Function.update_apply]
    split
    · rename_i hsame
      rw [hsame, hforward]
      simp [eq_comm]
    · rename_i hother
      refine (and_iff_left_of_imp fun hq heq ↦ hother ?_).symm
      exact Option.some.inj (((h mailbox priority).mp (heq ▸ hq)).symm.trans hentry)

theorem Bijective.removeByPriority (h : m.Bijective) (priority : Priority) :
    (m.removeByPriority priority).2.Bijective := by
  intro mailbox q
  rw [h.removeByPriority_forward, removeByPriority_backward, h mailbox q]
  by_cases hq : q = priority <;> simp [hq]

theorem Bijective.removeByMailbox_of_some (h : m.Bijective)
    (hentry : m.forward mailbox = some priority) :
    m.removeByMailbox mailbox = (some priority, (m.removeByPriority priority).2) := by
  rw [removeByMailbox, hentry, MailboxPriorityMap.removeByPriority,
    (h mailbox priority).mp hentry]

theorem removeByMailbox_of_none (h : m.forward mailbox = none) :
    m.removeByMailbox mailbox = (none, m) := by
  rw [removeByMailbox, h]

theorem removeByMailbox_forward_of_ne {mailbox' : TxMailboxIdx} (h : mailbox' ≠ mailbox) :
    (m.removeByMailbox mailbox).2.forward mailbox' = m.forward mailbox' := by
  rw [removeByMailbox]
  split
  · rfl
  · exact Function.update_of_ne h ..

theorem removeByPriority_of_none (h : m.backward priority = none) :
    m.removeByPriority priority = (none, m) := by
  rw [removeByPriority, h]

/-- No entry is added. -/
theorem Bijective.removeByMailbox_forward (h : m.Bijective) (mailbox mailbox' : TxMailboxIdx)
    (hnone : mailbox' = mailbox ∨ m.forward mailbox' = none) :
    (m.removeByMailbox mailbox).2.forward mailbox' = none := by
  cases hentry : m.forward mailbox with
  | none =>
    rw [removeByMailbox_of_none hentry]
    exact hnone.elim (fun heq ↦ heq ▸ hentry) id
  | some priority =>
    rw [h.removeByMailbox_of_some hentry]
    refine Option.eq_none_iff_forall_ne_some.mpr fun q hq ↦ ?_
    rw [h.removeByPriority_forward] at hq
    rcases hnone with rfl | hnone
    · exact hq.2 (Option.some.inj (hq.1.symm.trans hentry))
    · cases hnone.symm.trans hq.1

/-- An entry is added. -/
def extend (m : MailboxPriorityMap) (mailbox : TxMailboxIdx) (priority : Priority) :
    MailboxPriorityMap :=
  ⟨Function.update m.forward mailbox (some priority),
    Function.update m.backward priority (some mailbox)⟩

theorem insert_eq_some {m' : MailboxPriorityMap} (h : m.insert mailbox priority = some m') :
    m' = m.extend mailbox priority := by
  rw [insert] at h
  split at h
  · cases h
  · exact (Option.some.inj h).symm

theorem extend_forward (mailbox' : TxMailboxIdx) :
    (m.extend mailbox priority).forward mailbox' =
      if mailbox' = mailbox then some priority else m.forward mailbox' :=
  Function.update_apply ..

theorem extend_backward (q : Priority) :
    (m.extend mailbox priority).backward q =
      if q = priority then some mailbox else m.backward q :=
  Function.update_apply ..

theorem Bijective.extend (h : m.Bijective) (hm : m.forward mailbox = none)
    (hp : m.backward priority = none) : (m.extend mailbox priority).Bijective := by
  intro mailbox' q
  rw [extend_forward, extend_backward]
  split
  · rename_i hsame
    subst hsame
    split
    · rename_i hq
      simp [hq]
    · rename_i hq
      refine iff_of_false (fun heq ↦ hq (Option.some.inj heq).symm) fun heq ↦ ?_
      cases hm.symm.trans ((h mailbox' q).mpr heq)
  · rename_i hother
    split
    · rename_i hq
      subst hq
      refine iff_of_false (fun heq ↦ ?_) fun heq ↦ hother (Option.some.inj heq).symm
      cases hp.symm.trans ((h mailbox' q).mp heq)
    · exact h mailbox' q

end MailboxPriorityMap

end Emcyphal.Can.Native
