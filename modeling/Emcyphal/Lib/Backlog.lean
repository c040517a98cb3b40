import Emcyphal.Lib.Classes
import Mathlib.Data.List.Induction
import Mathlib.Order.Lattice

/-!
# A bounded queue with classes

A `Backlog κ α` holds a first-in first-out list for each class of a finite linear order `κ`, the
smallest class being the most urgent.  `push` bounds the number of elements: when it is reached,
the oldest element of the least urgent class in use makes room for one that is at least as urgent.
`pop` takes the oldest element of the most urgent class among those the caller is interested in.

Nothing depends on what the elements are: `makeRoom`, `append` and `dropOldest` commute with
`Backlog.map`.
-/

set_option autoImplicit false

namespace Rust

universe u v w

/-- A list of all elements of a linear order, the smallest first. -/
class Enumeration (κ : Type u) [LinearOrder κ] where
  all : List κ
  mem_all : ∀ c, c ∈ all
  pairwise_all : all.Pairwise (· < ·)

/-- A list for each class, the oldest element first. -/
abbrev Backlog (κ : Type u) (α : Type v) := κ → List α

namespace Backlog

variable {κ : Type u} [LinearOrder κ] [Enumeration κ] {α : Type v} {β : Type w}

/-- Everything that is held. -/
def entries (b : Backlog κ α) : List α := (Enumeration.all : List κ).flatMap b

def append (b : Backlog κ α) (c : κ) (a : α) : Backlog κ α := Function.update b c (b c ++ [a])

def dropOldest (b : Backlog κ α) (c : κ) : Backlog κ α := Function.update b c (b c).tail

/-- The least urgent class in use. -/
def largest (b : Backlog κ α) : Option κ :=
  (Enumeration.all : List κ).reverse.find? fun c ↦ !(b c).isEmpty

/-- The most urgent class in use, among those selected. -/
def smallest (b : Backlog κ α) (mask : κ → Bool) : Option κ :=
  (Enumeration.all : List κ).find? fun c ↦ mask c && !(b c).isEmpty

/-- Makes room for an element of the class `c`, or refuses it. -/
def makeRoom (capacity : ℕ) (b : Backlog κ α) (c : κ) : Option (Backlog κ α) :=
  if b.entries.length < capacity then some b
  else b.largest.bind fun m ↦ if c ≤ m then some (b.dropOldest m) else none

/-- Appends an element, if there is room for it. -/
def push (capacity : ℕ) (b : Backlog κ α) (c : κ) (a : α) : Backlog κ α :=
  (b.makeRoom capacity c).elim b fun b' ↦ b'.append c a

/-- Takes the oldest element of the most urgent class in use, among those selected. -/
def pop (b : Backlog κ α) (mask : κ → Bool) : Option (κ × α) × Backlog κ α :=
  match b.smallest mask with
  | none => (none, b)
  | some c => ((b c).head?.map fun a ↦ (c, a), b.dropOldest c)

/-- A backlog of one class only. -/
def single (c : κ) (as : List α) : Backlog κ α := Function.update (fun _ ↦ []) c as

/-- The backlog of the images. -/
def map (f : κ → α → β) (b : Backlog κ α) : Backlog κ β := fun c ↦ (b c).map (f c)

variable {b : Backlog κ α} {c m : κ} {a : α} {capacity : ℕ} {f : κ → α → β} {mask : κ → Bool}

theorem nodup_all : (Enumeration.all : List κ).Nodup := Enumeration.pairwise_all.imp ne_of_lt

/-! ## What is held -/

theorem mem_entries : a ∈ b.entries ↔ ∃ c, a ∈ b c := by
  rw [entries, List.mem_flatMap]
  exact ⟨fun ⟨c, _, ha⟩ ↦ ⟨c, ha⟩, fun ⟨c, ha⟩ ↦ ⟨c, Enumeration.mem_all c, ha⟩⟩

theorem entries_eq_nil_iff : b.entries = [] ↔ ∀ c, b c = [] := by
  rw [entries, List.flatMap_eq_nil_iff]
  exact ⟨fun h c ↦ h c (Enumeration.mem_all c), fun h c _ ↦ h c⟩

@[simp] theorem entries_empty : entries (fun _ ↦ [] : Backlog κ α) = [] :=
  entries_eq_nil_iff.mpr fun _ ↦ rfl

theorem entries_append_perm (b : Backlog κ α) (c : κ) (a : α) :
    (b.append c a).entries.Perm (a :: b.entries) :=
  flatMap_concat_perm b nodup_all (Enumeration.mem_all c) a

theorem entries_perm_of_cons {rest : List α} (h : b c = a :: rest) :
    b.entries.Perm (a :: (b.dropOldest c).entries) := by
  have hperm := flatMap_tail_perm b nodup_all (Enumeration.mem_all c) h
  rwa [dropOldest, h, List.tail_cons]

omit [Enumeration κ] in
theorem dropOldest_of_cons {rest : List α} (h : b c = a :: rest) :
    b.dropOldest c = Function.update b c rest := by
  rw [dropOldest, h, List.tail_cons]

/-! ## The classes in use -/

omit [LinearOrder κ] [Enumeration κ] in
/-- In a sorted list of everything, the first element with a property is the least one. -/
theorem find?_eq_some_iff_least {r : κ → κ → Prop} (hasymm : ∀ c d, r c d → ¬ r d c) {l : List κ}
    (hsorted : l.Pairwise r) (hmem : ∀ c, c ∈ l) {p : κ → Bool} :
    l.find? p = some c ↔ p c = true ∧ ∀ d, p d = true → c = d ∨ r c d := by
  constructor
  · intro h
    obtain ⟨hc, as, bs, rfl, has⟩ := List.find?_eq_some_iff_append.mp h
    refine ⟨hc, fun d hd ↦ ?_⟩
    rcases List.mem_append.mp (hmem d) with hd' | hd'
    · exact absurd (has d hd') (by simp [hd])
    · refine (List.mem_cons.mp hd').imp Eq.symm fun hd' ↦ ?_
      exact (List.pairwise_cons.mp (List.pairwise_append.mp hsorted).2.1).1 d hd'
  · rintro ⟨hc, hleast⟩
    cases hfind : l.find? p with
    | none => exact absurd hc (by simpa using List.find?_eq_none.mp hfind c (hmem c))
    | some d =>
      obtain ⟨hd, as, bs, rfl, has⟩ := List.find?_eq_some_iff_append.mp hfind
      rcases hleast d hd with rfl | hcd
      · rfl
      rcases List.mem_append.mp (hmem c) with hc' | hc'
      · exact absurd (has c hc') (by simp [hc])
      · rcases List.mem_cons.mp hc' with rfl | hc'
        · rfl
        · have hdc := (List.pairwise_cons.mp (List.pairwise_append.mp hsorted).2.1).1 c hc'
          exact absurd hdc (hasymm c d hcd)

theorem largest_eq_some_iff : b.largest = some c ↔ b c ≠ [] ∧ ∀ d, b d ≠ [] → d ≤ c := by
  rw [largest, find?_eq_some_iff_least (r := (· > ·)) (fun _ _ ↦ lt_asymm)
    (List.pairwise_reverse.mpr Enumeration.pairwise_all)
    fun d ↦ List.mem_reverse.mpr (Enumeration.mem_all d)]
  simp only [Bool.not_eq_true', List.isEmpty_eq_false_iff, gt_iff_lt, le_iff_eq_or_lt,
    eq_comm (a := c)]

theorem smallest_eq_some_iff : b.smallest mask = some c ↔
    (mask c = true ∧ b c ≠ []) ∧ ∀ d, mask d = true → b d ≠ [] → c ≤ d := by
  rw [smallest, find?_eq_some_iff_least (r := (· < ·)) (fun _ _ ↦ lt_asymm)
    Enumeration.pairwise_all Enumeration.mem_all]
  simp only [Bool.and_eq_true, Bool.not_eq_true', List.isEmpty_eq_false_iff, le_iff_eq_or_lt,
    and_imp]

/-- A backlog that is not empty has a least urgent class. -/
theorem exists_largest (h : b.entries ≠ []) : ∃ m, b.largest = some m := by
  cases hfind : b.largest with
  | some m => exact ⟨m, rfl⟩
  | none =>
    refine absurd (entries_eq_nil_iff.mpr fun c ↦ ?_) h
    simpa using List.find?_eq_none.mp hfind c (List.mem_reverse.mpr (Enumeration.mem_all c))

/-- No class that is selected is in use. -/
theorem smallest_eq_none_iff :
    b.smallest mask = none ↔ ∀ c, mask c = true → b c = [] := by
  rw [smallest, List.find?_eq_none]
  constructor
  · intro h c hmask
    simpa [hmask] using h c (Enumeration.mem_all c)
  · intro h c _
    cases hmask : mask c with
    | false => simp
    | true => simp [h c hmask]

/-! ## Images -/

omit [LinearOrder κ] [Enumeration κ] in
theorem isEmpty_map (f : κ → α → β) (b : Backlog κ α) (c : κ) :
    ((b.map f) c).isEmpty = (b c).isEmpty := by rw [map, List.isEmpty_map]

theorem length_entries_map (f : κ → α → β) (b : Backlog κ α) :
    (b.map f).entries.length = b.entries.length := by
  rw [entries, entries, List.length_flatMap, List.length_flatMap]
  exact congrArg List.sum (List.map_congr_left fun c _ ↦ List.length_map _)

omit [Enumeration κ] in
theorem map_append (f : κ → α → β) (b : Backlog κ α) (c : κ) (a : α) :
    (b.append c a).map f = (b.map f).append c (f c a) := by
  funext d
  by_cases hd : d = c
  · subst hd
    simp [map, append]
  · simp [map, append, Function.update_of_ne hd]

omit [Enumeration κ] in
theorem map_dropOldest (f : κ → α → β) (b : Backlog κ α) (c : κ) :
    (b.dropOldest c).map f = (b.map f).dropOldest c := by
  funext d
  by_cases hd : d = c
  · subst hd
    simp [map, dropOldest]
  · simp [map, dropOldest, Function.update_of_ne hd]

theorem largest_map (f : κ → α → β) (b : Backlog κ α) : (b.map f).largest = b.largest := by
  simp only [largest, isEmpty_map]

theorem smallest_map (f : κ → α → β) (b : Backlog κ α) (mask : κ → Bool) :
    (b.map f).smallest mask = b.smallest mask := by
  simp only [smallest, isEmpty_map]

theorem makeRoom_map (f : κ → α → β) (b : Backlog κ α) (c : κ) :
    (b.map f).makeRoom capacity c = (b.makeRoom capacity c).map (map f) := by
  rw [makeRoom, makeRoom, length_entries_map, largest_map]
  split
  · rfl
  · cases b.largest with
    | none => rfl
    | some m =>
      simp only [Option.bind_some]
      split
      · rw [Option.map_some, map_dropOldest]
      · rfl

/-- Pushing to the images, if there is room. -/
theorem push_of_some {b' : Backlog κ α} (h : b.makeRoom capacity c = some b') (x : β) :
    (b.map f).push capacity c x = (b'.map f).append c x := by
  rw [push, makeRoom_map, h]
  rfl

theorem push_of_none (h : b.makeRoom capacity c = none) (x : β) :
    (b.map f).push capacity c x = b.map f := by
  rw [push, makeRoom_map, h]
  rfl

theorem pop_of_none (h : b.smallest mask = none) : b.pop mask = (none, b) := by rw [pop, h]

theorem pop_of_cons {rest : List α} (h : b.smallest mask = some c) (hc : b c = a :: rest) :
    b.pop mask = (some (c, a), b.dropOldest c) := by
  rw [pop, h]
  simp only [hc, List.head?_cons, Option.map_some]

omit [Enumeration κ] in
/-- An element that is held after another one was appended. -/
theorem mem_append {d : κ} {x : α} (h : x ∈ b.append c a d) : x = a ∨ x ∈ b d := by
  rw [append] at h
  by_cases hd : d = c
  · subst hd
    rw [Function.update_self, List.mem_append, List.mem_singleton] at h
    exact h.symm
  · rw [Function.update_of_ne hd] at h
    exact .inr h

omit [Enumeration κ] in
theorem mem_of_dropOldest {d : κ} (h : a ∈ b.dropOldest c d) : a ∈ b d := by
  rw [dropOldest] at h
  by_cases hd : d = c
  · subst hd
    rw [Function.update_self] at h
    exact List.mem_of_mem_tail h
  · rwa [Function.update_of_ne hd] at h

/-- What makes room is among what was held. -/
theorem mem_of_makeRoom {b' : Backlog κ α} (h : b.makeRoom capacity c = some b') {d : κ}
    (ha : a ∈ b' d) : a ∈ b d := by
  rw [makeRoom] at h
  split at h
  · exact Option.some.inj h ▸ ha
  · obtain ⟨m, -, h⟩ := Option.bind_eq_some_iff.mp h
    split at h
    · exact mem_of_dropOldest (Option.some.inj h ▸ ha)
    · cases h

/-- An element that is held after another one was pushed. -/
theorem mem_push {d : κ} {x : α} (h : x ∈ b.push capacity c a d) : d = c ∧ x = a ∨ x ∈ b d := by
  rw [push] at h
  cases hroom : b.makeRoom capacity c with
  | none =>
    rw [hroom] at h
    exact .inr h
  | some b' =>
    rw [hroom, Option.elim_some, append] at h
    by_cases hd : d = c
    · subst hd
      rw [Function.update_self, List.mem_append, List.mem_singleton] at h
      exact h.symm.imp (fun hx ↦ ⟨rfl, hx⟩) (mem_of_makeRoom hroom)
    · rw [Function.update_of_ne hd] at h
      exact .inr (mem_of_makeRoom hroom h)

/-- The element that is popped. -/
theorem mem_of_pop_fst (h : (b.pop mask).1 = some (c, a)) : mask c = true ∧ a ∈ b c := by
  rw [pop] at h
  split at h
  · cases h
  · rename_i c' hc
    obtain ⟨a', ha', heq⟩ := Option.map_eq_some_iff.mp h
    cases heq
    exact ⟨(smallest_eq_some_iff.mp hc).1.1, List.mem_of_head? ha'⟩

/-- An element that is held after one was popped. -/
theorem mem_of_pop_snd {d : κ} (h : a ∈ (b.pop mask).2 d) : a ∈ b d := by
  rw [pop] at h
  split at h
  · exact h
  · exact mem_of_dropOldest h

/-! ## One class only -/

section Single

variable {as : List α}

omit [Enumeration κ] in
@[simp] theorem single_self (c : κ) (as : List α) : single c as c = as := Function.update_self ..

omit [Enumeration κ] in
theorem single_of_ne {d : κ} (h : d ≠ c) (as : List α) : single c as d = [] :=
  Function.update_of_ne h ..

omit [Enumeration κ] in
@[simp] theorem single_nil (c : κ) : single c ([] : List α) = fun _ ↦ [] :=
  Function.update_eq_self c fun _ ↦ []

omit [Enumeration κ] in
theorem append_single (c : κ) (as : List α) (a : α) :
    (single c as).append c a = single c (as ++ [a]) := by
  rw [append, single_self, single, Function.update_idem, single]

theorem length_entries_single (c : κ) (as : List α) : (single c as).entries.length = as.length := by
  induction as using List.reverseRecOn with
  | nil => rw [single_nil, entries_empty]
  | append_singleton as a ih =>
    rw [← append_single, (entries_append_perm _ c a).length_eq, List.length_cons, ih,
      List.length_append, List.length_singleton]

/-- There is room for another element. -/
theorem push_single (h : as.length < capacity) (c : κ) (a : α) :
    (single c as).push capacity c a = single c (as ++ [a]) := by
  rw [push, makeRoom, length_entries_single, if_pos h, Option.elim_some, append_single]

theorem pop_single_cons (hmask : mask c = true) (a : α) (as : List α) :
    (single c (a :: as)).pop mask = (some (c, a), single c as) := by
  have hsmallest : (single c (a :: as)).smallest mask = some c := by
    refine smallest_eq_some_iff.mpr ⟨⟨hmask, by simp⟩, fun d _ hd ↦ ?_⟩
    by_cases hdc : d = c
    · exact hdc.ge
    · exact absurd (single_of_ne hdc _) hd
  rw [pop_of_cons hsmallest (single_self c _), dropOldest, single_self, List.tail_cons, single,
    Function.update_idem, single]

theorem pop_single_none (h : mask c = false ∨ as = []) :
    (single c as).pop mask = (none, single c as) := by
  refine pop_of_none (smallest_eq_none_iff.mpr fun d hd ↦ ?_)
  by_cases hdc : d = c
  · subst hdc
    rw [single_self]
    exact h.resolve_left (by simp [hd])
  · exact single_of_ne hdc as

end Single

end Backlog

end Rust
