import Emcyphal.Core
import Emcyphal.Lib.Classes
import Emcyphal.Utils.MultiClassQueue

/-!
# A queue for each priority

`emcyphal/src/utils/priority_queue.rs`.  The entries are nodes of a `MultiClassQueue` with one class
for each priority and one for the free entries; the values are kept apart, by entry, and a
`PrioritySet` caches which queues are not empty.

`Represents` reads off one list of values for each priority.
-/

set_option autoImplicit false

namespace Emcyphal

open Rust

structure PriorityQueue (V : Type) (N : ℕ) where
  entryQueue : MultiClassQueue 9 N
  entryValues : List (Option V)
  prioritySet : PrioritySet

namespace PriorityQueue

def PRIORITY_CLASS : ℕ := 0

def FREE_CLASS : ℕ := PRIORITY_CLASS + Priority.optional.intoU8 + 1

variable {V : Type} {N : ℕ}

def new (V : Type) (N : ℕ) : Exec (PriorityQueue V N) := do
  let queue ← MultiClassQueue.new 9 N
  let queue ← (List.range N).foldlM (fun queue i ↦ do
    let entry ← unwrap (u8TryFrom i)
    queue.moveBack FREE_CLASS entry) queue
  return ⟨queue, List.replicate N none, PrioritySet.NONE⟩

/-- Appends a value; fails if no entry is free. -/
def push (q : PriorityQueue V N) (priority : Priority) (value : V) :
    Exec (Option (PriorityQueue V N)) := do
  match ← q.entryQueue.front FREE_CLASS with
  | none => return none
  | some entry =>
    let entryQueue ← q.entryQueue.moveBack (PRIORITY_CLASS + priority.intoU8) entry
    let entryValues ← assign q.entryValues entry (some value)
    return some ⟨entryQueue, entryValues, q.prioritySet.insert priority⟩

/-- Takes the oldest value of a priority. -/
def pop (q : PriorityQueue V N) (priority : Priority) : Exec (Option V × PriorityQueue V N) := do
  let cls := PRIORITY_CLASS + priority.intoU8
  match ← q.entryQueue.front cls with
  | none => return (none, q)
  | some entry =>
    let entryQueue ← q.entryQueue.moveBack FREE_CLASS entry
    let prioritySet :=
      if ← entryQueue.isEmpty cls then q.prioritySet.remove priority else q.prioritySet
    let value ← index q.entryValues entry
    let entryValues ← assign q.entryValues entry none
    return (value, ⟨entryQueue, entryValues, prioritySet⟩)

def priorities (q : PriorityQueue V N) : PrioritySet := q.prioritySet

def maxPriority (q : PriorityQueue V N) : Option Priority := q.prioritySet.last

/-! ## One list for each priority -/

/-- The class of a priority. -/
def classOf (p : Priority) : Fin 9 := ⟨p.intoU8, by have := p.intoU8_lt; omega⟩

/-- The class of the free entries. -/
def freeClass : Fin 9 := ⟨FREE_CLASS, by decide⟩

/-- The entries of each class, and the values of those in use. -/
structure Holds (q : PriorityQueue V N) (lists : Fin 9 → List (Fin N))
    (values : Priority → List V) :
    Prop where
  queue : q.entryQueue.Represents lists
  cover : ∀ e, ∃ c, e ∈ lists c
  length : q.entryValues.length = N
  stored : ∀ p, List.Forall₂ (fun (e : Fin N) v ↦ q.entryValues[e.val]? = some (some v))
    (lists (classOf p)) (values p)
  ready : ∀ p, q.prioritySet.contains p = true ↔ values p ≠ []

/-- What a queue holds. -/
def Represents (q : PriorityQueue V N) (values : Priority → List V) : Prop :=
  ∃ lists, Holds q lists values

theorem classOf_injective : Function.Injective classOf := by
  intro p p' h
  exact Priority.intoU8_injective (congrArg Fin.val h)

theorem classOf_ne_freeClass (p : Priority) : classOf p ≠ freeClass := by
  cases p <;> decide

theorem classes_eq : List.finRange 9 = Priority.all.map classOf ++ [freeClass] := by decide

variable {q : PriorityQueue V N} {lists : Fin 9 → List (Fin N)} {values : Priority → List V}

/-- Every entry is either in use or free. -/
theorem Holds.length_add_free (h : Holds q lists values) :
    (Priority.all.flatMap values).length + (lists freeClass).length = N := by
  obtain ⟨hnodup, hdisjoint⟩ := h.queue.links
  have hperm : ((List.finRange 9).flatMap lists).Perm (List.finRange N) := by
    refine (List.perm_ext_iff_of_nodup (List.nodup_flatMap.mpr ⟨fun c _ ↦ hnodup c, ?_⟩)
      (List.nodup_finRange N)).mpr fun e ↦ ?_
    · refine (List.nodup_finRange 9).imp fun hne e he he' ↦ hne (hdisjoint _ _ e he he')
    · simp only [List.mem_flatMap, List.mem_finRange, true_and, iff_true]
      exact h.cover e
  have hlen := hperm.length_eq
  rw [classes_eq, List.flatMap_append, List.flatMap_map, List.length_append,
    List.length_finRange] at hlen
  have hsame : (Priority.all.flatMap fun p ↦ lists (classOf p)).length =
      (Priority.all.flatMap values).length := by
    rw [List.length_flatMap, List.length_flatMap]
    congr 1
    exact List.map_congr_left fun p _ ↦ (h.stored p).length_eq
  rw [hsame] at hlen
  simpa using hlen

theorem new_represents (h : 9 + N ≤ 256) :
    ∃ q : PriorityQueue V N, new V N = .ok q ∧ Represents q fun _ ↦ [] := by
  obtain ⟨queue, hnew, hqueue⟩ := MultiClassQueue.new_represents h
  obtain ⟨queue', hfill, hqueue'⟩ := MultiClassQueue.fill_represents hqueue (by omega) freeClass
  refine ⟨⟨queue', List.replicate N none, .NONE⟩, ?_, _, hqueue', fun e ↦ ⟨freeClass, by simp⟩,
    List.length_replicate, fun p ↦ ?_, by simp⟩
  · rw [new, hnew, ok_bind, show FREE_CLASS = freeClass.val from rfl, hfill, ok_bind, pure_eq_ok]
  · rw [Function.update_of_ne (classOf_ne_freeClass p)]
    exact .nil

/-- Overwriting the value of an entry that is not in the list. -/
theorem forall₂_set {entryValues : List (Option V)} {l : List (Fin N)} {vs : List V} {e : Fin N}
    (h : List.Forall₂ (fun (e : Fin N) v ↦ entryValues[e.val]? = some (some v)) l vs) (he : e ∉ l)
    (o : Option V) :
    List.Forall₂ (fun (x : Fin N) v ↦ (entryValues.set e o)[x.val]? = some (some v)) l vs := by
  induction h with
  | nil => exact .nil
  | @cons e' v l vs hv _ ih =>
    obtain ⟨hne, he⟩ := not_or.mp (mt List.mem_cons.mpr he)
    refine .cons ?_ (ih he)
    rwa [List.getElem?_set_ne fun heq ↦ hne (Fin.ext heq)]

/-- A value is appended as long as there is room. -/
theorem push_represents (h : Represents q values) (hroom : (Priority.all.flatMap values).length < N)
    (p : Priority) (v : V) : ∃ q', q.push p v = .ok (some q') ∧
      Represents q' (Function.update values p (values p ++ [v])) := by
  obtain ⟨lists, h⟩ := h
  have hfree := h.length_add_free
  obtain ⟨e, rest, hlist⟩ := List.exists_cons_of_length_pos
    (show 0 < (lists freeClass).length by omega)
  have hmem : e ∈ lists freeClass := hlist ▸ List.mem_cons_self
  have hfront := MultiClassQueue.front_eq h.queue freeClass
  rw [hlist, List.head?_cons, Option.map_some] at hfront
  obtain ⟨q', hmove, hq'⟩ := MultiClassQueue.moveBack_represents h.queue (classOf p) e
  have hother : ∀ p', e ∉ lists (classOf p') := fun p' hp' ↦
    classOf_ne_freeClass p' (h.queue.links.2 _ _ e hp' hmem)
  have hlen : e.val < q.entryValues.length := h.length.symm ▸ e.isLt
  have hcls : PRIORITY_CLASS + p.intoU8 = (classOf p).val := Nat.zero_add _
  refine ⟨⟨q', q.entryValues.set e (some v), q.prioritySet.insert p⟩, ?_, _, hq', fun e' ↦ ?_, ?_,
    fun p' ↦ ?_, fun p' ↦ ?_⟩
  · rw [push, show FREE_CLASS = freeClass.val from rfl, hfront, ok_bind]
    simp only [hcls, hmove, ok_bind, assign_of_lt hlen, pure_eq_ok]
  · by_cases he : e' = e
    · exact ⟨classOf p, by rw [Function.update_self, he]; simp⟩
    · obtain ⟨c, hc⟩ := h.cover e'
      have hc' : e' ∈ MultiClassQueue.erase lists e c :=
        (List.mem_erase_of_ne he).mpr hc
      refine ⟨c, ?_⟩
      by_cases hcp : c = classOf p
      · subst hcp
        rw [Function.update_self]
        exact List.mem_append_left _ hc'
      · rwa [Function.update_of_ne hcp]
  · rw [List.length_set, h.length]
  · by_cases hp : p' = p
    · subst hp
      rw [Function.update_self, Function.update_self, h.queue.erase_of_ne hmem
        (classOf_ne_freeClass p')]
      refine List.rel_append (forall₂_set (h.stored p') (hother p') _) (.cons ?_ .nil)
      rw [List.getElem?_set_self hlen]
    · rw [Function.update_of_ne hp, Function.update_of_ne fun hc ↦ hp (classOf_injective hc),
        h.queue.erase_of_ne hmem (classOf_ne_freeClass p')]
      exact forall₂_set (h.stored p') (hother p') _
  · simp only [PrioritySet.contains_insert, Bool.or_eq_true, decide_eq_true_eq, h.ready]
    by_cases hp : p' = p
    · subst hp
      simp
    · simp [Function.update_of_ne hp, Ne.symm hp]

/-- The oldest value of a priority is taken. -/
theorem pop_represents (h : Represents q values) {p : Priority} {v : V} {rest : List V}
    (hv : values p = v :: rest) : ∃ q', q.pop p = .ok (some v, q') ∧
      Represents q' (Function.update values p rest) := by
  obtain ⟨lists, h⟩ := h
  obtain ⟨e, erest, hev, hrest, hlist⟩ := List.forall₂_cons_right_iff.mp (hv ▸ h.stored p)
  have hmem : e ∈ lists (classOf p) := hlist ▸ List.mem_cons_self
  have hfront := MultiClassQueue.front_eq h.queue (classOf p)
  rw [hlist, List.head?_cons, Option.map_some] at hfront
  obtain ⟨q', hmove, hq'⟩ := MultiClassQueue.moveBack_represents h.queue freeClass e
  have hlen : e.val < q.entryValues.length := h.length.symm ▸ e.isLt
  have hcls : PRIORITY_CLASS + p.intoU8 = (classOf p).val := Nat.zero_add _
  have hempty := MultiClassQueue.isEmpty_eq hq' (classOf p)
  rw [Function.update_of_ne (classOf_ne_freeClass p), MultiClassQueue.erase_of_eq_cons hlist]
    at hempty
  have herest : e ∉ erest := by
    have hnodup := h.queue.links.1 (classOf p)
    rw [hlist] at hnodup
    exact (List.nodup_cons.mp hnodup).1
  refine ⟨⟨q', q.entryValues.set e none,
    if erest.isEmpty then q.prioritySet.remove p else q.prioritySet⟩, ?_, _, hq', fun e' ↦ ?_, ?_,
    fun p' ↦ ?_, fun p' ↦ ?_⟩
  · rw [pop]
    simp only [hcls]
    rw [hfront, ok_bind]
    simp only [show FREE_CLASS = freeClass.val from rfl, hmove, ok_bind, hempty,
      index_of_getElem? hev, assign_of_lt hlen, pure_eq_ok]
  · by_cases he : e' = e
    · exact ⟨freeClass, by rw [Function.update_self, he]; simp⟩
    · obtain ⟨c, hc⟩ := h.cover e'
      have hc' : e' ∈ MultiClassQueue.erase lists e c :=
        (List.mem_erase_of_ne he).mpr hc
      refine ⟨c, ?_⟩
      by_cases hcp : c = freeClass
      · subst hcp
        rw [Function.update_self]
        exact List.mem_append_left _ hc'
      · rwa [Function.update_of_ne hcp]
  · rw [List.length_set, h.length]
  · rw [Function.update_of_ne (classOf_ne_freeClass p')]
    by_cases hp : p' = p
    · subst hp
      rw [Function.update_self, MultiClassQueue.erase_of_eq_cons hlist]
      exact forall₂_set hrest herest _
    · have hne : classOf p' ≠ classOf p := fun hc ↦ hp (classOf_injective hc)
      rw [Function.update_of_ne hp, h.queue.erase_of_ne hmem hne]
      exact forall₂_set (h.stored p') (fun he ↦ hne (h.queue.links.2 _ _ e he hmem)) _
  · have hnil : erest = [] ↔ rest = [] := by
      rw [← List.length_eq_zero_iff, hrest.length_eq, List.length_eq_zero_iff]
    by_cases hp : p' = p
    · subst hp
      rw [Function.update_self]
      cases erest with
      | nil => simp [hnil.mp rfl]
      | cons e' erest =>
        simp [(h.ready p').mpr (by rw [hv]; simp), mt hnil.mpr (List.cons_ne_nil _ _)]
    · rw [Function.update_of_ne hp, ← h.ready]
      split_ifs
      · simp [Ne.symm hp]
      · rfl

end PriorityQueue

end Emcyphal
