import Emcyphal.Lib.Machine
import Emcyphal.Registry.Layout
import Mathlib.Data.Finset.Filter

/-!
# The registry and the driver

A driver applies the filter updates it fetches to the set of subjects it holds.  `System` is the
registry together with this set, and its steps are the operations of the registry in any order.  An
address can only be registered while no entry has it, and a token is given up when its entry is
unregistered; this is what `System.Valid` says.

`System.Inv` is what holds in all states that are reached.  The driver may hold the subjects of
entries that are gone, and these are exactly what the marks of `Tree.Marks` are for: the gaps that
are marked by the clean-up queue and `clean_up_last` are those with such a subject in them.

Nothing panics while it holds, and every operation keeps it (`System.step_inv`).
-/

set_option autoImplicit false

namespace Emcyphal

open Rust Tree

/-- What a driver holds after an update. -/
def FilterUpdate.apply (held : Finset SubjectId) : FilterUpdate → Finset SubjectId
  | addSubject subject => insert subject held
  | removeSubjectRange first last => held.filter fun subject ↦ ¬ (first ≤ subject ∧ subject ≤ last)

namespace RxMsg

structure System where
  inner : RegularInner
  held : Finset SubjectId

inductive Op
  | register (address : Address) (subject : SubjectId)
  | unregister (token : Address)
  | poll (waker : Waker)
  | pushStart (subject : SubjectId)
  | pushNext

inductive Event
  | registered (result : Except RegistrationError Address)
  | unregistered
  /-- What is polled, or `none` if the poll is pending. -/
  | polled (result : Option (Except CallAgain FilterUpdate))
  | pushStarted (started : Bool)
  | pushed (entry : Option Address) (more : Bool)

/-- What the driver does with what it has polled. -/
def fetch (held : Finset SubjectId) : Option (Except CallAgain FilterUpdate) → Finset SubjectId
  | some (.ok update) => update.apply held
  | _ => held

namespace System

def new (subjectSlotCount : ℕ) : System := ⟨.new subjectSlotCount, ∅⟩

def step (s : System) : Op → Exec (System × Event)
  | .register address subject =>
    let (result, inner) := s.inner.regRegister address subject
    .ok ({ s with inner := inner }, .registered result)
  | .unregister token => do
    let inner ← s.inner.regUnregister token
    return ({ s with inner := inner }, .unregistered)
  | .poll waker => do
    let (result, inner) ← s.inner.hubPollPopFilterUpdate waker
    return (⟨inner, fetch s.held result⟩, .polled result)
  | .pushStart subject => do
    let (started, inner) ← s.inner.hubPushStart subject
    return ({ s with inner := inner }, .pushStarted started)
  | .pushNext => do
    let (entry, more, inner) ← s.inner.hubPushNext
    return ({ s with inner := inner }, .pushed entry more)

/-- The address of a new entry is free, and a token is that of an entry. -/
def Valid (s : System) : Op → Prop
  | .register address _ => s.inner.entry? address = none
  | .unregister token => (s.inner.entry? token).isSome = true
  | _ => True

instance (s : System) : (op : Op) → Decidable (s.Valid op)
  | .register address _ => inferInstanceAs (Decidable (s.inner.entry? address = none))
  | .unregister token => inferInstanceAs (Decidable ((s.inner.entry? token).isSome = true))
  | .poll _ | .pushStart _ | .pushNext => inferInstanceAs (Decidable True)

end System

namespace RegularInner

/-- All registered entries. -/
def entries (r : RegularInner) : List Entry := r.activeEntryTree ++ r.inactiveEntryTree

/-- The marked gaps: the one before an entry of the clean-up queue, and the last one. -/
def Marked (r : RegularInner) : Option Address → Prop
  | some address => address ∈ r.cleanUpQueue
  | none => r.cleanUpLast = true

end RegularInner

/-- What holds of the registry and the driver in every state. -/
structure System.Inv (s : System) : Prop where
  layout : Layout s.inner.activeEntryTree
  active : ∀ e ∈ s.inner.activeEntryTree, e.isActive = true
  sorted : s.inner.inactiveEntryTree.Pairwise fun x y ↦ x.subject ≤ y.subject
  inactive : ∀ e ∈ s.inner.inactiveEntryTree, e.isActive = false ∧ e.isHead = false
  nodup : (s.inner.entries.map Entry.address).Nodup
  activation : s.inner.activationQueue.Perm (s.inner.inactiveEntryTree.map Entry.address)
  cleanUp : s.inner.cleanUpQueue.Nodup
  nextPush : ∀ address, s.inner.nextPushPtr = some address →
    ∃ e ∈ s.inner.activeEntryTree, e.address = address
  held : ∀ e ∈ s.inner.activeEntryTree, e.subject ∈ s.held
  /-- The driver holds other subjects exactly in the marked gaps. -/
  marks : Marks (slots s.inner.activeEntryTree) s.held s.inner.Marked

/-! ## Addresses -/

theorem map_address_ne {as bs : List Entry} {e : Entry}
    (h : ((as ++ e :: bs).map Entry.address).Nodup) :
    (∀ x ∈ as, x.address ≠ e.address) ∧ ∀ x ∈ bs, x.address ≠ e.address := by
  rw [List.map_append, List.map_cons] at h
  obtain ⟨-, htail, hdisjoint⟩ := List.nodup_append.mp h
  refine ⟨fun x hx ↦ hdisjoint _ (List.mem_map_of_mem hx) _ (by simp), fun x hx heq ↦ ?_⟩
  exact (List.nodup_cons.mp htail).1 (heq ▸ List.mem_map_of_mem hx)

/-- An entry is found by its address. -/
theorem cursorAt_address {as bs : List Entry} {e : Entry}
    (h : ((as ++ e :: bs).map Entry.address).Nodup) :
    cursorAt (fun x ↦ x.address == e.address) (as ++ e :: bs) = some (as, e, bs) :=
  cursorAt_append (fun x hx ↦ by simpa using (map_address_ne h).1 x hx) (by simp)

namespace System.Inv

variable {s : System} {e : Entry} {as bs : List Entry}

theorem nodup_active (h : s.Inv) : (s.inner.activeEntryTree.map Entry.address).Nodup := by
  have hnodup := h.nodup
  rw [RegularInner.entries, List.map_append] at hnodup
  exact (List.nodup_append.mp hnodup).1

theorem nodup_inactive (h : s.Inv) : (s.inner.inactiveEntryTree.map Entry.address).Nodup := by
  have hnodup := h.nodup
  rw [RegularInner.entries, List.map_append] at hnodup
  exact (List.nodup_append.mp hnodup).2.1

theorem nodup_slots (h : s.Inv) : ((slots s.inner.activeEntryTree).map Prod.fst).Nodup :=
  map_fst_slots _ ▸ h.nodup_active

/-- No active entry waits for its activation. -/
theorem not_mem_activation (h : s.Inv) (he : e ∈ s.inner.activeEntryTree) :
    e.address ∉ s.inner.activationQueue := by
  have hnodup := h.nodup
  rw [RegularInner.entries, List.map_append] at hnodup
  rw [h.activation.mem_iff]
  exact fun hmem ↦ (List.nodup_append.mp hnodup).2.2 _ (List.mem_map_of_mem he) _ hmem rfl

theorem isLinked_active (h : s.Inv) (he : e ∈ s.inner.activeEntryTree) :
    s.inner.isLinked e.address = s.inner.cleanUpQueue.contains e.address := by
  have hnot : s.inner.activationQueue.contains e.address = false := by
    simpa using h.not_mem_activation he
  rw [RegularInner.isLinked, hnot, Bool.or_false]

theorem entry?_of_mem (h : s.Inv) (he : e ∈ s.inner.entries) :
    s.inner.entry? e.address = some e := by
  obtain ⟨as, bs, heq⟩ := List.append_of_mem he
  have hnodup := h.nodup
  rw [heq] at hnodup
  rw [RegularInner.entry?, ← RegularInner.entries, heq, List.find?_append,
    List.find?_eq_none.mpr fun x hx ↦ by simpa using (map_address_ne hnodup).1 x hx,
    List.find?_cons_of_pos (by simp)]
  rfl

/-- Only heads are put into the clean-up queue. -/
theorem isHead_of_cleanUp (h : s.Inv) (hA : s.inner.activeEntryTree = as ++ e :: bs)
    (he : e.address ∈ s.inner.cleanUpQueue) : e.isHead = true := by
  obtain ⟨xs, x, ys, heq, hx, hlt⟩ := h.marks.mem_of_some he
  obtain ⟨as', x', bs', hA', rfl, rfl, rfl⟩ :
      ∃ as' x' bs', s.inner.activeEntryTree = as' ++ x' :: bs' ∧ slots as' = xs ∧ x'.slot = x ∧
        slots bs' = ys := by
    obtain ⟨as', rest, hA', rfl, hrest⟩ := List.map_eq_append_iff.mp heq
    obtain ⟨x', bs', rfl, rfl, rfl⟩ := List.map_eq_cons_iff.mp hrest
    exact ⟨as', x', bs', hA', rfl, rfl, rfl⟩
  have hlayout := h.layout
  rw [hA'] at hlayout
  have hnodup := h.nodup_active
  have hsame : e = x' := by
    rw [hA'] at hnodup
    have hmem : e ∈ as' ++ x' :: bs' := hA' ▸ hA ▸ by simp
    exact List.inj_on_of_nodup_map hnodup hmem (by simp) hx.symm
  subst hsame
  by_contra htail
  obtain ⟨y, hy, hsubject⟩ := hlayout.mem_of_tail (by simpa using htail)
  exact absurd (hlt y.slot (List.mem_map_of_mem hy)) (by simp [Entry.slot, hsubject])

end System.Inv

end RxMsg

end Emcyphal
