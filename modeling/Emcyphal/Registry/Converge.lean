import Emcyphal.Registry.Steps

/-!
# The registry and the driver converge

Every operation keeps the invariant of the registry and the driver.  What matters is the set of
subjects that the driver holds although no active entry has them: `Marks.remove` moves it with the
marks when an entry is unregistered, and `Marks.clear` empties a gap when its filter update is
fetched.  An entry is only activated when no gap is marked, so that its subject is new to the
driver.
-/

set_option autoImplicit false

namespace Emcyphal.RxMsg

open Rust Tree RegularInner

variable {s : System} {as bs : List Entry} {e : Entry}

theorem nodup_remove (h : ((as ++ e :: bs).map Entry.address).Nodup) :
    ((as ++ bs).map Entry.address).Nodup := by
  have hperm := (List.perm_middle.map Entry.address : ((as ++ e :: bs).map _).Perm _)
  exact (List.nodup_cons.mp (hperm.nodup_iff.mp h)).2

theorem nodup_insert (h : ((as ++ bs).map Entry.address).Nodup)
    (hnew : ∀ x ∈ as ++ bs, x.address ≠ e.address) :
    ((as ++ e :: bs).map Entry.address).Nodup := by
  have hperm := (List.perm_middle.map Entry.address : ((as ++ e :: bs).map _).Perm _)
  refine hperm.nodup_iff.mpr (List.nodup_cons.mpr ⟨fun hmem ↦ ?_, h⟩)
  obtain ⟨x, hx, heq⟩ := List.mem_map.mp hmem
  exact hnew x hx heq

theorem sorted_insert (h : (as ++ bs).Pairwise fun x y ↦ x.subject ≤ y.subject)
    (hle : ∀ x ∈ as, x.subject ≤ e.subject) (hlt : ∀ x ∈ bs, e.subject < x.subject) :
    (as ++ e :: bs).Pairwise fun x y ↦ x.subject ≤ y.subject := by
  obtain ⟨has, hbs, hall⟩ := List.pairwise_append.mp h
  refine List.pairwise_append.mpr ⟨has, List.pairwise_cons.mpr ⟨fun x hx ↦ (hlt x hx).le, hbs⟩, ?_⟩
  intro x hx y hy
  rcases List.mem_cons.mp hy with rfl | hy
  · exact hle x hx
  · exact hall x hx y hy

theorem sorted_remove (h : (as ++ e :: bs).Pairwise fun x y ↦ x.subject ≤ y.subject) :
    (as ++ bs).Pairwise fun x y ↦ x.subject ≤ y.subject :=
  h.sublist ((List.Sublist.refl as).append (List.sublist_cons_self e bs))

namespace System.Inv

theorem new (subjectSlotCount : ℕ) : (System.new subjectSlotCount).Inv where
  layout := layout_nil
  active := by simp [System.new, RegularInner.new]
  sorted := .nil
  inactive := by simp [System.new, RegularInner.new]
  nodup := .nil
  activation := .nil
  cleanUp := .nil
  nextPush := by simp [System.new, RegularInner.new]
  held := by simp [System.new, RegularInner.new]
  marks := marks_of_mem_keys (by simp [System.new]) fun m ↦ by
    cases m <;> simp [System.new, RegularInner.new, Marked]

/-! ## Registration -/

/-- An entry is put into the activation queue. -/
theorem enqueue (h : s.Inv) {address : Address} {subject : SubjectId}
    (hnew : ∀ x ∈ s.inner.entries, x.address ≠ address) (hI : s.inner.inactiveEntryTree = as ++ bs)
    (hle : ∀ x ∈ as, x.subject ≤ subject) (hlt : ∀ x ∈ bs, subject < x.subject)
    (freeSlotCount : ℕ) (waker : Option Waker) :
    System.Inv ⟨{ s.inner with
      inactiveEntryTree := as ++ ⟨address, subject, false, false⟩ :: bs
      activationQueue := s.inner.activationQueue ++ [address]
      freeSlotCount := freeSlotCount
      filterUpdateWaker := waker }, s.held⟩ where
  layout := h.layout
  active := h.active
  sorted := sorted_insert (hI ▸ h.sorted) hle hlt
  inactive x hx := by
    have hmem : x ∈ as ∨ x = ⟨address, subject, false, false⟩ ∨ x ∈ bs := by simpa using hx
    rcases hmem with hx | rfl | hx
    · exact h.inactive x (hI ▸ List.mem_append_left _ hx)
    · exact ⟨rfl, rfl⟩
    · exact h.inactive x (hI ▸ List.mem_append_right _ hx)
  nodup := by
    have hnodup := h.nodup
    rw [entries] at hnodup hnew ⊢
    rw [hI, ← List.append_assoc] at hnodup hnew
    dsimp only
    rw [← List.append_assoc]
    exact nodup_insert hnodup hnew
  activation := by
    have hQ := h.activation
    rw [hI, List.map_append] at hQ
    rw [List.map_append, List.map_cons]
    exact (List.perm_append_singleton address _).trans
      ((hQ.cons address).trans List.perm_middle.symm)
  cleanUp := h.cleanUp
  nextPush := h.nextPush
  held := h.held
  marks := h.marks

/-- An active entry that is not a head is inserted. -/
theorem insert_tail (h : s.Inv) {address : Address} {subject : SubjectId}
    (hnew : ∀ x ∈ s.inner.entries, x.address ≠ address) (hA : s.inner.activeEntryTree = as ++ bs)
    (hmem : ∃ x ∈ as, x.subject = subject) (hle : ∀ x ∈ as, x.subject ≤ subject)
    (hlt : ∀ x ∈ bs, subject < x.subject) :
    System.Inv ⟨{ s.inner with
      activeEntryTree := as ++ ⟨address, subject, true, false⟩ :: bs }, s.held⟩ where
  layout := by
    refine (hA ▸ h.layout : Layout (as ++ bs)).insert hle hlt ?_
    obtain ⟨x, hx, heq⟩ := hmem
    simp only [Bool.false_eq_true, false_iff]
    exact fun hall ↦ hall x hx heq
  active x hx := by
    have hmem : x ∈ as ∨ x = ⟨address, subject, true, false⟩ ∨ x ∈ bs := by simpa using hx
    rcases hmem with hx | rfl | hx
    · exact h.active x (hA ▸ List.mem_append_left _ hx)
    · rfl
    · exact h.active x (hA ▸ List.mem_append_right _ hx)
  sorted := h.sorted
  inactive := h.inactive
  nodup := by
    have hnodup := h.nodup
    rw [entries] at hnodup hnew ⊢
    rw [hA, List.append_assoc] at hnodup hnew
    dsimp only
    rw [List.append_assoc, List.cons_append]
    exact nodup_insert hnodup hnew
  activation := h.activation
  cleanUp := h.cleanUp
  nextPush a ha := by
    obtain ⟨x, hx, heq⟩ := h.nextPush a ha
    rw [hA] at hx
    exact ⟨x, by simpa using (List.mem_append.mp hx).imp_right .inr, heq⟩
  held x hx := by
    have hmem' : x ∈ as ∨ x = ⟨address, subject, true, false⟩ ∨ x ∈ bs := by simpa using hx
    rcases hmem' with hx | rfl | hx
    · exact h.held x (hA ▸ List.mem_append_left _ hx)
    · obtain ⟨y, hy, rfl⟩ := hmem
      exact h.held y (hA ▸ List.mem_append_left _ hy)
    · exact h.held x (hA ▸ List.mem_append_right _ hx)
  marks := by
    have hmarks := h.marks
    rw [hA, slots_append] at hmarks
    rw [slots_append, slots_cons]
    refine hmarks.insert ?_
    obtain ⟨x, hx, heq⟩ := hmem
    exact ⟨x.slot, List.mem_map_of_mem hx, heq⟩

theorem of_registers (h : s.Inv) {address : Address} {subject : SubjectId}
    (hnew : ∀ x ∈ s.inner.entries, x.address ≠ address)
    {result : Except RegistrationError Address} {r : RegularInner}
    (hr : Registers s.inner address subject result r) : System.Inv ⟨r, s.held⟩ := by
  cases hr with
  | enqueued hI _ hle hlt => exact h.enqueue hnew hI hle hlt _ _
  | active _ hA hmem hle hlt => exact h.insert_tail hnew hA hmem hle hlt
  | full => exact h
  | fresh _ _ hI hle hlt => exact h.enqueue hnew hI hle hlt _ _

/-! ## Unregistration -/

/-- A delivery never goes on with an entry that is gone. -/
theorem mem_of_skipPush (h : s.Inv) (hA : s.inner.activeEntryTree = as ++ e :: bs) {a : Address}
    (ha : s.inner.skipPush e.address bs = some a) : a ∈ (as ++ bs).map Entry.address := by
  rw [skipPush] at ha
  split at ha
  · obtain ⟨x, hx, rfl⟩ := Option.map_eq_some_iff.mp ha
    have hmem : x ∈ bs := List.mem_of_mem_head? (Option.filter_eq_some_iff.mp hx).1
    exact List.mem_map_of_mem (List.mem_append_right _ hmem)
  · rename_i hne
    obtain ⟨x, hx, rfl⟩ := h.nextPush a ha
    rw [hA] at hx
    have hmem : x ∈ as ∨ x = e ∨ x ∈ bs := by simpa using hx
    rcases hmem with hx | rfl | hx
    · exact List.mem_map_of_mem (List.mem_append_left _ hx)
    · exact absurd ha hne
    · exact List.mem_map_of_mem (List.mem_append_right _ hx)

theorem nodup_remove_active (h : s.Inv) (hA : s.inner.activeEntryTree = as ++ e :: bs) :
    ((as ++ bs ++ s.inner.inactiveEntryTree).map Entry.address).Nodup := by
  have hnodup := h.nodup
  rw [entries, hA, List.append_assoc, List.cons_append] at hnodup
  rw [List.append_assoc]
  exact nodup_remove hnodup

/-- The marks after an active entry is removed. -/
theorem marks_remove (h : s.Inv) (hA : s.inner.activeEntryTree = as ++ e :: bs) :
    Marks (slots (as ++ bs)) s.held fun m ↦ m ≠ some e.address ∧ s.inner.Marked m ∨
      m = bs.head?.map Entry.address ∧
        (s.inner.Marked (some e.address) ∨ ∀ x ∈ as ++ bs, x.subject ≠ e.subject) := by
  have hmarks := h.marks
  have hsorted := h.layout.sorted_slots
  have hnodup := h.nodup_slots
  rw [hA, slots_append, slots_cons] at hmarks hsorted hnodup
  have hremove := hmarks.remove hnodup hsorted (h.held e (hA ▸ by simp))
  rw [← slots_append] at hremove
  refine hremove.congr fun m ↦ ?_
  rw [head?_slots, show e.slot.2 = e.subject from rfl, mem_keys_slots]
  push Not
  rfl

theorem follows_next (h : s.Inv) (hA : s.inner.activeEntryTree = as ++ e :: bs) :
    ∀ n ∈ bs.head?, Follows e n := by
  have hfollows := h.layout.follows
  rw [hA] at hfollows
  exact (List.isChain_cons.mp (List.isChain_append.mp hfollows).2.1).1

/-- A head is the last active entry of its subject if the next entry is a head. -/
theorem head_gone_iff (h : s.Inv) (hA : s.inner.activeEntryTree = as ++ e :: bs)
    (hhead : e.isHead = true) :
    (∀ x ∈ as ++ bs, x.subject ≠ e.subject) ↔ ∀ n ∈ bs.head?, n.isHead = true := by
  have hlayout := h.layout
  rw [hA] at hlayout
  have hlt := hlayout.lt_of_head hhead
  have hnext := h.follows_next hA
  constructor
  · intro hgone n hn
    rcases hnext n hn with ⟨-, hn'⟩ | ⟨heq, -⟩
    · exact hn'
    · exact absurd heq.symm (hgone n (List.mem_append_right _ (List.mem_of_mem_head? hn)))
  · intro hall x hx
    rcases List.mem_append.mp hx with hx | hx
    · exact (hlt x hx).ne
    · cases bs with
      | nil => cases hx
      | cons n rest =>
        have hn : e.subject < n.subject := by
          rcases hnext n rfl with ⟨hlt, -⟩ | ⟨-, htail⟩
          · exact hlt
          · rw [hall n rfl] at htail
            cases htail
        have hsorted := (List.pairwise_append.mp hlayout.sorted).2.1
        have hle : n.subject ≤ x.subject := by
          rcases List.mem_cons.mp hx with rfl | hx
          · exact le_rfl
          · exact (List.pairwise_cons.mp (List.pairwise_cons.mp hsorted).2).1 x hx
        exact (hn.trans_le hle).ne'

/-- The gaps that are marked after a head is removed. -/
theorem marked_headRemoved (h : s.Inv) (hA : s.inner.activeEntryTree = as ++ e :: bs)
    (hhead : e.isHead = true) (m : Option Address) :
    (s.inner.headRemoved as e bs).Marked m ↔ m ≠ some e.address ∧ s.inner.Marked m ∨
      m = bs.head?.map Entry.address ∧
        (s.inner.Marked (some e.address) ∨ ∀ x ∈ as ++ bs, x.subject ≠ e.subject) := by
  have hgone := h.head_gone_iff hA hhead
  have herase : ∀ a, a ∈ s.inner.cleanUpQueue.erase e.address ↔
      a ≠ e.address ∧ a ∈ s.inner.cleanUpQueue := fun a ↦ h.cleanUp.mem_erase_iff
  rw [hgone]
  cases bs with
  | nil =>
    cases m with
    | none => simp [headRemoved, Marked]
    | some a => simp [headRemoved, Marked, credits, herase]
  | cons n rest =>
    have hne : n.address ≠ e.address := by
      have hnodup := h.nodup_active
      rw [hA] at hnodup
      exact (map_address_ne hnodup).2 n (by simp)
    cases m with
    | none => simp [headRemoved, Marked]
    | some a =>
      have hcredits : s.inner.credits e (n :: rest) = true ↔
          (e.address ∈ s.inner.cleanUpQueue ∨ n.isHead = true) ∧
            n.address ∉ s.inner.cleanUpQueue := by
        simp [credits]
      have hmem : a ∈ (s.inner.headRemoved as e (n :: rest)).cleanUpQueue ↔
          (a ≠ e.address ∧ a ∈ s.inner.cleanUpQueue) ∨
            s.inner.credits e (n :: rest) = true ∧ a = n.address := by
        dsimp only [headRemoved]
        rw [List.mem_append, herase]
        cases s.inner.credits e (n :: rest) <;> simp
      simp only [Marked, hmem, hcredits, List.head?_cons, Option.map_some, Option.some.injEq, ne_eq,
        Option.mem_def, forall_eq']
      constructor
      · rintro (hold | ⟨⟨hmark, -⟩, rfl⟩)
        · exact .inl hold
        · exact .inr ⟨rfl, hmark⟩
      · rintro (hold | ⟨rfl, hmark⟩)
        · exact .inl hold
        · -- The next entry may be in the clean-up queue already.
          by_cases hn : n.address ∈ s.inner.cleanUpQueue
          · exact .inl ⟨hne, hn⟩
          · exact .inr ⟨⟨hmark, hn⟩, rfl⟩

theorem map_address_promote (bs : List Entry) :
    (promote bs).map Entry.address = bs.map Entry.address := by
  cases bs <;> rfl

theorem mem_promote {x : Entry} (hx : x ∈ promote bs) :
    ∃ y ∈ bs, x.isActive = y.isActive ∧ x.subject = y.subject := by
  cases bs with
  | nil => cases hx
  | cons n rest =>
    rcases List.mem_cons.mp hx with rfl | hx
    · exact ⟨n, by simp, rfl, rfl⟩
    · exact ⟨x, by simp [hx], rfl, rfl⟩

theorem remove_head (h : s.Inv) (hA : s.inner.activeEntryTree = as ++ e :: bs)
    (hhead : e.isHead = true) : System.Inv ⟨s.inner.headRemoved as e bs, s.held⟩ where
  layout := (hA ▸ h.layout : Layout (as ++ e :: bs)).remove_head hhead
  active x hx := by
    rcases List.mem_append.mp hx with hx | hx
    · exact h.active x (hA ▸ List.mem_append_left _ hx)
    · obtain ⟨y, hy, heq, -⟩ := mem_promote hx
      rw [heq]
      exact h.active y (hA ▸ by simp [hy])
  sorted := h.sorted
  inactive := h.inactive
  nodup := by
    have hnodup := h.nodup_remove_active hA
    rw [List.map_append, List.map_append] at hnodup
    rw [entries, headRemoved]
    dsimp only
    rwa [List.map_append, List.map_append, map_address_promote]
  activation := h.activation
  cleanUp := by
    have herase := h.cleanUp.erase e.address
    rw [headRemoved]
    dsimp only
    split
    · rename_i hcredits
      cases bs with
      | nil => simpa using herase
      | cons n rest =>
        have hn : n.address ∉ s.inner.cleanUpQueue := by
          rw [credits, Bool.and_eq_true] at hcredits
          simpa using hcredits.2
        refine List.nodup_append.mpr ⟨herase, by simp, ?_⟩
        rintro a ha b hb rfl
        obtain rfl : a = n.address := by simpa using hb
        exact hn (List.mem_of_mem_erase ha)
    · simpa using herase
  nextPush a ha := by
    have hmem := h.mem_of_skipPush hA ha
    rw [List.map_append, ← map_address_promote bs, ← List.map_append] at hmem
    exact List.mem_map.mp hmem
  held x hx := by
    rcases List.mem_append.mp hx with hx | hx
    · exact h.held x (hA ▸ List.mem_append_left _ hx)
    · obtain ⟨y, hy, -, heq⟩ := mem_promote hx
      rw [heq]
      exact h.held y (hA ▸ by simp [hy])
  marks := by
    have hmarks := (h.marks_remove hA).congr (h.marked_headRemoved hA hhead)
    rw [slots_append, ← slots_promote bs, ← slots_append] at hmarks
    exact hmarks

theorem remove_tail (h : s.Inv) (hA : s.inner.activeEntryTree = as ++ e :: bs)
    (htail : e.isHead = false) : System.Inv ⟨{ s.inner with
      activeEntryTree := as ++ bs
      nextPushPtr := s.inner.skipPush e.address bs }, s.held⟩ where
  layout := (hA ▸ h.layout : Layout (as ++ e :: bs)).remove_tail htail
  active x hx := h.active x (hA ▸ by simpa using (List.mem_append.mp hx).imp_right .inr)
  sorted := h.sorted
  inactive := h.inactive
  nodup := h.nodup_remove_active hA
  activation := h.activation
  cleanUp := h.cleanUp
  nextPush a ha := List.mem_map.mp (h.mem_of_skipPush hA ha)
  held x hx := h.held x (hA ▸ by simpa using (List.mem_append.mp hx).imp_right .inr)
  marks := by
    -- The gap before the entry is not marked, and its subject stays.
    have hunmarked : ¬ s.inner.Marked (some e.address) := by
      intro hmarked
      have hhead := h.isHead_of_cleanUp hA hmarked
      rw [htail] at hhead
      cases hhead
    obtain ⟨x, hx, heq⟩ := (hA ▸ h.layout : Layout (as ++ e :: bs)).mem_of_tail htail
    refine (h.marks_remove hA).congr fun m ↦ ?_
    constructor
    · intro hm
      refine .inl ⟨?_, hm⟩
      rintro rfl
      exact hunmarked hm
    · rintro (⟨-, hm⟩ | ⟨-, hm | hgone⟩)
      · exact hm
      · exact absurd hm hunmarked
      · exact absurd heq (hgone x (List.mem_append_left _ hx))

theorem remove_inactive (h : s.Inv) (hI : s.inner.inactiveEntryTree = as ++ e :: bs)
    {queueBefore queueAfter : List Address}
    (hQ : s.inner.activationQueue = queueBefore ++ e.address :: queueAfter) :
    System.Inv ⟨{ s.inner with
      inactiveEntryTree := as ++ bs
      activationQueue := queueBefore ++ queueAfter }, s.held⟩ where
  layout := h.layout
  active := h.active
  sorted := sorted_remove (hI ▸ h.sorted)
  inactive x hx := h.inactive x (hI ▸ by simpa using (List.mem_append.mp hx).imp_right .inr)
  nodup := by
    have hnodup := h.nodup
    rw [entries, hI, ← List.append_assoc] at hnodup
    rw [entries]
    dsimp only
    rw [← List.append_assoc]
    exact nodup_remove hnodup
  activation := by
    have hperm := h.activation
    rw [hI, hQ, List.map_append, List.map_cons] at hperm
    rw [List.map_append]
    exact (List.perm_cons _).mp ((List.perm_middle.symm.trans hperm).trans List.perm_middle)
  cleanUp := h.cleanUp
  nextPush := h.nextPush
  held := h.held
  marks := h.marks

theorem of_unregisters (h : s.Inv) {r : RegularInner} (hr : Unregisters s.inner e r) :
    System.Inv ⟨r, s.held⟩ := by
  cases hr with
  | head hA hhead => exact h.remove_head hA hhead
  | tail hA htail => exact h.remove_tail hA htail
  | inactive hI hQ => exact h.remove_inactive hI hQ

/-! ## Filter updates -/

/-- A marked gap is cleaned up. -/
theorem clear (h : s.Inv) {r : RegularInner} {held : Finset SubjectId} {m : Option Address}
    (hA : r.activeEntryTree = s.inner.activeEntryTree)
    (hI : r.inactiveEntryTree = s.inner.inactiveEntryTree)
    (hQ : r.activationQueue = s.inner.activationQueue)
    (hnext : r.nextPushPtr = s.inner.nextPushPtr) (hcleanUp : r.cleanUpQueue.Nodup)
    (hmarked : ∀ m', r.Marked m' ↔ m' ≠ m ∧ s.inner.Marked m')
    (hheld : ∀ d, d ∈ held ↔ d ∈ s.held ∧
      ¬ (d ∉ keys (slots s.inner.activeEntryTree) ∧
        rightOf (slots s.inner.activeEntryTree) d = m)) :
    System.Inv ⟨r, held⟩ where
  layout := hA ▸ h.layout
  active := hA ▸ h.active
  sorted := hI ▸ h.sorted
  inactive := hI ▸ h.inactive
  nodup := by
    rw [entries, hA, hI]
    exact h.nodup
  activation := by
    dsimp only
    rw [hQ, hI]
    exact h.activation
  cleanUp := hcleanUp
  nextPush a ha := hA ▸ h.nextPush a (hnext ▸ ha)
  held x hx := by
    have hx : x ∈ s.inner.activeEntryTree := hA ▸ hx
    exact (hheld _).mpr ⟨h.held x hx, fun hgone ↦ hgone.1 (mem_keys_slots.mpr ⟨x, hx, rfl⟩)⟩
  marks := by
    have hclear := (h.marks.clear m).congr hmarked
    have hset : (held : Set SubjectId) = {d ∈ (s.held : Set SubjectId) |
        ¬ (d ∉ keys (slots s.inner.activeEntryTree) ∧
          rightOf (slots s.inner.activeEntryTree) d = m)} := Set.ext hheld
    dsimp only
    rwa [hA, hset]

/-- No gap is marked when the driver holds active subjects only. -/
theorem held_iff (h : s.Inv) (hC : s.inner.cleanUpQueue = []) (hlast : s.inner.cleanUpLast = false)
    (d : SubjectId) : d ∈ s.held ↔ ∃ x ∈ s.inner.activeEntryTree, x.subject = d := by
  have hunmarked : ∀ m, ¬ s.inner.Marked m := by
    intro m
    cases m with
    | none => simp [Marked, hlast]
    | some a => simp [Marked, hC]
  constructor
  · exact fun hd ↦ mem_keys_slots.mp (h.marks.mem_keys hunmarked hd)
  · rintro ⟨x, hx, rfl⟩
    exact h.held x hx

theorem activate (h : s.Inv) {xs ys : List Entry} {rest : List Address}
    (hC : s.inner.cleanUpQueue = []) (hlast : s.inner.cleanUpLast = false)
    (hQ : s.inner.activationQueue = e.address :: rest)
    (hI : s.inner.inactiveEntryTree = xs ++ e :: ys) (hA : s.inner.activeEntryTree = as ++ bs)
    (hle : ∀ x ∈ as, x.subject ≤ e.subject) (hlt : ∀ x ∈ bs, e.subject < x.subject)
    {isHead : Bool} (hhead : isHead = true ↔ ∀ x ∈ as, x.subject ≠ e.subject) :
    System.Inv ⟨{ s.inner with
        inactiveEntryTree := xs ++ ys
        activeEntryTree := as ++ { e with isActive := true, isHead := isHead } :: bs
        activationQueue := rest },
      fetch s.held (some (if isHead then .ok (.addSubject e.subject) else .error .callAgain))⟩ := by
  set e' : Entry := { e with isActive := true, isHead := isHead } with he'
  have hactive : ∀ x, x ∈ as ++ e' :: bs ↔ x = e' ∨ x ∈ s.inner.activeEntryTree := by
    intro x
    rw [hA]
    simp only [List.mem_append, List.mem_cons]
    tauto
  have hheld : ∀ d, d ∈ fetch s.held
      (some (if isHead then .ok (.addSubject e.subject) else .error .callAgain)) ↔
        ∃ x ∈ as ++ e' :: bs, x.subject = d := by
    intro d
    have hmem : (∃ x ∈ as ++ e' :: bs, x.subject = d) ↔ d = e.subject ∨ d ∈ s.held := by
      rw [h.held_iff hC hlast]
      constructor
      · rintro ⟨x, hx, rfl⟩
        exact ((hactive x).mp hx).imp (fun heq ↦ by rw [heq]) fun hx ↦ ⟨x, hx, rfl⟩
      · rintro (rfl | ⟨x, hx, rfl⟩)
        · exact ⟨e', (hactive e').mpr (.inl rfl), rfl⟩
        · exact ⟨x, (hactive x).mpr (.inr hx), rfl⟩
    rw [hmem]
    cases isHead with
    | true => simp [fetch, FilterUpdate.apply]
    | false =>
      -- The subject is active already.
      have hsame : ∃ x ∈ as, x.subject = e.subject := by
        by_contra hnot
        push Not at hnot
        exact absurd (hhead.mpr hnot) (by simp)
      obtain ⟨x, hx, heq⟩ := hsame
      have hin : e.subject ∈ s.held := heq ▸ h.held x (hA ▸ List.mem_append_left _ hx)
      simp only [fetch, Bool.false_eq_true, if_false]
      exact ⟨.inr, fun hd ↦ hd.elim (fun heq ↦ heq ▸ hin) id⟩
  exact {
    layout := (hA ▸ h.layout : Layout (as ++ bs)).insert hle hlt hhead
    active := fun x hx ↦ ((hactive x).mp hx).elim (fun heq ↦ by rw [heq]) (h.active x)
    sorted := sorted_remove (hI ▸ h.sorted)
    inactive := fun x hx ↦
      h.inactive x (hI ▸ by simpa using (List.mem_append.mp hx).imp_right .inr)
    nodup := by
      have hnodup := h.nodup
      rw [entries, hA, hI] at hnodup
      rw [entries]
      refine (List.Perm.nodup_iff ?_).mp hnodup
      have hmap : e.address = e'.address := rfl
      simp only [List.map_append, List.map_cons, hmap, List.append_assoc, List.cons_append]
      refine List.Perm.append_left _ ?_
      rw [← List.append_assoc]
      exact List.perm_middle.trans (by rw [List.append_assoc])
    activation := by
      have hperm := h.activation
      rw [hI, hQ, List.map_append, List.map_cons] at hperm
      rw [List.map_append]
      exact (List.perm_cons _).mp (hperm.trans List.perm_middle)
    cleanUp := h.cleanUp
    nextPush := fun a ha ↦ by
      obtain ⟨x, hx, heq⟩ := h.nextPush a ha
      exact ⟨x, (hactive x).mpr (.inr hx), heq⟩
    held := fun x hx ↦ (hheld _).mpr ⟨x, hx, rfl⟩
    marks := by
      refine marks_of_mem_keys (fun d hd ↦ mem_keys_slots.mpr ((hheld d).mp hd)) fun m ↦ ?_
      cases m with
      | none => simp [Marked, hlast]
      | some a => simp [Marked, hC] }

/-- What the driver holds after it has cleaned up a gap. -/
theorem mem_removeSubjectRange {held : Finset SubjectId} {first last : SubjectId} {P : Prop}
    {d : SubjectId} (h : first ≤ d ∧ d ≤ last ↔ P) :
    d ∈ (FilterUpdate.removeSubjectRange first last).apply held ↔ d ∈ held ∧ ¬ P := by
  rw [FilterUpdate.apply, Finset.mem_filter, h]

theorem of_polls (h : s.Inv) {waker : Waker} {result : Option (Except CallAgain FilterUpdate)}
    {r : RegularInner} (hp : Polls s.inner waker result r) :
    System.Inv ⟨r, fetch s.held result⟩ := by
  cases hp with
  | @cleanUp as bs e rest first last hC hA hhead hfirst hlast =>
    have hnodup := h.cleanUp
    rw [hC] at hnodup
    obtain ⟨hnot, hrest⟩ := List.nodup_cons.mp hnodup
    have hsorted := h.sorted_active
    rw [hA] at hsorted
    refine h.clear rfl rfl rfl rfl (m := some e.address) hrest (fun m ↦ ?_) fun d ↦
      mem_removeSubjectRange ?_
    · cases m with
      | none => simp [Marked]
      | some a =>
        simp only [Marked, hC, ne_eq, Option.some.injEq, List.mem_cons]
        constructor
        · intro ha
          exact ⟨fun heq ↦ hnot (heq ▸ ha), .inr ha⟩
        · rintro ⟨hne, ha⟩
          exact ha.resolve_left hne
    · rw [h.rightOf_head_iff hA hhead, le_prevSubject_iff hlast,
        firstCleanUp_le_iff (List.pairwise_append.mp hsorted).1 hfirst]
  | cleanUpLast hC hlast hfirst =>
    refine h.clear rfl rfl rfl rfl (m := none) h.cleanUp (fun m ↦ ?_) fun d ↦
      mem_removeSubjectRange ?_
    · cases m with
      | none => simp [Marked]
      | some a => simp [Marked]
    · rw [rightOf_slots_none_iff, firstCleanUp_le_iff h.sorted_active hfirst]
      exact and_iff_left (Fin.le_last d)
  | activate hC hlast hQ hI hA hle hlt hhead => exact h.activate hC hlast hQ hI hA hle hlt hhead
  | pending =>
    exact ⟨h.layout, h.active, h.sorted, h.inactive, h.nodup, h.activation, h.cleanUp, h.nextPush,
      h.held, h.marks⟩

/-! ## Delivery -/

/-- The state of a delivery is not needed for anything else. -/
theorem setNextPush (h : s.Inv) {nextPushPtr : Option Address}
    (hnext : ∀ a, nextPushPtr = some a → ∃ x ∈ s.inner.activeEntryTree, x.address = a) :
    System.Inv ⟨{ s.inner with nextPushPtr := nextPushPtr }, s.held⟩ :=
  ⟨h.layout, h.active, h.sorted, h.inactive, h.nodup, h.activation, h.cleanUp, hnext,
    h.held, h.marks⟩

theorem of_startsPush (h : s.Inv) {subject : SubjectId} {started : Bool} {r : RegularInner}
    (hp : StartsPush s.inner subject started r) : System.Inv ⟨r, s.held⟩ := by
  cases hp with
  | found hA =>
    refine h.setNextPush fun a ha ↦ ?_
    cases ha
    exact ⟨_, hA ▸ by simp, rfl⟩
  | missing => exact h.setNextPush (by simp)

theorem of_pushesNext (h : s.Inv) {entry : Option Address} {more : Bool} {r : RegularInner}
    (hp : PushesNext s.inner entry more r) : System.Inv ⟨r, s.held⟩ := by
  cases hp with
  | idle => exact h
  | next hA =>
    refine h.setNextPush fun a ha ↦ ?_
    obtain ⟨x, hx, rfl⟩ := Option.map_eq_some_iff.mp ha
    have hmem := List.mem_of_mem_head? (Option.filter_eq_some_iff.mp hx).1
    exact ⟨x, hA ▸ by simp [hmem], rfl⟩

end System.Inv

/-! ## Runs -/

/-- What a step of the system does. -/
inductive Steps (s : System) : Op → System → Event → Prop
  | register {address : Address} {subject : SubjectId}
      {result : Except RegistrationError Address} {r : RegularInner}
      (hnew : ∀ x ∈ s.inner.entries, x.address ≠ address)
      (hr : Registers s.inner address subject result r) :
      Steps s (.register address subject) ⟨r, s.held⟩ (.registered result)
  | unregister {e : Entry} {r : RegularInner} (he : e ∈ s.inner.entries)
      (hr : Unregisters s.inner e r) : Steps s (.unregister e.address) ⟨r, s.held⟩ .unregistered
  | poll {waker : Waker} {result : Option (Except CallAgain FilterUpdate)} {r : RegularInner}
      (hp : Polls s.inner waker result r) : Steps s (.poll waker) ⟨r, fetch s.held result⟩
      (.polled result)
  | pushStart {subject : SubjectId} {started : Bool} {r : RegularInner}
      (hp : StartsPush s.inner subject started r) :
      Steps s (.pushStart subject) ⟨r, s.held⟩ (.pushStarted started)
  | pushNext {entry : Option Address} {more : Bool} {r : RegularInner}
      (hp : PushesNext s.inner entry more r) : Steps s .pushNext ⟨r, s.held⟩ (.pushed entry more)

theorem System.Inv.of_steps (h : s.Inv) {op : Op} {s' : System} {event : Event}
    (hs : Steps s op s' event) : s'.Inv := by
  cases hs with
  | register hnew hr => exact h.of_registers hnew hr
  | unregister _ hr => exact h.of_unregisters hr
  | poll hp => exact h.of_polls hp
  | pushStart hp => exact h.of_startsPush hp
  | pushNext hp => exact h.of_pushesNext hp

/-- **A valid operation does not panic.** -/
theorem System.Inv.steps (h : s.Inv) {op : Op} (hop : s.Valid op) :
    ∃ s' event, s.step op = .ok (s', event) ∧ Steps s op s' event := by
  cases op with
  | register address subject =>
    refine ⟨_, _, rfl, .register (fun x hx heq ↦ ?_) (h.registers address subject)⟩
    have hsome := h.entry?_of_mem hx
    rw [heq, show s.inner.entry? address = none from hop] at hsome
    cases hsome
  | unregister token =>
    obtain ⟨e, he⟩ := Option.isSome_iff_exists.mp hop
    obtain rfl : e.address = token := by simpa using List.find?_some he
    have hmem : e ∈ s.inner.entries := List.mem_of_find?_eq_some he
    obtain ⟨r, heq, hr⟩ := h.unregisters hmem
    refine ⟨_, _, ?_, .unregister hmem hr⟩
    rw [System.step, heq]
    rfl
  | poll waker =>
    obtain ⟨result, r, heq, hp⟩ := h.polls waker
    refine ⟨_, _, ?_, .poll hp⟩
    rw [System.step, heq]
    rfl
  | pushStart subject =>
    obtain ⟨started, r, heq, hp⟩ := h.startsPush subject
    refine ⟨_, _, ?_, .pushStart hp⟩
    rw [System.step, heq]
    rfl
  | pushNext =>
    obtain ⟨entry, more, r, heq, hp⟩ := h.pushesNext
    refine ⟨_, _, ?_, .pushNext hp⟩
    rw [System.step, heq]
    rfl

/-- A run over valid operations. -/
theorem System.inv_of_run {subjectSlotCount : ℕ} {ops : List Op}
    (hops : Admissible System.step System.Valid (System.new subjectSlotCount) ops) :
    ∃ s events, run System.step (System.new subjectSlotCount) ops = .ok (s, events) ∧ s.Inv :=
  run_of_admissible (fun s op h hop ↦ by
    obtain ⟨s', event, hstep, hs⟩ := h.steps hop
    exact ⟨s', event, hstep, h.of_steps hs⟩) (.new subjectSlotCount) hops

namespace System.Inv

variable {waker : Waker} {result : Option (Except CallAgain FilterUpdate)} {r : RegularInner}

/-- A subject is only added if the driver does not hold it. -/
theorem not_mem_of_add (h : s.Inv) (hp : Polls s.inner waker result r) {subject : SubjectId}
    (hresult : result = some (.ok (.addSubject subject))) : subject ∉ s.held := by
  cases hp with
  | cleanUp | cleanUpLast | pending => cases hresult
  | @activate as bs _ _ e _ hC hlast _ _ hA _ hlt isHead hhead =>
    cases isHead with
    | false => cases hresult
    | true =>
      cases hresult
      rw [h.held_iff hC hlast, hA]
      rintro ⟨x, hx, heq⟩
      rcases List.mem_append.mp hx with hx | hx
      · exact hhead.mp rfl x hx heq
      · exact (hlt x hx).ne heq.symm

/-- The subject of an active entry is not removed. -/
theorem not_removed (h : s.Inv) (hp : Polls s.inner waker result r) {first last : SubjectId}
    (hresult : result = some (.ok (.removeSubjectRange first last))) :
    ∀ x ∈ s.inner.activeEntryTree, ¬ (first ≤ x.subject ∧ x.subject ≤ last) := by
  cases hp with
  | pending => cases hresult
  | @activate _ _ _ _ _ _ _ _ _ _ _ _ _ isHead => cases isHead <;> cases hresult
  | cleanUp hC hA hhead hfirst hlast =>
    cases hresult
    have hsorted := h.sorted_active
    rw [hA] at hsorted
    intro x hx hrange
    rw [firstCleanUp_le_iff (List.pairwise_append.mp hsorted).1 hfirst, le_prevSubject_iff hlast,
      ← h.rightOf_head_iff hA hhead] at hrange
    exact hrange.1 (mem_keys_slots.mpr ⟨x, hx, rfl⟩)
  | cleanUpLast hC hlast hfirst =>
    cases hresult
    intro x hx hrange
    exact lt_irrefl _ ((firstCleanUp_le_iff h.sorted_active hfirst _).mp hrange.1 x hx)

/-- When the poll is pending, the driver holds the subjects of the registered entries. -/
theorem held_of_pending (h : s.Inv) (hp : Polls s.inner waker result r) (hresult : result = none)
    (d : SubjectId) : d ∈ s.held ↔ ∃ x ∈ r.entries, x.subject = d := by
  cases hp with
  | cleanUp | cleanUpLast | activate => cases hresult
  | pending hC hlast hQ =>
    have hI : s.inner.inactiveEntryTree = [] := by
      have hperm := h.activation
      rw [hQ] at hperm
      exact List.map_eq_nil_iff.mp hperm.nil_eq.symm
    rw [entries]
    dsimp only
    rw [hI, List.append_nil]
    exact h.held_iff hC hlast d

end System.Inv

/-- **The registry and the driver converge.**  Whatever is registered, unregistered, polled and
delivered, nothing panics, and the driver holds the subjects of all active entries.  It is asked to
add a subject only if it does not hold it, and never to remove the subject of an active entry.  When
there is nothing to poll, it holds the subjects of the registered entries and no others. -/
theorem converges (subjectSlotCount : ℕ) {ops : List Op}
    (hops : Admissible System.step System.Valid (System.new subjectSlotCount) ops) :
    ∃ s events, run System.step (System.new subjectSlotCount) ops = .ok (s, events) ∧
      (∀ e ∈ s.inner.activeEntryTree, e.subject ∈ s.held) ∧
      ∀ op, s.Valid op → ∃ s' event, s.step op = .ok (s', event) ∧
        (∀ subject, event = .polled (some (.ok (.addSubject subject))) → subject ∉ s.held) ∧
        (∀ first last, event = .polled (some (.ok (.removeSubjectRange first last))) →
          ∀ e ∈ s'.inner.activeEntryTree, ¬ (first ≤ e.subject ∧ e.subject ≤ last)) ∧
        (event = .polled none →
          ∀ subject, subject ∈ s'.held ↔ ∃ e ∈ s'.inner.entries, e.subject = subject) := by
  obtain ⟨s, events, hrun, h⟩ := System.inv_of_run hops
  refine ⟨s, events, hrun, h.held, fun op hop ↦ ?_⟩
  obtain ⟨s', event, hstep, hs⟩ := h.steps hop
  refine ⟨s', event, hstep, fun subject hevent ↦ ?_, fun first last hevent ↦ ?_, fun hevent ↦ ?_⟩
  · cases hs with
    | poll hp => exact h.not_mem_of_add hp (Event.polled.inj hevent)
    | _ => cases hevent
  · cases hs with
    | poll hp =>
      have hnot := h.not_removed hp (Event.polled.inj hevent)
      cases hp with
      | cleanUp | cleanUpLast | pending => exact hnot
      | @activate _ _ _ _ _ _ _ _ _ _ _ _ _ isHead => cases isHead <;> cases hevent
    | _ => cases hevent
  · cases hs with
    | poll hp =>
      have hresult := Event.polled.inj hevent
      subst hresult
      exact h.held_of_pending hp rfl
    | _ => cases hevent

theorem converges_one_entry :
    ∃ s events, run System.step (System.new 1) [.register 1 5, .poll 0, .unregister 1] =
        .ok (s, events) ∧
      ∃ s' event, s.step (.poll 0) = .ok (s', event) ∧
        ∀ first last, event = .polled (some (.ok (.removeSubjectRange first last))) →
          ∀ e ∈ s'.inner.activeEntryTree, ¬ (first ≤ e.subject ∧ e.subject ≤ last) := by
  obtain ⟨s, events, hrun, -, hnext⟩ :=
    converges 1 (by decide :
      Admissible System.step System.Valid (System.new 1) [.register 1 5, .poll 0, .unregister 1])
  obtain ⟨s', event, hstep, -, hnot, -⟩ := hnext (.poll 0) trivial
  exact ⟨s, events, hrun, s', event, hstep, hnot⟩

end Emcyphal.RxMsg
