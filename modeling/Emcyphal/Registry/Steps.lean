import Emcyphal.Registry.Filter

/-!
# What the operations of the registry do

For each operation there is a relation that lists all it can do: `Registers`, `Unregisters`,
`Pushes` and `Polls`.  The theorems of this file say that the operation, carried out in a state with
the invariant, does not panic and is one of the cases; everything else is then said about the cases.
-/

set_option autoImplicit false

namespace Emcyphal.RxMsg

open Rust Tree

namespace RegularInner

/-- The slot of its subject is credited when a head is removed: there is no entry to the right of
it, or that entry gets into the clean-up queue. -/
def credits (r : RegularInner) (e : Entry) : List Entry → Bool
  | [] => true
  | nextEntry :: _ => (r.cleanUpQueue.contains e.address || nextEntry.isHead) &&
    !r.cleanUpQueue.contains nextEntry.address

/-- The registry after a head was removed from the active tree. -/
def headRemoved (r : RegularInner) (before : List Entry) (e : Entry) (after : List Entry) :
    RegularInner :=
  { r with
    activeEntryTree := before ++ promote after
    nextPushPtr := r.skipPush e.address after
    cleanUpQueue := r.cleanUpQueue.erase e.address ++
      if r.credits e after then (after.head?.map Entry.address).toList else []
    cleanUpLast := r.cleanUpLast || after.isEmpty
    freeSlotCount := if r.credits e after then r.freeSlotCount + 1 else r.freeSlotCount
    filterUpdateWaker := if r.credits e after then none else r.filterUpdateWaker }

end RegularInner

open RegularInner

/-- An entry is registered. -/
inductive Registers (r : RegularInner) (address : Address) (subject : SubjectId) :
    Except RegistrationError Address → RegularInner → Prop
  /-- Others of its subject are waiting for their activation. -/
  | enqueued {as bs : List Entry} (hI : r.inactiveEntryTree = as ++ bs)
      (hmem : ∃ x ∈ as, x.subject = subject) (hle : ∀ x ∈ as, x.subject ≤ subject)
      (hlt : ∀ x ∈ bs, subject < x.subject) :
      Registers r address subject (.ok address) { r with
        inactiveEntryTree := as ++ ⟨address, subject, false, false⟩ :: bs
        activationQueue := r.activationQueue ++ [address] }
  /-- Its subject is active. -/
  | active {as bs : List Entry} (hnot : ∀ x ∈ r.inactiveEntryTree, x.subject ≠ subject)
      (hA : r.activeEntryTree = as ++ bs) (hmem : ∃ x ∈ as, x.subject = subject)
      (hle : ∀ x ∈ as, x.subject ≤ subject) (hlt : ∀ x ∈ bs, subject < x.subject) :
      Registers r address subject (.ok address) { r with
        activeEntryTree := as ++ ⟨address, subject, true, false⟩ :: bs }
  | full (hnot : ∀ x ∈ r.entries, x.subject ≠ subject) (hfree : r.freeSlotCount = 0) :
      Registers r address subject (.error .noSubjectSlotLeft) r
  /-- A slot is taken for its subject. -/
  | fresh {as bs : List Entry} (hnot : ∀ x ∈ r.entries, x.subject ≠ subject)
      (hfree : 0 < r.freeSlotCount) (hI : r.inactiveEntryTree = as ++ bs)
      (hle : ∀ x ∈ as, x.subject ≤ subject) (hlt : ∀ x ∈ bs, subject < x.subject) :
      Registers r address subject (.ok address) (wake { r with
        freeSlotCount := r.freeSlotCount - 1
        inactiveEntryTree := as ++ ⟨address, subject, false, false⟩ :: bs
        activationQueue := r.activationQueue ++ [address] })

/-- The entry with a token is unregistered. -/
inductive Unregisters (r : RegularInner) : Entry → RegularInner → Prop
  | head {as bs : List Entry} {e : Entry} (hA : r.activeEntryTree = as ++ e :: bs)
      (hhead : e.isHead = true) : Unregisters r e (r.headRemoved as e bs)
  | tail {as bs : List Entry} {e : Entry} (hA : r.activeEntryTree = as ++ e :: bs)
      (htail : e.isHead = false) : Unregisters r e { r with
        activeEntryTree := as ++ bs
        nextPushPtr := r.skipPush e.address bs }
  | inactive {as bs : List Entry} {e : Entry} {queueBefore queueAfter : List Address}
      (hI : r.inactiveEntryTree = as ++ e :: bs)
      (hQ : r.activationQueue = queueBefore ++ e.address :: queueAfter) : Unregisters r e { r with
        inactiveEntryTree := as ++ bs
        activationQueue := queueBefore ++ queueAfter }

/-- A filter update is polled. -/
inductive Polls (r : RegularInner) (waker : Waker) :
    Option (Except CallAgain FilterUpdate) → RegularInner → Prop
  | cleanUp {as bs : List Entry} {e : Entry} {rest : List Address} {first last : SubjectId}
      (hC : r.cleanUpQueue = e.address :: rest) (hA : r.activeEntryTree = as ++ e :: bs)
      (hhead : e.isHead = true) (hfirst : firstCleanUp as = .ok first)
      (hlast : prevSubject e.subject = some last) (hle : first ≤ last) :
      Polls r waker (some (.ok (.removeSubjectRange first last))) { r with cleanUpQueue := rest }
  | cleanUpLast {first : SubjectId} (hC : r.cleanUpQueue = []) (hlast : r.cleanUpLast = true)
      (hfirst : firstCleanUp r.activeEntryTree = .ok first) :
      Polls r waker (some (.ok (.removeSubjectRange first SubjectId.MAX)))
        { r with cleanUpLast := false }
  /-- An entry becomes active, as a head if there is none of its subject. -/
  | activate {as bs xs ys : List Entry} {e : Entry} {rest : List Address} (hC : r.cleanUpQueue = [])
      (hlast : r.cleanUpLast = false) (hQ : r.activationQueue = e.address :: rest)
      (hI : r.inactiveEntryTree = xs ++ e :: ys) (hA : r.activeEntryTree = as ++ bs)
      (hle : ∀ x ∈ as, x.subject ≤ e.subject) (hlt : ∀ x ∈ bs, e.subject < x.subject)
      {isHead : Bool} (hhead : isHead = true ↔ ∀ x ∈ as, x.subject ≠ e.subject) :
      Polls r waker (some (if isHead then .ok (.addSubject e.subject) else .error .callAgain))
        { r with
          inactiveEntryTree := xs ++ ys
          activeEntryTree := as ++ { e with isActive := true, isHead := isHead } :: bs
          activationQueue := rest }
  | pending (hC : r.cleanUpQueue = []) (hlast : r.cleanUpLast = false)
      (hQ : r.activationQueue = []) :
      Polls r waker none { r with filterUpdateWaker := some waker }

/-- A delivery is started, at the head of its subject. -/
inductive StartsPush (r : RegularInner) (subject : SubjectId) : Bool → RegularInner → Prop
  | found {as bs : List Entry} {e : Entry} (hA : r.activeEntryTree = as ++ e :: bs)
      (hhead : e.isHead = true) (hsubject : e.subject = subject) :
      StartsPush r subject true { r with nextPushPtr := some e.address }
  | missing (hnot : ∀ x ∈ r.activeEntryTree, x.subject ≠ subject) :
      StartsPush r subject false { r with nextPushPtr := none }

/-- A delivery goes on. -/
inductive PushesNext (r : RegularInner) : Option Address → Bool → RegularInner → Prop
  | idle (hnext : r.nextPushPtr = none) : PushesNext r none false r
  | next {as bs : List Entry} {e : Entry} (hA : r.activeEntryTree = as ++ e :: bs)
      (hnext : r.nextPushPtr = some e.address) :
      PushesNext r (some e.address) (followUp bs).isSome { r with nextPushPtr := followUp bs }

/-! ## The ranges that are removed -/

theorem le_prevSubject_iff {subject last : SubjectId} (h : prevSubject subject = some last)
    (d : SubjectId) : d ≤ last ↔ d < subject := by
  rw [prevSubject] at h
  split at h
  · cases h
    rw [Fin.le_def, Fin.lt_def]
    dsimp only
    omega
  · cases h

theorem exists_prevSubject {subject d : SubjectId} (h : d < subject) :
    ∃ last, prevSubject subject = some last := by
  rw [Fin.lt_def] at h
  exact ⟨_, dif_pos (by omega)⟩

theorem nextSubject_le_iff {subject first : SubjectId} (h : nextSubject subject = some first)
    (d : SubjectId) : first ≤ d ↔ subject < d := by
  rw [nextSubject] at h
  split at h
  · cases h
    rw [Fin.le_def, Fin.lt_def]
    dsimp only
    omega
  · cases h

theorem exists_nextSubject {subject d : SubjectId} (h : subject < d) :
    ∃ first, nextSubject subject = some first := by
  rw [Fin.lt_def] at h
  exact ⟨_, dif_pos (by omega)⟩

/-- A range starts after the subjects of all entries before it. -/
theorem firstCleanUp_le_iff {as : List Entry} {first : SubjectId}
    (hsorted : as.Pairwise fun x y ↦ x.subject ≤ y.subject) (h : firstCleanUp as = .ok first)
    (d : SubjectId) : first ≤ d ↔ ∀ x ∈ as, x.subject < d := by
  rcases List.eq_nil_or_concat as with rfl | ⟨as, a, rfl⟩
  · cases h
    simp
  · rw [List.concat_eq_append] at hsorted h ⊢
    rw [firstCleanUp, List.getLast?_concat] at h
    have hle := (List.pairwise_append.mp hsorted).2.2
    rw [nextSubject_le_iff (unwrap_eq_ok.mp h)]
    constructor
    · intro hlt x hx
      rcases List.mem_append.mp hx with hx | hx
      · exact (hle x hx a (by simp)).trans_lt hlt
      · rwa [List.mem_singleton.mp hx]
    · exact fun hall ↦ hall a (by simp)

theorem exists_firstCleanUp {as : List Entry} {d : SubjectId} (h : ∀ x ∈ as, x.subject < d) :
    ∃ first, firstCleanUp as = .ok first := by
  rw [firstCleanUp]
  cases hlast : as.getLast? with
  | none => exact ⟨0, rfl⟩
  | some a =>
    obtain ⟨first, hfirst⟩ := exists_nextSubject (h a (List.mem_of_mem_getLast? hlast))
    exact ⟨first, unwrap_eq_ok.mpr hfirst⟩

/-- What lies in the last gap. -/
theorem rightOf_slots_none_iff (entries : List Entry) (d : SubjectId) :
    d ∉ keys (slots entries) ∧ rightOf (slots entries) d = none ↔ ∀ x ∈ entries, x.subject < d := by
  rw [mem_keys_slots, rightOf, Option.map_eq_none_iff, List.find?_eq_none]
  constructor
  · rintro ⟨hnot, hall⟩ x hx
    have hle : x.subject ≤ d :=
      not_lt.mp fun hlt ↦ hall x.slot (List.mem_map_of_mem hx) (decide_eq_true hlt)
    exact hle.lt_of_ne fun heq ↦ hnot ⟨x, hx, heq⟩
  · intro hall
    refine ⟨?_, List.forall_mem_map.mpr fun x hx hlt ↦
      lt_asymm (hall x hx) (of_decide_eq_true hlt)⟩
    rintro ⟨x, hx, rfl⟩
    exact lt_irrefl _ (hall x hx)

namespace System.Inv

variable {s : System} {as bs : List Entry} {e : Entry}

theorem sorted_active (h : s.Inv) :
    s.inner.activeEntryTree.Pairwise fun x y ↦ x.subject ≤ y.subject := h.layout.sorted

/-- The place of a subject in the active tree, and whether it is there already. -/
theorem upperBound_active (h : s.Inv) (subject : SubjectId) :
    ∃ as bs, s.inner.activeEntryTree = as ++ bs ∧
      upperBound Entry.subject subject s.inner.activeEntryTree = (as, bs) ∧
      (∀ x ∈ as, x.subject ≤ subject) ∧ (∀ x ∈ bs, subject < x.subject) ∧
      ((as.getLast?.any fun x ↦ x.subject == subject) = true ↔ ∃ x ∈ as, x.subject = subject) := by
  have hsorted := h.sorted_active
  obtain ⟨as, bs, hA, heq, hle, hlt⟩ := upperBound_cases hsorted subject
  rw [hA] at hsorted
  exact ⟨as, bs, hA, heq, hle, hlt, getLast?_any_iff (List.pairwise_append.mp hsorted).1 hle⟩

theorem upperBound_inactive (h : s.Inv) (subject : SubjectId) :
    ∃ as bs, s.inner.inactiveEntryTree = as ++ bs ∧
      upperBound Entry.subject subject s.inner.inactiveEntryTree = (as, bs) ∧
      (∀ x ∈ as, x.subject ≤ subject) ∧ (∀ x ∈ bs, subject < x.subject) ∧
      ((as.getLast?.any fun x ↦ x.subject == subject) = true ↔ ∃ x ∈ as, x.subject = subject) := by
  have hsorted := h.sorted
  obtain ⟨as, bs, hI, heq, hle, hlt⟩ := upperBound_cases hsorted subject
  rw [hI] at hsorted
  exact ⟨as, bs, hI, heq, hle, hlt, getLast?_any_iff (List.pairwise_append.mp hsorted).1 hle⟩

theorem registers (h : s.Inv) (address : Address) (subject : SubjectId) :
    Registers s.inner address subject (s.inner.regRegister address subject).1
      (s.inner.regRegister address subject).2 := by
  obtain ⟨is, js, hI, hinactive, hileI, hltI, henqueued⟩ := h.upperBound_inactive subject
  obtain ⟨as, bs, hA, hactive, hleA, hltA, hsubject⟩ := h.upperBound_active subject
  rw [regRegister, hinactive, hactive]
  dsimp only
  split
  · rename_i hmem
    exact .enqueued hI (henqueued.mp hmem) hileI hltI
  · rename_i hnotI
    have hnotI' : ∀ x ∈ s.inner.inactiveEntryTree, x.subject ≠ subject := by
      rw [hI]
      intro x hx heq
      rcases List.mem_append.mp hx with hx | hx
      · exact hnotI (henqueued.mpr ⟨x, hx, heq⟩)
      · exact (hltI x hx).ne heq.symm
    split
    · rename_i hmem
      exact .active hnotI' hA (hsubject.mp hmem) hleA hltA
    · rename_i hnotA
      have hnot : ∀ x ∈ s.inner.entries, x.subject ≠ subject := by
        rw [entries, hA]
        intro x hx heq
        rcases List.mem_append.mp hx with hx | hx
        · rcases List.mem_append.mp hx with hx | hx
          · exact hnotA (hsubject.mpr ⟨x, hx, heq⟩)
          · exact (hltA x hx).ne heq.symm
        · exact hnotI' x hx heq
      split
      · rename_i hfree
        exact .full hnot hfree
      · rename_i hfree
        exact .fresh hnot (Nat.pos_of_ne_zero hfree) hI hileI hltI

theorem cursorAt_active (h : s.Inv) (hA : s.inner.activeEntryTree = as ++ e :: bs) :
    cursorAt (fun x ↦ x.address == e.address) s.inner.activeEntryTree = some (as, e, bs) := by
  have hnodup := h.nodup_active
  rw [hA] at hnodup ⊢
  exact cursorAt_address hnodup

theorem cursorAt_inactive (h : s.Inv) (hI : s.inner.inactiveEntryTree = as ++ e :: bs) :
    cursorAt (fun x ↦ x.address == e.address) s.inner.inactiveEntryTree = some (as, e, bs) := by
  have hnodup := h.nodup_inactive
  rw [hI] at hnodup ⊢
  exact cursorAt_address hnodup

theorem regUnregisterActiveHead_eq (h : s.Inv) (hA : s.inner.activeEntryTree = as ++ e :: bs) :
    s.inner.regUnregisterActiveHead e.address = .ok (s.inner.headRemoved as e bs) := by
  have herase : (if s.inner.cleanUpQueue.contains e.address = true then
      s.inner.cleanUpQueue.erase e.address else s.inner.cleanUpQueue) =
        s.inner.cleanUpQueue.erase e.address := by
    split
    · rfl
    · rename_i hnot
      exact (List.erase_of_not_mem (by simpa using hnot)).symm
  rw [regUnregisterActiveHead, h.cursorAt_active hA, unwrap_some, ok_bind]
  dsimp only
  rw [h.isLinked_active (hA ▸ by simp), herase]
  cases bs with
  | nil =>
    simp [headRemoved, credits, promote, wake]
  | cons n rest =>
    have hn : n ∈ s.inner.activeEntryTree := hA ▸ by simp
    have hne : n.address ≠ e.address := by
      have hnodup := h.nodup_active
      rw [hA] at hnodup
      exact (map_address_ne hnodup).2 n (by simp)
    have hlinked : ((s.inner.cleanUpQueue.erase e.address).contains n.address ||
        s.inner.activationQueue.contains n.address) = s.inner.cleanUpQueue.contains n.address := by
      have hnot : s.inner.activationQueue.contains n.address = false := by
        simpa using h.not_mem_activation hn
      rw [hnot, Bool.or_false, Bool.eq_iff_iff]
      simp only [List.contains_iff_mem, List.mem_erase_of_ne hne]
    simp only [isLinked, hlinked]
    split
    · rename_i hcredits
      rw [headRemoved, show s.inner.credits e (n :: rest) = true from hcredits]
      simp [promote, wake]
    · rename_i hcredits
      rw [headRemoved,
        show s.inner.credits e (n :: rest) = false from Bool.not_eq_true _ ▸ hcredits]
      simp [promote]

/-- A token is given up. -/
theorem unregisters (h : s.Inv) (he : e ∈ s.inner.entries) :
    ∃ r, s.inner.regUnregister e.address = .ok r ∧ Unregisters s.inner e r := by
  rw [regUnregister, h.entry?_of_mem he, unwrap_some, ok_bind]
  rcases List.mem_append.mp he with he | he
  · obtain ⟨as, bs, hA⟩ := List.append_of_mem he
    rw [h.active e he]
    cases hhead : e.isHead with
    | true => exact ⟨_, h.regUnregisterActiveHead_eq hA, .head hA hhead⟩
    | false =>
      refine ⟨_, ?_, .tail hA hhead⟩
      have hlinked : s.inner.isLinked e.address = false := by
        rw [h.isLinked_active he]
        by_contra hmem
        have := h.isHead_of_cleanUp hA (by simpa using hmem)
        rw [hhead] at this
        cases this
      dsimp only
      rw [regUnregisterActiveTail, h.cursorAt_active hA, unwrap_some, ok_bind]
      dsimp only
      rw [assert_pos hlinked]
      rfl
  · obtain ⟨as, bs, hI⟩ := List.append_of_mem he
    obtain ⟨hactive, hhead⟩ := h.inactive e he
    have hmem : e.address ∈ s.inner.activationQueue :=
      h.activation.mem_iff.mpr (List.mem_map_of_mem he)
    obtain ⟨queueBefore, queueAfter, hQ⟩ := List.append_of_mem hmem
    refine ⟨_, ?_, .inactive hI hQ⟩
    have hnodup : s.inner.activationQueue.Nodup := h.activation.nodup_iff.mpr h.nodup_inactive
    rw [hQ] at hnodup
    have hcursor : cursorAt (fun address ↦ address == e.address) s.inner.activationQueue =
        some (queueBefore, e.address, queueAfter) := by
      rw [hQ]
      refine cursorAt_append (fun x hx ↦ ?_) (by simp)
      simpa using (List.nodup_append.mp hnodup).2.2 x hx e.address (by simp)
    rw [hactive, hhead]
    dsimp only
    rw [regUnregisterInactive, h.cursorAt_inactive hI, unwrap_some, ok_bind]
    dsimp only
    rw [hcursor]
    rfl

theorem startsPush (h : s.Inv) (subject : SubjectId) :
    ∃ started r, s.inner.hubPushStart subject = .ok (started, r) ∧
      StartsPush s.inner subject started r := by
  rw [hubPushStart]
  have hlayout := h.layout
  rcases lowerBound_cases hlayout.sorted subject with
    ⟨hfind, hlt⟩ | ⟨as, e, bs, hA, hfind, hlt, hge, hle⟩
  · rw [hfind]
    exact ⟨_, _, rfl, .missing fun x hx ↦ (hlt x hx).ne⟩
  · rw [hA] at hlayout
    have hhead : e.isHead = true := by
      by_contra htail
      obtain ⟨x, hx, heq⟩ := hlayout.mem_of_tail (by simpa using htail)
      exact absurd (hlt x hx) (not_lt.mpr (heq ▸ hge))
    rw [hfind]
    dsimp only
    rw [assert_pos hhead]
    by_cases hsubject : e.subject = subject
    · rw [if_pos hsubject]
      exact ⟨_, _, rfl, .found hA hhead hsubject⟩
    · rw [if_neg hsubject]
      exact ⟨_, _, rfl, .missing (hA ▸ ne_of_lowerBound hlt hle hge hsubject)⟩

theorem pushesNext (h : s.Inv) :
    ∃ entry more r, s.inner.hubPushNext = .ok (entry, more, r) ∧
      PushesNext s.inner entry more r := by
  rw [hubPushNext]
  cases hnext : s.inner.nextPushPtr with
  | none => exact ⟨_, _, _, rfl, .idle hnext⟩
  | some address =>
    obtain ⟨e, he, rfl⟩ := h.nextPush address hnext
    obtain ⟨as, bs, hA⟩ := List.append_of_mem he
    dsimp only
    rw [h.cursorAt_active hA]
    exact ⟨_, _, _, rfl, .next hA hnext⟩

/-- What lies in the gap before a head. -/
theorem rightOf_head_iff (h : s.Inv) (hA : s.inner.activeEntryTree = as ++ e :: bs)
    (hhead : e.isHead = true) (d : SubjectId) :
    d ∉ keys (slots s.inner.activeEntryTree) ∧
        rightOf (slots s.inner.activeEntryTree) d = some e.address ↔
      (∀ x ∈ as, x.subject < d) ∧ d < e.subject := by
  have hnodup := h.nodup_slots
  have hlayout := h.layout
  rw [hA] at hnodup hlayout
  rw [mem_keys_slots, hA]
  rw [slots_append, slots_cons] at hnodup ⊢
  rw [show e.address = e.slot.1 from rfl, rightOf_eq_some_iff hnodup]
  constructor
  · rintro ⟨hnot, hle, hlt⟩
    refine ⟨fun x hx ↦ (hle x.slot (List.mem_map_of_mem hx)).lt_of_ne fun heq ↦ ?_, hlt⟩
    exact hnot ⟨x, List.mem_append_left _ hx, heq⟩
  · rintro ⟨hall, hlt⟩
    refine ⟨?_, List.forall_mem_map.mpr fun x hx ↦ (hall x hx).le, hlt⟩
    rintro ⟨x, hx, rfl⟩
    rcases List.mem_append.mp hx with hx | hx
    · exact lt_irrefl _ (hall x hx)
    · have hle : e.subject ≤ x.subject := by
        rcases List.mem_cons.mp hx with rfl | hx
        · exact le_rfl
        · exact (List.pairwise_cons.mp (List.pairwise_append.mp hlayout.sorted).2.1).1 x hx
      exact absurd hlt (not_lt.mpr hle)

/-- The next gap is cleaned up. -/
theorem popsCleanUpQueue (h : s.Inv) {address : Address} {rest : List Address}
    (hC : s.inner.cleanUpQueue = address :: rest) (waker : Waker) :
    ∃ result r, s.inner.hubPopCleanUpQueue = .ok (some (result, r)) ∧
      Polls s.inner waker (some result) r := by
  -- The gap before the entry has a subject in it, so that the range is not empty.
  have hmarked : s.inner.Marked (some address) := by
    rw [Marked, hC]
    exact List.mem_cons_self
  obtain ⟨d, -, hnot, hright⟩ := (h.marks _).mp hmarked
  obtain ⟨x, hx, rfl, -⟩ := mem_of_rightOf hright
  obtain ⟨e, he, rfl⟩ := List.mem_map.mp hx
  obtain ⟨as, bs, hA⟩ := List.append_of_mem he
  have hhead := h.isHead_of_cleanUp hA hmarked
  obtain ⟨hall, hlt⟩ := (h.rightOf_head_iff hA hhead d).mp ⟨hnot, hright⟩
  obtain ⟨last, hlast⟩ := exists_prevSubject hlt
  obtain ⟨first, hfirst⟩ := exists_firstCleanUp hall
  have hsorted := h.sorted_active
  rw [hA] at hsorted
  have hle : first ≤ last :=
    ((firstCleanUp_le_iff (List.pairwise_append.mp hsorted).1 hfirst d).mpr hall).trans
      ((le_prevSubject_iff hlast d).mpr hlt)
  refine ⟨_, _, ?_, .cleanUp hC hA hhead hfirst hlast hle⟩
  rw [hubPopCleanUpQueue, hC]
  dsimp only
  rw [show e.slot.1 = e.address from rfl, h.cursorAt_active hA, unwrap_some, ok_bind]
  dsimp only
  rw [assert_pos hhead, ok_bind, hlast, unwrap_some, ok_bind, hfirst, ok_bind, assert_pos hle]
  rfl

/-- The last gap is cleaned up. -/
theorem popsCleanUpLast (h : s.Inv) (hC : s.inner.cleanUpQueue = [])
    (hlast : s.inner.cleanUpLast = true) (waker : Waker) :
    ∃ result r, s.inner.hubPopCleanUpLast = .ok (some (result, r)) ∧
      Polls s.inner waker (some result) r := by
  obtain ⟨d, -, hnot, hright⟩ := (h.marks none).mp hlast
  obtain ⟨first, hfirst⟩ := exists_firstCleanUp ((rightOf_slots_none_iff _ d).mp ⟨hnot, hright⟩)
  refine ⟨_, _, ?_, .cleanUpLast hC hlast hfirst⟩
  rw [hubPopCleanUpLast, if_pos hlast, hfirst]
  rfl

/-- The entry that waits the longest becomes active. -/
theorem popsRegistrationQueue (h : s.Inv) (hC : s.inner.cleanUpQueue = [])
    (hlast : s.inner.cleanUpLast = false) {address : Address} {rest : List Address}
    (hQ : s.inner.activationQueue = address :: rest) (waker : Waker) :
    ∃ result r, s.inner.hubPopRegistrationQueue = .ok (some (result, r)) ∧
      Polls s.inner waker (some result) r := by
  have hmem : address ∈ s.inner.inactiveEntryTree.map Entry.address :=
    h.activation.mem_iff.mp (hQ ▸ List.mem_cons_self)
  obtain ⟨e, he, rfl⟩ := List.mem_map.mp hmem
  obtain ⟨xs, ys, hI⟩ := List.append_of_mem he
  obtain ⟨as, bs, hA, hactive, hle, hlt, hsubject⟩ := h.upperBound_active e.subject
  have hhead : (!as.getLast?.any fun x ↦ x.subject == e.subject) = true ↔
      ∀ x ∈ as, x.subject ≠ e.subject := by
    rw [Bool.not_eq_true', ← Bool.not_eq_true, hsubject]
    push Not
    rfl
  refine ⟨_, _, ?_, .activate hC hlast hQ hI hA hle hlt hhead⟩
  rw [hubPopRegistrationQueue, hQ]
  dsimp only
  rw [h.cursorAt_inactive hI, unwrap_some, ok_bind]
  dsimp only
  rw [hactive]
  dsimp only
  cases as.getLast?.any fun x ↦ x.subject == e.subject <;> rfl

theorem polls (h : s.Inv) (waker : Waker) :
    ∃ result r, s.inner.hubPollPopFilterUpdate waker = .ok (result, r) ∧
      Polls s.inner waker result r := by
  rw [hubPollPopFilterUpdate]
  by_cases hC : s.inner.cleanUpQueue = []
  · rw [show s.inner.hubPopCleanUpQueue = .ok none by rw [hubPopCleanUpQueue, hC], ok_bind]
    by_cases hlast : s.inner.cleanUpLast = true
    · obtain ⟨result, r, heq, hpolls⟩ := h.popsCleanUpLast hC hlast waker
      rw [heq]
      exact ⟨_, _, rfl, hpolls⟩
    · rw [show s.inner.hubPopCleanUpLast = .ok none by rw [hubPopCleanUpLast, if_neg hlast]; rfl]
      have hlast : s.inner.cleanUpLast = false := Bool.not_eq_true _ ▸ hlast
      by_cases hQ : s.inner.activationQueue = []
      · rw [show s.inner.hubPopRegistrationQueue = .ok none by rw [hubPopRegistrationQueue, hQ]]
        exact ⟨_, _, rfl, .pending hC hlast hQ⟩
      · obtain ⟨address, rest, hQ⟩ := List.exists_cons_of_ne_nil hQ
        obtain ⟨result, r, heq, hpolls⟩ := h.popsRegistrationQueue hC hlast hQ waker
        rw [heq]
        exact ⟨_, _, rfl, hpolls⟩
  · obtain ⟨address, rest, hC⟩ := List.exists_cons_of_ne_nil hC
    obtain ⟨result, r, heq, hpolls⟩ := h.popsCleanUpQueue hC waker
    rw [heq]
    exact ⟨_, _, rfl, hpolls⟩

end System.Inv

end Emcyphal.RxMsg
