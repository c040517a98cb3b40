import Emcyphal.Registry.Converge
import Mathlib.Data.Finset.Card

/-!
# Subject slots

A driver has a number of slots for subjects, and the registry counts those that are free: a slot is
taken when the first entry of a subject is registered, and it should be free again when the last one
is gone.  The code frees it at the wrong times on some paths.  `DoubleCredits` says when a slot is
freed although its subject is still registered, and `Leaks` when it is not freed although its
subject is gone.  On the runs without the former the driver never holds more subjects than it has
slots, and on those without the latter no slot is lost.
-/

set_option autoImplicit false

namespace Emcyphal.RxMsg

open Rust Tree RegularInner

namespace RegularInner

/-- The subjects with a registered entry. -/
def subjects (r : RegularInner) : Finset SubjectId := (r.entries.map Entry.subject).toFinset

/-- The slot of a subject is freed twice: by an active entry before others of the subject, where the
gap before it is marked, or by the last active entry while others of the subject are inactive. -/
def DoubleCredits (r : RegularInner) (token : Address) : Prop :=
  ∃ as e bs, r.activeEntryTree = as ++ e :: bs ∧ e.address = token ∧ e.isHead = true ∧
    ((∃ n ∈ bs.head?, n.subject = e.subject) ∧ e.address ∈ r.cleanUpQueue ∨
      (∀ n ∈ bs.head?, n.subject ≠ e.subject ∧ n.address ∉ r.cleanUpQueue) ∧
        ∃ x ∈ r.inactiveEntryTree, x.subject = e.subject)

/-- There is no other entry of the subject. -/
def IsLast (r : RegularInner) (e : Entry) : Prop :=
  ∀ x ∈ r.entries, x.address ≠ e.address → x.subject ≠ e.subject

/-- The slot of a subject is not freed although the entry is the last one of the subject: it is
inactive, or the gap after it is marked. -/
def Leaks (r : RegularInner) (token : Address) : Prop :=
  (∃ e ∈ r.inactiveEntryTree, e.address = token ∧ r.IsLast e) ∨
    ∃ as e bs, r.activeEntryTree = as ++ e :: bs ∧ e.address = token ∧ r.IsLast e ∧
      ∃ n ∈ bs.head?, n.address ∈ r.cleanUpQueue

instance (r : RegularInner) (e : Entry) : Decidable (r.IsLast e) :=
  inferInstanceAs (Decidable (∀ x ∈ r.entries, x.address ≠ e.address → x.subject ≠ e.subject))

instance (r : RegularInner) (token : Address) : Decidable (r.DoubleCredits token) := by
  unfold DoubleCredits; infer_instance

instance (r : RegularInner) (token : Address) : Decidable (r.Leaks token) := by
  unfold Leaks; infer_instance

end RegularInner

variable {s s' : System} {e : Entry} {r : RegularInner}

theorem mem_subjects {d : SubjectId} : d ∈ r.subjects ↔ ∃ x ∈ r.entries, x.subject = d := by
  rw [subjects, List.mem_toFinset, List.mem_map]

theorem mem_subjects_iff {d : SubjectId} :
    d ∈ r.subjects ↔ d ∈ r.activeEntryTree.map Entry.subject ∨
      d ∈ r.inactiveEntryTree.map Entry.subject := by
  rw [subjects, List.mem_toFinset, entries, List.map_append, List.mem_append]

/-! ## Registration and activation -/

/-- A slot is taken exactly for a new subject. -/
theorem Registers.accounts {address : Address} {subject : SubjectId}
    {result : Except RegistrationError Address} (hr : Registers s.inner address subject result r) :
    r.freeSlotCount = s.inner.freeSlotCount ∧ r.subjects = s.inner.subjects ∨
      r.freeSlotCount + 1 = s.inner.freeSlotCount ∧ subject ∉ s.inner.subjects ∧
        r.subjects = insert subject s.inner.subjects := by
  cases hr with
  | enqueued hI hmem =>
    refine .inl ⟨rfl, Finset.ext fun d ↦ ?_⟩
    have hsame := List.mem_map.mpr hmem
    simp only [mem_subjects_iff, hI, List.map_append, List.map_cons, List.mem_append, List.mem_cons]
    constructor
    · rintro (h | h | rfl | h)
      · exact .inl h
      · exact .inr (.inl h)
      · exact .inr (.inl hsame)
      · exact .inr (.inr h)
    · tauto
  | active _ hA hmem =>
    refine .inl ⟨rfl, Finset.ext fun d ↦ ?_⟩
    have hsame := List.mem_map.mpr hmem
    simp only [mem_subjects_iff, hA, List.map_append, List.map_cons, List.mem_append, List.mem_cons]
    constructor
    · rintro ((h | rfl | h) | h)
      · exact .inl (.inl h)
      · exact .inl (.inl hsame)
      · exact .inl (.inr h)
      · exact .inr h
    · tauto
  | full => exact .inl ⟨rfl, rfl⟩
  | fresh hnot hfree hI =>
    refine .inr ⟨Nat.sub_add_cancel hfree, ?_, Finset.ext fun d ↦ ?_⟩
    · rw [mem_subjects]
      rintro ⟨x, hx, heq⟩
      exact hnot x hx heq
    · simp only [Finset.mem_insert, mem_subjects_iff, wake, hI, List.map_append, List.map_cons,
        List.mem_append, List.mem_cons]
      tauto

/-- A filter update has nothing to do with the slots. -/
theorem Polls.accounts {waker : Waker} {result : Option (Except CallAgain FilterUpdate)}
    (hp : Polls s.inner waker result r) :
    r.freeSlotCount = s.inner.freeSlotCount ∧ r.subjects = s.inner.subjects := by
  cases hp with
  | cleanUp | cleanUpLast | pending => exact ⟨rfl, rfl⟩
  | activate _ _ _ hI hA =>
    refine ⟨rfl, Finset.ext fun d ↦ ?_⟩
    simp only [mem_subjects_iff, hI, hA, List.map_append, List.map_cons, List.mem_append,
      List.mem_cons]
    tauto

/-! ## Unregistration -/

theorem map_subject_promote (bs : List Entry) :
    (promote bs).map Entry.subject = bs.map Entry.subject := by
  cases bs <;> rfl

theorem Unregisters.subjects_eq (hr : Unregisters s.inner e r) :
    s.inner.subjects = insert e.subject r.subjects := by
  ext d
  cases hr with
  | head hA =>
    simp only [Finset.mem_insert, mem_subjects_iff, headRemoved, hA, List.map_append, List.map_cons,
      map_subject_promote, List.mem_append, List.mem_cons]
    tauto
  | tail hA =>
    simp only [Finset.mem_insert, mem_subjects_iff, hA, List.map_append, List.map_cons,
      List.mem_append, List.mem_cons]
    tauto
  | inactive hI =>
    simp only [Finset.mem_insert, mem_subjects_iff, hI, List.map_append, List.map_cons,
      List.mem_append, List.mem_cons]
    tauto

theorem Unregisters.freeSlotCount_le (hr : Unregisters s.inner e r) :
    s.inner.freeSlotCount ≤ r.freeSlotCount ∧ r.freeSlotCount ≤ s.inner.freeSlotCount + 1 := by
  cases hr with
  | head =>
    dsimp only [headRemoved]
    split <;> omega
  | tail | inactive => exact ⟨le_rfl, Nat.le_succ _⟩

/-- A slot that is freed for a subject that stays is freed twice. -/
theorem Unregisters.doubleCredits (h : s.Inv) (hr : Unregisters s.inner e r)
    (hfree : r.freeSlotCount ≠ s.inner.freeSlotCount) (hstays : e.subject ∈ r.subjects) :
    s.inner.DoubleCredits e.address := by
  cases hr with
  | tail | inactive => exact absurd rfl hfree
  | @head as bs e hA hhead =>
    dsimp only [headRemoved] at hfree
    have hcredits : s.inner.credits e bs = true := by
      by_contra hnot
      rw [if_neg hnot] at hfree
      exact hfree rfl
    refine ⟨as, e, bs, hA, rfl, hhead, ?_⟩
    by_cases hgone : ∀ x ∈ as ++ bs, x.subject ≠ e.subject
    · refine .inr ⟨fun n hn ↦ ⟨?_, ?_⟩, ?_⟩
      · exact hgone n (List.mem_append_right _ (List.mem_of_mem_head? hn))
      · obtain ⟨rest, rfl⟩ := List.head?_eq_some_iff.mp hn
        rw [credits, Bool.and_eq_true] at hcredits
        simpa using hcredits.2
      · rw [mem_subjects_iff] at hstays
        refine List.mem_map.mp (hstays.resolve_left fun hactive ↦ ?_)
        dsimp only [headRemoved] at hactive
        rw [List.map_append, map_subject_promote, ← List.map_append] at hactive
        obtain ⟨x, hx, heq⟩ := List.mem_map.mp hactive
        exact hgone x hx heq
    · -- The next entry is of the same subject, and is not a head.
      rw [h.head_gone_iff hA hhead] at hgone
      push Not at hgone
      obtain ⟨n, hn, htail⟩ := hgone
      have hfollows := h.follows_next hA n hn
      obtain ⟨rest, rfl⟩ := List.head?_eq_some_iff.mp hn
      refine .inl ⟨⟨n, rfl, ?_⟩, ?_⟩
      · exact (hfollows.resolve_left fun hlt ↦ htail hlt.2).1.symm
      · rw [credits, Bool.and_eq_true, Bool.or_eq_true] at hcredits
        simpa using hcredits.1.resolve_right htail

/-- All other entries stay registered. -/
theorem Unregisters.mem_of_ne (hr : Unregisters s.inner e r) {x : Entry}
    (hx : x ∈ s.inner.entries) (hne : x.address ≠ e.address) : x.subject ∈ r.subjects := by
  have hne : x ≠ e := fun heq ↦ hne (heq ▸ rfl)
  rw [mem_subjects_iff]
  rcases List.mem_append.mp hx with hx | hx
  · refine .inl ?_
    cases hr with
    | head hA =>
      rw [hA] at hx
      dsimp only [headRemoved]
      rw [List.map_append, map_subject_promote, ← List.map_append]
      exact List.mem_map_of_mem (mem_append_of_ne hx hne)
    | tail hA =>
      rw [hA] at hx
      exact List.mem_map_of_mem (mem_append_of_ne hx hne)
    | inactive => exact List.mem_map_of_mem hx
  · refine .inr ?_
    cases hr with
    | head | tail => exact List.mem_map_of_mem hx
    | inactive hI =>
      rw [hI] at hx
      exact List.mem_map_of_mem (mem_append_of_ne hx hne)

/-- A slot that is not freed for a subject that is gone is lost. -/
theorem Unregisters.leaks (h : s.Inv) (hr : Unregisters s.inner e r)
    (hfree : r.freeSlotCount = s.inner.freeSlotCount) (hgone : e.subject ∉ r.subjects) :
    s.inner.Leaks e.address := by
  have hlast : s.inner.IsLast e := fun x hx hne heq ↦ hgone (heq ▸ hr.mem_of_ne hx hne)
  cases hr with
  | @head as bs e hA hhead =>
    refine .inr ⟨as, e, bs, hA, rfl, hlast, ?_⟩
    dsimp only [headRemoved] at hfree
    have hcredits : s.inner.credits e bs = false := by
      by_contra hnot
      rw [if_pos (by simpa using hnot)] at hfree
      omega
    cases bs with
    | nil => cases hcredits
    | cons n rest =>
      have hnodup := h.nodup_active
      rw [hA] at hnodup
      have hne := hlast n (by simp [entries, hA]) ((map_address_ne hnodup).2 n (by simp))
      have hhead' : n.isHead = true :=
        ((h.follows_next hA n rfl).resolve_right fun hsame ↦ hne hsame.1.symm).2
      exact ⟨n, rfl, by simpa [credits, hhead'] using hcredits⟩
  | @tail as bs e hA htail =>
    obtain ⟨x, hx, heq⟩ := (hA ▸ h.layout : Layout (as ++ e :: bs)).mem_of_tail htail
    refine absurd (mem_subjects_iff.mpr (.inl (List.mem_map.mpr ⟨x, ?_, heq⟩))) hgone
    exact List.mem_append_left _ hx
  | inactive hI => exact .inl ⟨e, by simp [hI], rfl, hlast⟩

/-! ## Runs -/

namespace System

/-- The operation gives a slot back twice. -/
def DoubleCredits (s : System) : Op → Prop
  | .unregister token => s.inner.DoubleCredits token
  | _ => False

/-- The operation loses a slot. -/
def Leaks (s : System) : Op → Prop
  | .unregister token => s.inner.Leaks token
  | _ => False

instance (s : System) : (op : Op) → Decidable (s.DoubleCredits op)
  | .unregister token => inferInstanceAs (Decidable (s.inner.DoubleCredits token))
  | .register .. | .poll _ | .pushStart _ | .pushNext => inferInstanceAs (Decidable False)

instance (s : System) : (op : Op) → Decidable (s.Leaks op)
  | .unregister token => inferInstanceAs (Decidable (s.inner.Leaks token))
  | .register .. | .poll _ | .pushStart _ | .pushNext => inferInstanceAs (Decidable False)

/-- Each subject with a registered entry, and each one that the driver holds, has a slot of its
own. -/
structure Bounded (subjectSlotCount : ℕ) (s : System) : Prop where
  inv : s.Inv
  slots : s.inner.freeSlotCount + s.inner.subjects.card ≤ subjectSlotCount
  held : s.held.card ≤ subjectSlotCount

/-- Each slot is free or has a subject. -/
structure Kept (subjectSlotCount : ℕ) (s : System) : Prop where
  inv : s.Inv
  slots : subjectSlotCount ≤ s.inner.freeSlotCount + s.inner.subjects.card

end System

variable {op : Op} {event : Event}

/-- Without double credits there are no more subjects than slots. -/
theorem System.Inv.slots_le {subjectSlotCount : ℕ} (h : s.Inv) (hs : Steps s op s' event)
    (hop : ¬ s.DoubleCredits op)
    (hslots : s.inner.freeSlotCount + s.inner.subjects.card ≤ subjectSlotCount) :
    s'.inner.freeSlotCount + s'.inner.subjects.card ≤ subjectSlotCount := by
  rcases hs with ⟨-, hr⟩ | @⟨e, r, -, hr⟩ | hp | hp | hp
  · rcases hr.accounts with ⟨hfree, hsame⟩ | ⟨hfree, hnew, hinsert⟩
    · rwa [hfree, hsame]
    · rw [hinsert, Finset.card_insert_of_notMem hnew]
      dsimp only
      omega
  · have hsubjects := hr.subjects_eq
    dsimp only
    by_cases hfree : r.freeSlotCount = s.inner.freeSlotCount
    · have hle : r.subjects.card ≤ s.inner.subjects.card :=
        Finset.card_le_card (hsubjects ▸ Finset.subset_insert _ _)
      omega
    · have hgone : e.subject ∉ r.subjects := fun hstays ↦ hop (hr.doubleCredits h hfree hstays)
      rw [hsubjects, Finset.card_insert_of_notMem hgone] at hslots
      have hle := hr.freeSlotCount_le
      omega
  · obtain ⟨hfree, hsame⟩ := hp.accounts
    rwa [hfree, hsame]
  · cases hp <;> exact hslots
  · cases hp <;> exact hslots

/-- Without leaks there are no fewer. -/
theorem System.Inv.le_slots {subjectSlotCount : ℕ} (h : s.Inv) (hs : Steps s op s' event)
    (hop : ¬ s.Leaks op)
    (hslots : subjectSlotCount ≤ s.inner.freeSlotCount + s.inner.subjects.card) :
    subjectSlotCount ≤ s'.inner.freeSlotCount + s'.inner.subjects.card := by
  rcases hs with ⟨-, hr⟩ | @⟨e, r, -, hr⟩ | hp | hp | hp
  · rcases hr.accounts with ⟨hfree, hsame⟩ | ⟨hfree, hnew, hinsert⟩
    · rwa [hfree, hsame]
    · rw [hinsert, Finset.card_insert_of_notMem hnew]
      dsimp only
      omega
  · have hle := hr.freeSlotCount_le
    dsimp only
    by_cases hgone : e.subject ∈ r.subjects
    · rw [hr.subjects_eq, Finset.insert_eq_of_mem hgone] at hslots
      omega
    · have hfree : r.freeSlotCount ≠ s.inner.freeSlotCount := fun hfree ↦
        hop (hr.leaks h hfree hgone)
      rw [hr.subjects_eq, Finset.card_insert_of_notMem hgone] at hslots
      omega
  · obtain ⟨hfree, hsame⟩ := hp.accounts
    rwa [hfree, hsame]
  · cases hp <;> exact hslots
  · cases hp <;> exact hslots

/-- After an update the driver holds no more than before, or subjects of registered entries only. -/
theorem System.Inv.fetch_subset (h : s.Inv) {waker : Waker}
    {result : Option (Except CallAgain FilterUpdate)} (hp : Polls s.inner waker result r) :
    fetch s.held result ⊆ s.held ∨ fetch s.held result ⊆ r.subjects := by
  have h' := h.of_polls hp
  cases hp with
  | cleanUp | cleanUpLast => exact .inl (Finset.filter_subset _ _)
  | pending => exact .inl subset_rfl
  | activate hC hlast =>
    refine .inr fun d hd ↦ ?_
    obtain ⟨x, hx, heq⟩ := (h'.held_iff hC hlast d).mp hd
    exact mem_subjects.mpr ⟨x, List.mem_append_left _ hx, heq⟩

theorem System.Inv.held_card_le {subjectSlotCount : ℕ} (h : s.Inv) (hs : Steps s op s' event)
    (hslots : s'.inner.freeSlotCount + s'.inner.subjects.card ≤ subjectSlotCount)
    (hheld : s.held.card ≤ subjectSlotCount) : s'.held.card ≤ subjectSlotCount := by
  rcases hs with ⟨-, hr⟩ | ⟨-, hr⟩ | hp | hp | hp
  · exact hheld
  · exact hheld
  · rcases h.fetch_subset hp with hsub | hsub
    · exact (Finset.card_le_card hsub).trans hheld
    · have hle := Finset.card_le_card hsub
      dsimp only at hslots ⊢
      omega
  · exact hheld
  · exact hheld

theorem System.Bounded.step {subjectSlotCount : ℕ} (h : s.Bounded subjectSlotCount)
    (hop : s.Valid op ∧ ¬ s.DoubleCredits op) :
    ∃ s' event, s.step op = .ok (s', event) ∧ s'.Bounded subjectSlotCount := by
  obtain ⟨s', event, hstep, hs⟩ := h.inv.steps hop.1
  have hslots := h.inv.slots_le hs hop.2 h.slots
  exact ⟨s', event, hstep, h.inv.of_steps hs, hslots, h.inv.held_card_le hs hslots h.held⟩

theorem System.Kept.step {subjectSlotCount : ℕ} (h : s.Kept subjectSlotCount)
    (hop : s.Valid op ∧ ¬ s.Leaks op) :
    ∃ s' event, s.step op = .ok (s', event) ∧ s'.Kept subjectSlotCount := by
  obtain ⟨s', event, hstep, hs⟩ := h.inv.steps hop.1
  exact ⟨s', event, hstep, h.inv.of_steps hs, h.inv.le_slots hs hop.2 h.slots⟩

/-- **The driver holds no more subjects than it has slots**, if no operation gives a slot back
twice. -/
theorem held_le_slots (subjectSlotCount : ℕ) {ops : List Op}
    (hops : Admissible System.step (fun s op ↦ s.Valid op ∧ ¬ s.DoubleCredits op)
      (System.new subjectSlotCount) ops) :
    ∃ s events, run System.step (System.new subjectSlotCount) ops = .ok (s, events) ∧
      s.held.card ≤ subjectSlotCount := by
  have hnew : (System.new subjectSlotCount).Bounded subjectSlotCount :=
    ⟨.new subjectSlotCount, le_rfl, Nat.zero_le _⟩
  obtain ⟨s, events, hrun, h⟩ := run_of_admissible (fun _ _ h hop ↦ h.step hop) hnew hops
  exact ⟨s, events, hrun, h.held⟩

theorem held_le_slots_one_entry :
    ∃ s events, run System.step (System.new 1)
      [.register 1 5, .poll 0, .unregister 1, .register 2 6,
        .poll 0, .poll 0] = .ok (s, events) ∧ s.held.card ≤ 1 :=
  held_le_slots 1 (by decide)

/-- The first of two entries is unregistered before the other one is active, and the driver is asked
to hold two subjects. -/
theorem held_exceeds_slots :
    Admissible System.step System.Valid (System.new 1) [.register 1 5, .register 2 5, .poll 0,
      .unregister 1, .register 3 7, .poll 0, .poll 0, .poll 0] ∧
    ∃ s events, run System.step (System.new 1) [.register 1 5, .register 2 5, .poll 0,
      .unregister 1, .register 3 7, .poll 0, .poll 0, .poll 0] = .ok (s, events) ∧
      ¬ s.held.card ≤ 1 :=
  ⟨by decide, _, _, rfl, by decide⟩

/-- **An entry is rejected only when all slots are taken**, if no operation loses a slot: its
subject is new, and there are as many other subjects as slots.  Nothing changes then. -/
theorem rejected_only_without_slots (subjectSlotCount : ℕ) {ops : List Op}
    (hops : Admissible System.step (fun s op ↦ s.Valid op ∧ ¬ s.Leaks op)
      (System.new subjectSlotCount) ops) :
    ∃ s events, run System.step (System.new subjectSlotCount) ops = .ok (s, events) ∧
      ∀ address subject error, (s.inner.regRegister address subject).1 = .error error →
        error = .noSubjectSlotLeft ∧ (∀ e ∈ s.inner.entries, e.subject ≠ subject) ∧
          subjectSlotCount ≤ s.inner.subjects.card ∧
          (s.inner.regRegister address subject).2 = s.inner := by
  have hnew : (System.new subjectSlotCount).Kept subjectSlotCount :=
    ⟨.new subjectSlotCount, le_rfl⟩
  obtain ⟨s, events, hrun, h⟩ := run_of_admissible (fun _ _ h hop ↦ h.step hop) hnew hops
  refine ⟨s, events, hrun, fun address subject error herror ↦ ?_⟩
  have hr := h.inv.registers address subject
  generalize s.inner.regRegister address subject = result at hr herror ⊢
  obtain ⟨result, r⟩ := result
  cases hr with
  | enqueued | active | fresh => cases herror
  | full hnot hfree =>
    cases herror
    have hslots := h.slots
    rw [hfree, Nat.zero_add] at hslots
    exact ⟨rfl, hnot, hslots, rfl⟩

theorem rejected_only_without_slots_one_entry :
    ∃ s events, run System.step (System.new 1) [.register 1 5, .register 2 5, .poll 0] =
        .ok (s, events) ∧
      ∀ error, (s.inner.regRegister 3 6).1 = .error error → 1 ≤ s.inner.subjects.card := by
  obtain ⟨s, events, hrun, h⟩ := rejected_only_without_slots 1 (by decide :
    Admissible System.step (fun s op ↦ s.Valid op ∧ ¬ s.Leaks op) (System.new 1)
      [.register 1 5, .register 2 5, .poll 0])
  exact ⟨s, events, hrun, fun error herror ↦ (h 3 6 error herror).2.2.1⟩

/-- The only entry is unregistered before it is active, and its slot is never free again. -/
theorem rejected_without_entries :
    Admissible System.step System.Valid (System.new 1) [.register 1 5, .unregister 1] ∧
    ∃ s events, run System.step (System.new 1) [.register 1 5, .unregister 1] = .ok (s, events) ∧
      (s.inner.regRegister 2 7).1 = .error .noSubjectSlotLeft ∧ s.inner.entries = [] ∧
      ¬ 1 ≤ s.inner.subjects.card :=
  ⟨by decide, _, _, rfl, rfl, rfl, by decide⟩

end Emcyphal.RxMsg
