import Emcyphal.Can.Format
import Emcyphal.Lib.Slots
import Emcyphal.Registry.Filter

/-!
# The filters of the Embassy driver

`RxFilterRunner` of `emcyphal-stm32-embassy/src/driver.rs`.  The runner keeps a table of the
subjects, and sets a filter of the peripheral for each slot.  The service filter is one more filter;
the updates of it are left out.

The filters are bit masks, and both the identifier of a frame and the pattern are compared under the
mask (`ExtendedFilter.Accepts`).  The number of filters is a constant of the HAL that the driver is
built on, which is a parameter here.  A filter that was not set yet accepts nothing.

The pattern of an empty slot is one that no frame has.  Under the mask, however, nothing is left of
it, so that a slot that was emptied accepts the messages of subject 0: `filters_exact_iff` says when
this makes a difference.
-/

set_option autoImplicit false

namespace Emcyphal.Can.Embassy

open Rust BitField Slots

inductive Action
  | storeInFifo0
  | storeInFifo1
deriving DecidableEq

/-- A filter of the type `BitMask`. -/
structure ExtendedFilter where
  filter : BitVec 32
  mask : BitVec 32
  action : Action
deriving DecidableEq

/-- The frame is accepted and stored in the first FIFO. -/
def ExtendedFilter.Accepts (elem : ExtendedFilter) (canId : BitVec 32) : Prop :=
  elem.action = .storeInFifo0 ∧ canId &&& elem.mask = elem.filter &&& elem.mask

def MESSAGE_FILTER_OFFSET : ℕ := 0

/-- The filters of the peripheral, and the table. -/
structure RxFilterRunner where
  can : List (Option ExtendedFilter)
  subjects : List (Option SubjectId)

/-- `u8::try_from`. -/
def tryFromUsize (value : ℕ) : Option (Fin 256) :=
  if h : value < 256 then some ⟨value, h⟩ else none

def subjectFilter (value : Option SubjectId) : ExtendedFilter where
  filter := makeMsgFilterPattern value
  mask := MSG_FILTER_MASK
  action := .storeInFifo0

def setSubjectFilter (can : List (Option ExtendedFilter)) (slot : Fin 256)
    (value : Option SubjectId) : Exec (List (Option ExtendedFilter)) :=
  assign can (MESSAGE_FILTER_OFFSET + slot) (some (subjectFilter value))

namespace RxFilterRunner

/-- All filters but one are for messages. -/
def new (extendedFilterMax : Fin 256) : RxFilterRunner where
  can := List.replicate extendedFilterMax none
  subjects := List.replicate (extendedFilterMax - 1) none

/-- `none` is `NoFreeSlots`. -/
def addSubject (r : RxFilterRunner) (subject : SubjectId) : Exec (Option RxFilterRunner) := do
  match r.subjects.findIdx? Option.isNone with
  | none => return none
  | some idx =>
    let subjects ← assign r.subjects idx (some subject)
    let slot ← unwrap (tryFromUsize idx)
    let can ← setSubjectFilter r.can slot (some subject)
    return some ⟨can, subjects⟩

/-- The loop over the slots, from the one with index `i` on.  An empty slot is less than any
subject. -/
def removeFrom (first last : SubjectId) : ℕ → List (Option ExtendedFilter) →
    List (Option SubjectId) → Exec (List (Option ExtendedFilter) × List (Option SubjectId))
  | _, can, [] => .ok (can, [])
  | i, can, value :: rest => do
    if value.any (inRange first last) then
      let slot ← unwrap (tryFromUsize i)
      let can ← setSubjectFilter can slot none
      let res ← removeFrom first last (i + 1) can rest
      return (res.1, none :: res.2)
    else
      let res ← removeFrom first last (i + 1) can rest
      return (res.1, value :: res.2)

def removeSubjectRange (r : RxFilterRunner) (first last : SubjectId) : Exec RxFilterRunner := do
  let res ← removeFrom first last 0 r.can r.subjects
  return ⟨res.1, res.2⟩

/-- A filter update is applied. -/
def step (r : RxFilterRunner) : FilterUpdate → Exec (RxFilterRunner × Unit)
  | .addSubject subject => do
    let res ← r.addSubject subject
    let r ← unwrap res
    return (r, ())
  | .removeSubjectRange first last => do
    let r ← r.removeSubjectRange first last
    return (r, ())

/-- There is a slot for a subject that is added. -/
def Valid (r : RxFilterRunner) : FilterUpdate → Prop
  | .addSubject _ => none ∈ r.subjects
  | .removeSubjectRange _ _ => True

instance decidableValid (r : RxFilterRunner) : (update : FilterUpdate) → Decidable (r.Valid update)
  | .addSubject _ => inferInstanceAs (Decidable (none ∈ r.subjects))
  | .removeSubjectRange _ _ => isTrue trivial

/-- Some message filter accepts the frame. -/
def Accepted (r : RxFilterRunner) (canId : BitVec 32) : Prop :=
  ∃ n < r.subjects.length, ∃ elem, r.can[MESSAGE_FILTER_OFFSET + n]? = some (some elem) ∧
    elem.Accepts canId

/-- The frames that the message filters accept are those of the subjects. -/
def Exact (r : RxFilterRunner) (held : Finset SubjectId) : Prop :=
  ∀ canId : BitVec 32, canId.toNat < 2 ^ 29 →
    (r.Accepted canId ↔ ∃ id, MessageCanId.fromCanId canId = some id ∧ id.subject ∈ held)

/-- The filter of an empty slot accepts no valid frame, if it was set. -/
def EmptyRejects (r : RxFilterRunner) : Prop :=
  ∀ (n : ℕ) (elem : ExtendedFilter), r.subjects[n]? = some none →
    r.can[MESSAGE_FILTER_OFFSET + n]? = some (some elem) →
    ∀ canId : BitVec 32, canId.toNat < 2 ^ 29 → (MessageCanId.fromCanId canId).isSome = true →
      ¬ elem.Accepts canId

end RxFilterRunner

/-- The subscriptions that a number of updates leave, and how many there were at most. -/
structure Subscriptions where
  subjects : List SubjectId
  peak : ℕ

namespace Subscriptions

def empty : Subscriptions := ⟨[], 0⟩

def after (m : Subscriptions) : FilterUpdate → Subscriptions
  | .addSubject subject => ⟨subject :: m.subjects, max m.peak (m.subjects.length + 1)⟩
  | .removeSubjectRange first last => ⟨m.subjects.filter fun s ↦ !inRange first last s, m.peak⟩

/-- There are as many subscriptions as there ever were. -/
def AtPeak (m : Subscriptions) : Prop := m.subjects.length = m.peak

instance decidableAtPeak (m : Subscriptions) : Decidable m.AtPeak :=
  inferInstanceAs (Decidable (m.subjects.length = m.peak))

theorem toFinset_after (m : Subscriptions) (update : FilterUpdate) :
    (m.after update).subjects.toFinset = update.apply m.subjects.toFinset := by
  cases update with
  | addSubject subject => exact List.toFinset_cons
  | removeSubjectRange first last =>
    ext subject
    rw [after, FilterUpdate.apply, List.mem_toFinset, List.mem_filter, Finset.mem_filter,
      List.mem_toFinset, Bool.not_eq_true', ← Bool.not_eq_true, inRange_iff]

/-- The subscriptions are those of the set that the updates are meant for. -/
theorem toFinset_foldl (updates : List FilterUpdate) :
    (updates.foldl after empty).subjects.toFinset = updates.foldl FilterUpdate.apply ∅ :=
  (List.foldl_hom (fun m : Subscriptions ↦ m.subjects.toFinset)
    fun m update ↦ (toFinset_after m update).symm).symm

end Subscriptions

/-! ## One filter -/

variable {canId : BitVec 32}

/-- An empty slot accepts what one for subject 0 accepts. -/
theorem accepts_subjectFilter_iff {value : Option SubjectId} : (subjectFilter value).Accepts canId ↔
    ∃ id, MessageCanId.fromCanId canId = some id ∧ id.subject = value.getD 0 := by
  have hpattern : makeMsgFilterPattern value &&& MSG_FILTER_MASK =
      makeMsgFilterPattern (some (value.getD 0)) := by
    cases value with
    | none => decide
    | some subject => exact makeMsgFilterPattern_and subject
  rw [ExtendedFilter.Accepts, ← and_makeMsgFilterPattern_iff, ← hpattern]
  exact and_iff_right rfl

/-- There is an identifier for each subject. -/
theorem exists_fromCanId (subject : SubjectId) : ∃ canId : BitVec 32, canId.toNat < 2 ^ 29 ∧
    ∃ id, MessageCanId.fromCanId canId = some id ∧ id.subject = subject := by
  refine ⟨(MessageCanId.new.setSubject subject).val, MessageCanId.val_lt _, _,
    MessageCanId.fromCanId_val _, Fin.ext ?_⟩
  rw [MessageCanId.subject_eq]
  exact field_put_ofNat (by decide) subject.isLt

/-! ## The table -/

namespace RxFilterRunner

/-- The slots that were ever used are the first ones.  There is a filter for each of the others, and
it is not set yet. -/
structure Mirrors (used : List (Option SubjectId)) (r : RxFilterRunner) : Prop where
  slots : ∃ k m, k ≤ m ∧ r.subjects = used ++ List.replicate k none ∧
    r.can = used.map (fun value ↦ some (subjectFilter value)) ++ List.replicate m none
  length : r.subjects.length < 256

/-- The table after some updates. -/
structure Holds (m : Subscriptions) (used : List (Option SubjectId)) (r : RxFilterRunner) : Prop
    extends Mirrors used r where
  held : used.reduceOption.Perm m.subjects
  peak : used.length = m.peak

variable {r : RxFilterRunner} {m : Subscriptions} {used : List (Option SubjectId)}

theorem tryFromUsize_of_lt {n : ℕ} (h : n < 256) : tryFromUsize n = some ⟨n, h⟩ := dif_pos h

theorem setSubjectFilter_eq {can : List (Option ExtendedFilter)} {n : ℕ} (hn : n < can.length)
    (hlength : n < 256) (value : Option SubjectId) :
    setSubjectFilter can ⟨n, hlength⟩ value = .ok (can.set n (some (subjectFilter value))) := by
  rw [setSubjectFilter, MESSAGE_FILTER_OFFSET, Nat.zero_add, assign_of_lt hn]

theorem holds_new (extendedFilterMax : Fin 256) :
    (new extendedFilterMax).Holds .empty [] := by
  refine ⟨⟨⟨_, _, Nat.sub_le _ 1, rfl, rfl⟩, ?_⟩, .refl _, rfl⟩
  rw [new, List.length_replicate]
  exact (Nat.sub_le _ 1).trans_lt extendedFilterMax.isLt

theorem Mirrors.length_le (h : r.Mirrors used) : r.subjects.length ≤ r.can.length := by
  obtain ⟨k, l, hkl, hsubjects, hcan⟩ := h.slots
  rw [hsubjects, hcan, List.length_append, List.length_append, List.length_map,
    List.length_replicate, List.length_replicate]
  exact Nat.add_le_add_left hkl _

theorem Mirrors.addSubject_eq (h : r.Mirrors used) {i : ℕ}
    (hi : r.subjects.findIdx? Option.isNone = some i) (subject : SubjectId) :
    r.addSubject subject = .ok (some ⟨r.can.set i (some (subjectFilter (some subject))),
      r.subjects.set i (some subject)⟩) := by
  have hlt : i < r.subjects.length := (List.getElem?_eq_some_iff.mp (getElem?_of_findIdx? hi)).1
  rw [addSubject, hi]
  dsimp only
  rw [assign_of_lt hlt, ok_bind, tryFromUsize_of_lt (hlt.trans h.length), unwrap_some, ok_bind,
    setSubjectFilter_eq (hlt.trans_le h.length_le)]
  rfl

/-- A subject is put into a slot that was emptied, or into the first one that was never used. -/
theorem Mirrors.set (h : r.Mirrors used) {i : ℕ}
    (hi : r.subjects.findIdx? Option.isNone = some i) (value : Option SubjectId) :
    used[i]? = some none ∧
        Mirrors (used.set i value) ⟨r.can.set i (some (subjectFilter value)),
          r.subjects.set i value⟩ ∨
      none ∉ used ∧ Mirrors (used ++ [value]) ⟨r.can.set i (some (subjectFilter value)),
        r.subjects.set i value⟩ := by
  obtain ⟨k, l, hkl, hsubjects, hcan⟩ := h.slots
  have hlength : (r.subjects.set i value).length < 256 := by
    rw [List.length_set]
    exact h.length
  rw [hsubjects, List.findIdx?_append] at hi
  cases hused : used.findIdx? Option.isNone with
  | some j =>
    rw [hused, Option.some_or] at hi
    cases hi
    have hslot := getElem?_of_findIdx? hused
    have hlt : i < used.length := (List.getElem?_eq_some_iff.mp hslot).1
    refine .inl ⟨hslot, ⟨k, l, hkl, ?_, ?_⟩, hlength⟩
    · rw [hsubjects, List.set_append_left _ _ hlt]
    · rw [hcan, List.set_append_left _ _ (by rwa [List.length_map]), List.map_set]
  | none =>
    rw [hused, Option.none_or] at hi
    cases k with
    | zero => cases hi
    | succ k =>
      have hi : i = used.length := by
        simpa [List.replicate_succ, List.findIdx?_cons, eq_comm] using hi
      obtain ⟨l, rfl⟩ := Nat.exists_eq_add_of_lt (Nat.lt_of_succ_le hkl)
      have hfull : none ∉ used := fun hmem ↦
        Option.some_ne_none _ ((exists_findIdx? hmem).choose_spec.symm.trans hused)
      refine .inr ⟨hfull, ⟨k, k + l, Nat.le_add_right k l, ?_, ?_⟩, hlength⟩
      · rw [hsubjects, hi, List.set_append_right _ _ le_rfl, Nat.sub_self, List.replicate_succ,
          List.set_cons_zero, List.append_assoc, List.singleton_append]
      · rw [hcan, hi, List.set_append_right _ _ (by rw [List.length_map]), List.length_map,
          Nat.sub_self, List.replicate_succ, List.set_cons_zero, List.map_append, List.append_assoc]
        rfl

theorem Holds.addSubject (h : r.Holds m used) (hfree : none ∈ r.subjects) (subject : SubjectId) :
    ∃ r' used', r.addSubject subject = .ok (some r') ∧
      r'.Holds (m.after (.addSubject subject)) used' := by
  obtain ⟨i, hi⟩ := exists_findIdx? hfree
  rcases h.toMirrors.set hi (some subject) with ⟨hslot, hmirrors⟩ | ⟨hfull, hmirrors⟩
  · have hperm := (reduceOption_set (a := subject) hslot).trans (h.held.cons subject)
    refine ⟨_, _, h.toMirrors.addSubject_eq hi subject, hmirrors, hperm, ?_⟩
    have hle := List.reduceOption_length_le (used.set i (some subject))
    rw [hperm.length_eq, List.length_set, List.length_cons, h.peak] at hle
    rw [List.length_set, h.peak]
    exact (max_eq_left hle).symm
  · refine ⟨_, _, h.toMirrors.addSubject_eq hi subject, hmirrors, ?_, ?_⟩
    · rw [List.reduceOption_append]
      exact (List.perm_append_singleton subject _).trans (h.held.cons subject)
    · have hle : m.peak = m.subjects.length := by
        rw [← h.peak, ← h.held.length_eq]
        exact (le_of_not_gt (mt List.reduceOption_length_lt_iff.mp hfull)).antisymm
          (List.reduceOption_length_le used)
      rw [List.length_append, List.length_singleton, h.peak, Subscriptions.after, hle]
      exact (max_eq_right (Nat.le_succ _)).symm

/-- Nothing is removed from an empty slot. -/
theorem removeFrom_replicate {first last : SubjectId} (i k : ℕ)
    (can : List (Option ExtendedFilter)) : removeFrom first last i can (List.replicate k none) =
      .ok (can, List.replicate k none) := by
  induction k generalizing i with
  | zero => rfl
  | succ k ih =>
    rw [List.replicate_succ, removeFrom, Option.any_none, if_neg Bool.false_ne_true, ih]
    rfl

/-- The loop, when the slots before the index are done. -/
theorem removeFrom_eq {first last : SubjectId} {spare : List (Option ExtendedFilter)} (k : ℕ)
    (done rest : List (Option SubjectId)) (hlength : (done ++ rest).length < 256) :
    removeFrom first last done.length
        ((done ++ rest).map (fun value ↦ some (subjectFilter value)) ++ spare)
        (rest ++ List.replicate k none) =
      .ok ((done ++ rest.map (clear (inRange first last))).map
          (fun value ↦ some (subjectFilter value)) ++ spare,
        rest.map (clear (inRange first last)) ++ List.replicate k none) := by
  induction rest generalizing done with
  | nil => exact removeFrom_replicate _ k _
  | cons value rest ih =>
    set value' := clear (inRange first last) value with hvalue'
    have hdone : (done ++ [value']).length = done.length + 1 := List.length_append
    have hrest : (done ++ [value'] ++ rest).length < 256 := by simpa using hlength
    have hloop := ih _ hrest
    rw [hdone, List.append_assoc, List.singleton_append, List.append_assoc,
      List.singleton_append] at hloop
    have hbound : done.length < (done ++ value :: rest).length := by
      rw [List.length_append, List.length_cons]
      omega
    rw [List.cons_append, removeFrom, List.map_cons, ← hvalue']
    rw [clear] at hvalue'
    split at hvalue' <;> rename_i hany
    · rw [hvalue'] at hloop ⊢
      rw [if_pos hany, tryFromUsize_of_lt (hbound.trans hlength), unwrap_some, ok_bind,
        setSubjectFilter_eq, List.set_append_left, ← List.map_set, List.set_append_right _ _ le_rfl,
        Nat.sub_self, List.set_cons_zero, ok_bind, hloop]
      · rfl
      · rwa [List.length_map]
      · rw [List.length_append, List.length_map]
        exact Nat.lt_add_right _ hbound
    · rw [if_neg hany, ← hvalue', hloop]
      rfl

theorem Holds.removeSubjectRange (h : r.Holds m used) (first last : SubjectId) :
    ∃ r' used', r.removeSubjectRange first last = .ok r' ∧
      r'.Holds (m.after (.removeSubjectRange first last)) used' := by
  obtain ⟨k, l, hkl, hsubjects, hcan⟩ := h.slots
  have hlength := h.length
  rw [hsubjects, List.length_append] at hlength
  have hloop : removeFrom first last 0 r.can r.subjects = _ :=
    hsubjects ▸ hcan ▸ removeFrom_eq k [] used ((Nat.le_add_right _ _).trans_lt hlength)
  rw [List.nil_append] at hloop
  refine ⟨⟨_, _⟩, used.map (clear (inRange first last)), ?_, ⟨⟨k, l, hkl, rfl, rfl⟩, ?_⟩, ?_, ?_⟩
  · rw [RxFilterRunner.removeSubjectRange, hloop]
    rfl
  · dsimp only
    rwa [List.length_append, List.length_map]
  · rw [reduceOption_clear]
    exact h.held.filter _
  · rw [List.length_map, h.peak]
    rfl

theorem Holds.step (h : r.Holds m used) {update : FilterUpdate} (hupdate : r.Valid update) :
    ∃ r' out, r.step update = .ok (r', out) ∧ ∃ used', r'.Holds (m.after update) used' := by
  cases update with
  | addSubject subject =>
    obtain ⟨r', used', hadd, h'⟩ := h.addSubject hupdate subject
    exact ⟨r', (), by rw [RxFilterRunner.step, hadd]; rfl, used', h'⟩
  | removeSubjectRange first last =>
    obtain ⟨r', used', hremove, h'⟩ := h.removeSubjectRange first last
    exact ⟨r', (), by rw [RxFilterRunner.step, hremove]; rfl, used', h'⟩

/-! ## Which frames are accepted -/

/-- The filter of a slot, if it was set. -/
theorem Mirrors.getElem?_can (h : r.Mirrors used) {n : ℕ} {elem : ExtendedFilter} :
    r.can[MESSAGE_FILTER_OFFSET + n]? = some (some elem) ↔
      ∃ value, used[n]? = some value ∧ elem = subjectFilter value := by
  obtain ⟨k, l, -, -, hcan⟩ := h.slots
  rw [MESSAGE_FILTER_OFFSET, Nat.zero_add, hcan]
  by_cases hn : n < used.length
  · rw [List.getElem?_append_left (by rwa [List.length_map]), List.getElem?_map]
    simp [eq_comm]
  · rw [List.getElem?_append_right (by rw [List.length_map]; exact not_lt.mp hn),
      List.getElem?_replicate, List.getElem?_eq_none (not_lt.mp hn)]
    simp

theorem Mirrors.getElem?_subjects (h : r.Mirrors used) {n : ℕ} {value : Option SubjectId}
    (hn : used[n]? = some value) : r.subjects[n]? = some value := by
  obtain ⟨k, l, -, hsubjects, -⟩ := h.slots
  rw [hsubjects, List.getElem?_append_left (List.getElem?_eq_some_iff.mp hn).1, hn]

/-- A frame is accepted if its subject is held, or is 0 while there is an emptied slot. -/
theorem Holds.accepted_iff (h : r.Holds m used) {canId : BitVec 32} : r.Accepted canId ↔
    ∃ id, MessageCanId.fromCanId canId = some id ∧
      (id.subject ∈ m.subjects ∨ none ∈ used ∧ id.subject = 0) := by
  have hheld : ∀ subject, some subject ∈ used ↔ subject ∈ m.subjects := fun subject ↦ by
    rw [← List.reduceOption_mem_iff, h.held.mem_iff]
  constructor
  · rintro ⟨n, -, elem, helem, haccepts⟩
    obtain ⟨value, hn, rfl⟩ := h.getElem?_can.mp helem
    obtain ⟨id, hid, hsubject⟩ := accepts_subjectFilter_iff.mp haccepts
    refine ⟨id, hid, ?_⟩
    cases value with
    | none => exact .inr ⟨List.mem_of_getElem? hn, hsubject⟩
    | some subject => exact .inl (hsubject ▸ (hheld subject).mp (List.mem_of_getElem? hn))
  · rintro ⟨id, hid, hid'⟩
    have hvalue : ∃ value ∈ used, id.subject = value.getD 0 := by
      rcases hid' with hmem | ⟨hmem, hzero⟩
      · exact ⟨some id.subject, (hheld _).mpr hmem, rfl⟩
      · exact ⟨none, hmem, hzero⟩
    obtain ⟨value, hmem, hsubject⟩ := hvalue
    obtain ⟨n, hn⟩ := List.getElem?_of_mem hmem
    exact ⟨n, (List.getElem?_eq_some_iff.mp (h.getElem?_subjects hn)).1, subjectFilter value,
      h.getElem?_can.mpr ⟨value, hn, rfl⟩, accepts_subjectFilter_iff.mpr ⟨id, hid, hsubject⟩⟩

/-- There is no emptied slot while there are as many subscriptions as there ever were. -/
theorem Holds.atPeak_iff (h : r.Holds m used) : m.AtPeak ↔ none ∉ used := by
  rw [Subscriptions.AtPeak, ← List.reduceOption_length_lt_iff, h.held.length_eq, h.peak, not_lt]
  refine ⟨fun heq ↦ heq.ge, fun hle ↦ hle.antisymm' ?_⟩
  rw [← h.peak, ← h.held.length_eq]
  exact List.reduceOption_length_le used

theorem Holds.exact_iff (h : r.Holds m used) :
    r.Exact m.subjects.toFinset ↔ 0 ∈ m.subjects.toFinset ∨ m.AtPeak := by
  rw [h.atPeak_iff]
  constructor
  · intro hexact
    by_contra hcontra
    obtain ⟨hzero, hempty⟩ := not_or.mp hcontra
    obtain ⟨canId, hcanId, id, hid, hsubject⟩ := exists_fromCanId 0
    have haccepted : r.Accepted canId :=
      h.accepted_iff.mpr ⟨id, hid, .inr ⟨not_not.mp hempty, hsubject⟩⟩
    obtain ⟨id', hid', hmem⟩ := (hexact canId hcanId).mp haccepted
    rw [hid] at hid'
    cases hid'
    exact hzero (hsubject ▸ hmem)
  · intro hcond canId _
    rw [h.accepted_iff]
    refine exists_congr fun id ↦ and_congr_right fun _ ↦ ?_
    rw [List.mem_toFinset] at *
    refine or_iff_left_of_imp fun ⟨hempty, hsubject⟩ ↦ ?_
    rcases hcond with hzero | hfull
    · rwa [hsubject]
    · exact absurd hempty hfull

theorem Holds.emptyRejects_iff (h : r.Holds m used) : r.EmptyRejects ↔ m.AtPeak := by
  rw [h.atPeak_iff]
  constructor
  · intro hrejects hempty
    obtain ⟨n, hn⟩ := List.getElem?_of_mem hempty
    obtain ⟨canId, hcanId, id, hid, hsubject⟩ := exists_fromCanId 0
    exact hrejects n (subjectFilter none) (h.getElem?_subjects hn)
      (h.getElem?_can.mpr ⟨none, hn, rfl⟩) canId hcanId (Option.isSome_of_eq_some hid)
      (accepts_subjectFilter_iff.mpr ⟨id, hid, hsubject⟩)
  · intro hfull n elem hslot helem
    obtain ⟨value, hn, -⟩ := h.getElem?_can.mp helem
    have hvalue : some value = some none := (h.getElem?_subjects hn).symm.trans hslot
    cases hvalue
    exact absurd (List.mem_of_getElem? hn) hfull

/-- **The filters accept exactly the subjects that are subscribed to while no slot is left empty
that was used**, or while subject 0 is one of them.  An emptied slot accepts valid frames, those of
subject 0. -/
theorem filters_exact_iff (extendedFilterMax : Fin 256) (updates : List FilterUpdate)
    (hupdates : Admissible step Valid (new extendedFilterMax) updates) :
    ∃ r outs, run step (new extendedFilterMax) updates = .ok (r, outs) ∧
      (r.Exact (updates.foldl FilterUpdate.apply ∅) ∧ r.EmptyRejects ↔
        (updates.foldl Subscriptions.after .empty).AtPeak) ∧
      (r.Exact (updates.foldl FilterUpdate.apply ∅) ↔
        0 ∈ updates.foldl FilterUpdate.apply ∅ ∨
          (updates.foldl Subscriptions.after .empty).AtPeak) := by
  obtain ⟨r, outs, hrun, used, hr⟩ := run_of_inputs Subscriptions.after
    (fun m r update (hr : ∃ used, r.Holds m used) hupdate ↦ hr.choose_spec.step hupdate)
    ⟨[], holds_new extendedFilterMax⟩ hupdates
  have hexact := hr.exact_iff
  rw [Subscriptions.toFinset_foldl] at hexact
  refine ⟨r, outs, hrun, ?_, hexact⟩
  rw [hexact, hr.emptyRejects_iff]
  exact and_iff_right_of_imp .inr

/-- A slot is emptied and filled again. -/
theorem filters_exact_iff_refilled : ∃ r outs,
    run step (new 8) [.addSubject 5, .removeSubjectRange 5 5, .addSubject 9] = .ok (r, outs) ∧
      r.Exact {9} ∧ r.EmptyRejects := by
  obtain ⟨r, outs, hrun, hexact, -⟩ := filters_exact_iff 8
    [.addSubject 5, .removeSubjectRange 5 5, .addSubject 9] (by decide)
  exact ⟨r, outs, hrun, hexact.mpr (by decide)⟩

/-- An emptied slot accepts a frame of subject 0, which was never subscribed to. -/
theorem accepted_after_remove : ∃ r outs,
    run step (new 8) [.addSubject 5, .removeSubjectRange 5 5] = .ok (r, outs) ∧
      r.Accepted 0 ∧ (∃ id, MessageCanId.fromCanId 0 = some id ∧ id.subject = 0) ∧
      0 ∉ [FilterUpdate.addSubject 5, .removeSubjectRange 5 5].foldl FilterUpdate.apply ∅ := by
  exact ⟨_, _, rfl, ⟨0, by decide, _, rfl, rfl, by decide⟩, ⟨_, rfl, by decide⟩, by decide⟩

end RxFilterRunner

end Emcyphal.Can.Embassy
