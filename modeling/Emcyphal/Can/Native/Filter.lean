import Emcyphal.Can.Format
import Emcyphal.Can.MessageRam
import Emcyphal.Lib.Slots
import Emcyphal.Registry.Filter

/-!
# The filters of the native driver

`RxFilterRunner` of `emcyphal-stm32-native/src/driver.rs`, with the filter elements of `raw.rs`.
The runner keeps a table of the subjects next to the filter elements, two subjects for each, and
loads it from the elements when it is started.  The service filter has an element of its own; the
updates of it are left out.

An element with two identifiers accepts a frame if one of them is what the global mask leaves of the
identifier of the frame, which is the mask of the message filters (`Accepts`).
-/

set_option autoImplicit false

namespace Emcyphal.Can.Native

open Rust BitField Slots

def MESSAGE_FILTER_COUNT : ℕ := EXTENDED_FILTER_MAX - 1

def MESSAGE_FILTER_OFFSET : ℕ := 0

def SERVICE_FILTER_OFFSET : ℕ := MESSAGE_FILTER_OFFSET + MESSAGE_FILTER_COUNT

abbrev MsgFilter := Option SubjectId × Option SubjectId

/-- What is written to the element of a message filter. -/
def messageFilter (val : MsgFilter) : ExtendedFilter :=
  (((ExtendedFilter.resetValue.setFilterType .dualIdFilter).setEfid1
    (makeMsgFilterPattern val.1)).setEfid2 (makeMsgFilterPattern val.2)).setFilterElementConfig
      .storeInFifo0

def setMessageFilter (elements : List ExtendedFilter) (n : ℕ) (val : MsgFilter) :
    Exec (List ExtendedFilter) := do
  assert (n < MESSAGE_FILTER_COUNT)
  assign elements (MESSAGE_FILTER_OFFSET + n) (messageFilter val)

def getMessageFilter (elements : List ExtendedFilter) (n : ℕ) : Exec MsgFilter := do
  assert (n < MESSAGE_FILTER_COUNT)
  let filter ← index elements (MESSAGE_FILTER_OFFSET + n)
  let filterType ← filter.toFilterType
  assert (filterType = .dualIdFilter)
  return (decodeMsgFilterPattern filter.efid1, decodeMsgFilterPattern filter.efid2)

def serviceFilter (dest : Option NodeId) : ExtendedFilter :=
  (((ExtendedFilter.resetValue.setFilterType .classicFilter).setEfid1
    (makeSrvFilterPattern dest)).setEfid2 SRV_FILTER_MASK).setFilterElementConfig .storeInFifo1

def setServiceFilter (elements : List ExtendedFilter) (dest : Option NodeId) :
    Exec (List ExtendedFilter) :=
  assign elements SERVICE_FILTER_OFFSET (serviceFilter dest)

def initFilters (elements : List ExtendedFilter) : Exec (List ExtendedFilter) := do
  let elements ← (List.range MESSAGE_FILTER_COUNT).foldlM
    (fun elements i ↦ setMessageFilter elements i (none, none)) elements
  setServiceFilter elements none

structure RxFilterRunner where
  filters : List ExtendedFilter
  /-- A variable of `run`. -/
  msgFilters : List MsgFilter

namespace RxFilterRunner

def loadMessageFilters (elements : List ExtendedFilter) : Exec (List MsgFilter) :=
  (List.range MESSAGE_FILTER_COUNT).mapM (getMessageFilter elements)

/-- `run` begins with the filters that are set. -/
def start (elements : List ExtendedFilter) : Exec RxFilterRunner := do
  let msgFilters ← loadMessageFilters elements
  return ⟨elements, msgFilters⟩

def asFlattened (filters : List MsgFilter) : List (Option SubjectId) :=
  filters.flatMap fun filter ↦ [filter.1, filter.2]

def addSubject (r : RxFilterRunner) (subject : SubjectId) : Exec RxFilterRunner := do
  let slotIdx ← unwrap ((asFlattened r.msgFilters).findIdx? Option.isNone)
  let filterIdx := slotIdx / 2
  let filter ← index r.msgFilters filterIdx
  -- `slots[slot_idx] = Some(subject)`, where `slots` is the table without the pairs.
  let filter := if slotIdx % 2 = 0 then (some subject, filter.2) else (filter.1, some subject)
  let msgFilters ← assign r.msgFilters filterIdx filter
  let filters ← setMessageFilter r.filters filterIdx filter
  return ⟨filters, msgFilters⟩

/-- What is left of a filter. -/
def removeSlots (first last : SubjectId) (filter : MsgFilter) : MsgFilter :=
  (clear (inRange first last) filter.1, clear (inRange first last) filter.2)

/-- The loop over the filters, from the one with index `i` on. -/
def removeFrom (first last : SubjectId) : ℕ → List ExtendedFilter → List MsgFilter →
    Exec (List ExtendedFilter × List MsgFilter)
  | _, elements, [] => .ok (elements, [])
  | i, elements, filter :: rest => do
    let updateFilter := filter.1.any (inRange first last) || filter.2.any (inRange first last)
    let filter := removeSlots first last filter
    let elements ← if updateFilter then setMessageFilter elements i filter else pure elements
    let res ← removeFrom first last (i + 1) elements rest
    return (res.1, filter :: res.2)

def removeSubjectRange (r : RxFilterRunner) (first last : SubjectId) : Exec RxFilterRunner := do
  let res ← removeFrom first last 0 r.filters r.msgFilters
  return ⟨res.1, res.2⟩

inductive Op
  | update (request : FilterUpdate)
  /-- `run` is called again. -/
  | restart
deriving DecidableEq

def step (r : RxFilterRunner) : Op → Exec (RxFilterRunner × Unit)
  | .update (.addSubject subject) => do
    let r ← r.addSubject subject
    return (r, ())
  | .update (.removeSubjectRange first last) => do
    let r ← r.removeSubjectRange first last
    return (r, ())
  | .restart => do
    let r ← start r.filters
    return (r, ())

/-- There is a slot for a subject that is added. -/
def Valid (r : RxFilterRunner) : Op → Prop
  | .update (.addSubject _) => none ∈ asFlattened r.msgFilters
  | _ => True

instance decidableValid (r : RxFilterRunner) : (op : Op) → Decidable (r.Valid op)
  | .update (.addSubject _) => inferInstanceAs (Decidable (none ∈ asFlattened r.msgFilters))
  | .update (.removeSubjectRange _ _) | .restart => isTrue trivial

end RxFilterRunner

/-- The frame is accepted and stored in the first FIFO. -/
def Accepts (elem : ExtendedFilter) (canId : BitVec 32) : Prop :=
  elem.eft = FilterType.dualIdFilter.code ∧ elem.efec = FilterElementConfig.storeInFifo0.code ∧
    (canId &&& MSG_FILTER_MASK = elem.efid1 ∨ canId &&& MSG_FILTER_MASK = elem.efid2)

/-! ## One element -/

theorem makeMsgFilterPattern_lt (val : Option SubjectId) :
    (makeMsgFilterPattern val).toNat < 2 ^ 29 := by
  cases val with
  | none => decide
  | some subject =>
    have hlt : (BitVec.ofNat 32 subject.val).toNat < 2 ^ 13 := toNat_ofNat_lt subject.isLt
    rw [makeMsgFilterPattern_some, BitVec.toNat_shiftLeft, Nat.shiftLeft_eq]
    exact (Nat.mod_le _ _).trans_lt (by omega)

variable {val : MsgFilter} {canId : BitVec 32}

theorem efid1_messageFilter (val : MsgFilter) :
    (messageFilter val).efid1 = makeMsgFilterPattern val.1 :=
  calc (messageFilter val).efid1
      = load (store 0 0x1FFFFFFF#32 0 (makeMsgFilterPattern val.1)) 0x1FFFFFFF#32 0 :=
        load_store_of_disjoint ExtendedFilter.efec_mask ExtendedFilter.efid_mask (by decide)
          (by decide) (by decide) (.inl (by decide))
    _ = makeMsgFilterPattern val.1 :=
        load_store ExtendedFilter.efid_mask (by decide) (makeMsgFilterPattern_lt val.1)

theorem efid2_messageFilter (val : MsgFilter) :
    (messageFilter val).efid2 = makeMsgFilterPattern val.2 :=
  load_store ExtendedFilter.efid_mask (by decide) (makeMsgFilterPattern_lt val.2)

theorem efec_messageFilter (val : MsgFilter) :
    (messageFilter val).efec = FilterElementConfig.storeInFifo0.code :=
  congrArg (BitVec.setWidth 8) (load_store ExtendedFilter.efec_mask (by decide) (by decide))

theorem eft_messageFilter (val : MsgFilter) :
    (messageFilter val).eft = FilterType.dualIdFilter.code :=
  congrArg (BitVec.setWidth 8) <|
    calc load (messageFilter val).word1 0x03#32 30
        = load (store 0 0x03#32 30 (FilterType.dualIdFilter.code.setWidth 32)) 0x03#32 30 :=
          load_store_of_disjoint ExtendedFilter.efid_mask ExtendedFilter.eft_mask (by decide)
            (by decide) (makeMsgFilterPattern_lt val.2) (.inr (by decide))
      _ = FilterType.dualIdFilter.code.setWidth 32 :=
          load_store ExtendedFilter.eft_mask (by decide) (by decide)

/-- An element accepts the subjects in its slots. -/
theorem accepts_messageFilter_iff : Accepts (messageFilter val) canId ↔
    ∃ id, MessageCanId.fromCanId canId = some id ∧ (val.1 = some id.subject ∨
      val.2 = some id.subject) := by
  have hslot : ∀ slot : Option SubjectId, canId &&& MSG_FILTER_MASK = makeMsgFilterPattern slot ↔
      ∃ id, MessageCanId.fromCanId canId = some id ∧ slot = some id.subject := by
    intro slot
    cases slot with
    | none => exact iff_of_false (and_makeMsgFilterPattern_none canId) (by simp)
    | some subject =>
      rw [and_makeMsgFilterPattern_iff]
      exact exists_congr fun id ↦ and_congr_right fun _ ↦ by rw [eq_comm, Option.some_inj]
  rw [Accepts, efid1_messageFilter, efid2_messageFilter, hslot, hslot]
  constructor
  · rintro ⟨-, -, ⟨id, hid, h⟩ | ⟨id, hid, h⟩⟩
    · exact ⟨id, hid, .inl h⟩
    · exact ⟨id, hid, .inr h⟩
  · rintro ⟨id, hid, h | h⟩
    · exact ⟨eft_messageFilter val, efec_messageFilter val, .inl ⟨id, hid, h⟩⟩
    · exact ⟨eft_messageFilter val, efec_messageFilter val, .inr ⟨id, hid, h⟩⟩

/-- A message filter is read as it was written. -/
theorem getMessageFilter_eq {elements : List ExtendedFilter} {n : ℕ} (hn : n < MESSAGE_FILTER_COUNT)
    (helem : elements[n]? = some (messageFilter val)) : getMessageFilter elements n = .ok val := by
  have htype : (messageFilter val).toFilterType = .ok .dualIdFilter := by
    rw [ExtendedFilter.toFilterType, eft_messageFilter]
    rfl
  rw [getMessageFilter, assert_pos hn, ok_bind, MESSAGE_FILTER_OFFSET, Nat.zero_add,
    index_of_getElem? helem, ok_bind, htype, ok_bind, assert_pos rfl, ok_bind, efid1_messageFilter,
    efid2_messageFilter, decode_makeMsgFilterPattern, decode_makeMsgFilterPattern]
  rfl

/-! ## The table -/

namespace RxFilterRunner

theorem asFlattened_set {filters : List MsgFilter} {i : ℕ} {filter : MsgFilter}
    (h : filters[i / 2]? = some filter) (slot : Option SubjectId) :
    asFlattened (filters.set (i / 2) (if i % 2 = 0 then (slot, filter.2) else (filter.1, slot))) =
      (asFlattened filters).set i slot := by
  induction filters generalizing i with
  | nil => cases h
  | cons first filters ih =>
    match i, h with
    | 0, h =>
      cases h
      rfl
    | 1, h =>
      cases h
      rfl
    | i + 2, h =>
      have hdiv : (i + 2) / 2 = i / 2 + 1 := by omega
      rw [hdiv, List.getElem?_cons_succ] at h
      rw [hdiv, Nat.add_mod_right, List.set_cons_succ, asFlattened, List.flatMap_cons,
        ← asFlattened, ih h]
      rfl

theorem asFlattened_clear (p : SubjectId → Bool) (filters : List MsgFilter) :
    asFlattened (filters.map fun filter ↦ (clear p filter.1, clear p filter.2)) =
      (asFlattened filters).map (clear p) := by
  induction filters with
  | nil => rfl
  | cons filter filters ih => exact congrArg ([clear p filter.1, clear p filter.2] ++ ·) ih

theorem length_asFlattened (filters : List MsgFilter) :
    (asFlattened filters).length = 2 * filters.length := by
  induction filters with
  | nil => rfl
  | cons filter filters ih =>
    rw [asFlattened, List.flatMap_cons, List.length_append, ← asFlattened, ih, List.length_cons]
    simp only [List.length_cons, List.length_nil]
    omega

/-- The filter elements are those of the table, and one more. -/
structure Mirrors (r : RxFilterRunner) : Prop where
  length : r.msgFilters.length = MESSAGE_FILTER_COUNT
  filters : ∃ service, r.filters = r.msgFilters.map messageFilter ++ [service]

/-- The table holds these subjects. -/
structure Holds (held : Finset SubjectId) (r : RxFilterRunner) : Prop extends Mirrors r where
  held : ∀ subject, some subject ∈ asFlattened r.msgFilters ↔ subject ∈ held

variable {r : RxFilterRunner} {held : Finset SubjectId}

/-- A filter is written. -/
theorem setMessageFilter_eq {filters : List MsgFilter} {service : ExtendedFilter} {i : ℕ}
    (hlength : filters.length = MESSAGE_FILTER_COUNT) (hi : i < MESSAGE_FILTER_COUNT)
    (val : MsgFilter) :
    setMessageFilter (filters.map messageFilter ++ [service]) i val =
      .ok ((filters.set i val).map messageFilter ++ [service]) := by
  have hi' : i < (filters.map messageFilter).length := by rwa [List.length_map, hlength]
  rw [setMessageFilter, assert_pos hi, ok_bind, MESSAGE_FILTER_OFFSET, Nat.zero_add, assign_of_lt,
    List.set_append_left _ _ hi', List.map_set]
  rw [List.length_append]
  omega

theorem Mirrors.start (h : r.Mirrors) : RxFilterRunner.start r.filters = .ok r := by
  obtain ⟨service, hfilters⟩ := h.filters
  have hload : loadMessageFilters r.filters = .ok r.msgFilters := by
    have hmap : loadMessageFilters r.filters =
        .ok ((List.range MESSAGE_FILTER_COUNT).map fun i ↦ r.msgFilters.getD i (none, none)) := by
      refine mapM_eq_ok fun i hi ↦ getMessageFilter_eq (List.mem_range.mp hi) ?_
      have hi' : i < r.msgFilters.length := by
        rw [h.length]
        exact List.mem_range.mp hi
      rw [hfilters, List.getElem?_append_left (by rwa [List.length_map]), List.getElem?_map,
        List.getElem?_eq_getElem hi', List.getD_eq_getElem?_getD, List.getElem?_eq_getElem hi']
      rfl
    rw [hmap]
    refine congrArg Except.ok (List.ext_getElem (by simp [h.length]) fun i _ hi ↦ ?_)
    simp [hi]
  rw [RxFilterRunner.start, hload]
  rfl

theorem holds_init {elements : List ExtendedFilter} (h : elements.length = EXTENDED_FILTER_MAX) :
    ∃ r, (initFilters elements >>= RxFilterRunner.start) = .ok r ∧ r.Holds ∅ := by
  have hinit : initFilters elements =
      .ok ((List.replicate 7 (none, none)).map messageFilter ++ [serviceFilter none]) := by
    match elements, h with
    | [_, _, _, _, _, _, _, _], _ => rfl
  have hmirrors : Mirrors ⟨(List.replicate 7 (none, none)).map messageFilter ++
      [serviceFilter none], List.replicate 7 (none, none)⟩ := ⟨rfl, _, rfl⟩
  refine ⟨_, by rw [hinit, ok_bind, hmirrors.start], hmirrors, fun subject ↦ ?_⟩
  simp [asFlattened]

theorem Holds.addSubject (h : r.Holds held) (hfree : none ∈ asFlattened r.msgFilters)
    (subject : SubjectId) :
    ∃ r', r.addSubject subject = .ok r' ∧ r'.Holds (insert subject held) := by
  obtain ⟨service, hfilters⟩ := h.filters
  obtain ⟨i, hi⟩ := exists_findIdx? hfree
  have hslot := getElem?_of_findIdx? hi
  have hlt : i / 2 < r.msgFilters.length := by
    have hlen := (List.getElem?_eq_some_iff.mp hslot).1
    rw [length_asFlattened] at hlen
    omega
  have hfilter := List.getElem?_eq_getElem hlt
  generalize r.msgFilters[i / 2] = filter at hfilter
  set filter' : MsgFilter :=
    if i % 2 = 0 then (some subject, filter.2) else (filter.1, some subject) with hfilter'
  have hset := asFlattened_set hfilter (some subject)
  rw [← hfilter'] at hset
  refine ⟨⟨(r.msgFilters.set (i / 2) filter').map messageFilter ++ [service],
    r.msgFilters.set (i / 2) filter'⟩, ?_, ⟨?_, service, rfl⟩, fun s ↦ ?_⟩
  · rw [RxFilterRunner.addSubject, hi, unwrap_some, ok_bind]
    dsimp only
    rw [index_of_getElem? hfilter, ok_bind]
    rw [← hfilter', assign_of_lt hlt, ok_bind, hfilters,
      setMessageFilter_eq h.length (by rwa [← h.length])]
    rfl
  · dsimp only
    rw [List.length_set, h.length]
  · dsimp only
    rw [hset, ← List.reduceOption_mem_iff, (reduceOption_set hslot).mem_iff, List.mem_cons,
      List.reduceOption_mem_iff, h.held, Finset.mem_insert]

theorem removeSlots_of_not_any {first last : SubjectId} {filter : MsgFilter}
    (h : (filter.1.any (inRange first last) || filter.2.any (inRange first last)) = false) :
    removeSlots first last filter = filter := by
  obtain ⟨h₁, h₂⟩ := Bool.or_eq_false_iff.mp h
  rw [removeSlots, clear, clear, h₁, h₂]
  rfl

/-- The loop, when the filters before the index are done. -/
theorem removeFrom_eq {first last : SubjectId} {service : ExtendedFilter}
    (done rest : List MsgFilter) (hlength : (done ++ rest).length = MESSAGE_FILTER_COUNT) :
    removeFrom first last done.length ((done ++ rest).map messageFilter ++ [service]) rest =
      .ok ((done ++ rest.map (removeSlots first last)).map messageFilter ++ [service],
        rest.map (removeSlots first last)) := by
  induction rest generalizing done with
  | nil => rfl
  | cons filter rest ih =>
    set filter' := removeSlots first last filter with hfilter'
    have hrest := ih (done ++ [filter']) (by simpa using hlength)
    rw [List.append_assoc, List.singleton_append, List.length_append, List.length_singleton,
      List.append_assoc, List.singleton_append] at hrest
    rw [removeFrom, ← hfilter']
    dsimp only
    split
    · rw [setMessageFilter_eq hlength, List.set_append_right _ _ le_rfl, Nat.sub_self,
        List.set_cons_zero, ok_bind, hrest]
      · rfl
      · rw [← hlength, List.length_append, List.length_cons]
        omega
    · rename_i hnot
      have hsame : filter = filter' := (removeSlots_of_not_any (Bool.eq_false_iff.mpr hnot)).symm
      rw [← hsame] at hrest
      rw [pure_eq_ok, ok_bind, hrest, List.map_cons, ← hfilter', ← hsame]
      rfl

theorem Holds.removeSubjectRange (h : r.Holds held) (first last : SubjectId) :
    ∃ r', r.removeSubjectRange first last = .ok r' ∧
      r'.Holds ((FilterUpdate.removeSubjectRange first last).apply held) := by
  obtain ⟨service, hfilters⟩ := h.filters
  have hloop : removeFrom first last 0 (r.msgFilters.map messageFilter ++ [service])
      r.msgFilters = _ := removeFrom_eq [] _ h.length
  refine ⟨⟨(r.msgFilters.map (removeSlots first last)).map messageFilter ++ [service],
    r.msgFilters.map (removeSlots first last)⟩, ?_, ⟨?_, service, rfl⟩, fun s ↦ ?_⟩
  · rw [RxFilterRunner.removeSubjectRange, hfilters, hloop]
    rfl
  · dsimp only
    rw [List.length_map, h.length]
  · have hclear : asFlattened (r.msgFilters.map (removeSlots first last)) =
        (asFlattened r.msgFilters).map (clear (inRange first last)) := asFlattened_clear _ _
    dsimp only
    rw [hclear, ← List.reduceOption_mem_iff, reduceOption_clear, List.mem_filter,
      List.reduceOption_mem_iff, h.held, FilterUpdate.apply, Finset.mem_filter]
    refine and_congr_right fun _ ↦ ?_
    rw [Bool.not_eq_true', ← Bool.not_eq_true, inRange_iff]

/-- The subjects that a number of updates leave. -/
def subscribed (held : Finset SubjectId) : Op → Finset SubjectId
  | .update request => request.apply held
  | .restart => held

theorem Holds.step (h : r.Holds held) {op : Op} (hop : r.Valid op) :
    ∃ r' out, r.step op = .ok (r', out) ∧ r'.Holds (subscribed held op) := by
  cases op with
  | update request =>
    cases request with
    | addSubject subject =>
      obtain ⟨r', hadd, h'⟩ := h.addSubject hop subject
      exact ⟨r', (), by rw [RxFilterRunner.step, hadd]; rfl, h'⟩
    | removeSubjectRange first last =>
      obtain ⟨r', hremove, h'⟩ := h.removeSubjectRange first last
      exact ⟨r', (), by rw [RxFilterRunner.step, hremove]; rfl, h'⟩
  | restart => exact ⟨r, (), by rw [RxFilterRunner.step, h.start]; rfl, h⟩

/-- The frames that some message filter accepts. -/
theorem Holds.accepts_iff (h : r.Holds held) (canId : BitVec 32) :
    (∃ n < MESSAGE_FILTER_COUNT, ∃ elem, r.filters[MESSAGE_FILTER_OFFSET + n]? = some elem ∧
      Accepts elem canId) ↔
    ∃ id, MessageCanId.fromCanId canId = some id ∧ id.subject ∈ held := by
  obtain ⟨service, hfilters⟩ := h.filters
  have helem : ∀ n < MESSAGE_FILTER_COUNT, r.filters[MESSAGE_FILTER_OFFSET + n]? =
      r.msgFilters[n]?.map messageFilter := by
    intro n hn
    rw [hfilters, MESSAGE_FILTER_OFFSET, Nat.zero_add, List.getElem?_append_left, List.getElem?_map]
    rwa [List.length_map, h.length]
  constructor
  · rintro ⟨n, hn, elem, hget, haccepts⟩
    rw [helem n hn] at hget
    obtain ⟨filter, hfilter, rfl⟩ := Option.map_eq_some_iff.mp hget
    obtain ⟨id, hid, hslot⟩ := accepts_messageFilter_iff.mp haccepts
    refine ⟨id, hid, (h.held id.subject).mp ?_⟩
    refine List.mem_flatMap.mpr ⟨filter, List.mem_of_getElem? hfilter, ?_⟩
    rcases hslot with hslot | hslot <;> simp [hslot]
  · rintro ⟨id, hid, hheld⟩
    obtain ⟨filter, hfilter, hslot⟩ := List.mem_flatMap.mp ((h.held id.subject).mpr hheld)
    obtain ⟨n, hn, hget⟩ := List.mem_iff_getElem.mp hfilter
    rw [h.length] at hn
    refine ⟨n, hn, messageFilter filter, ?_, accepts_messageFilter_iff.mpr ⟨id, hid, ?_⟩⟩
    · rw [helem n hn, List.getElem?_eq_some_iff.mpr ⟨by rwa [h.length], hget⟩]
      rfl
    · simpa [eq_comm] using hslot

/-- **The filters accept exactly the subjects that are subscribed to.** -/
theorem accepts_subscribed (elements : List ExtendedFilter)
    (h : elements.length = EXTENDED_FILTER_MAX) :
    ∃ r, (initFilters elements >>= start) = .ok r ∧ ∀ ops, Admissible step Valid r ops →
      ∃ r' outs, run step r ops = .ok (r', outs) ∧ ∀ canId : BitVec 32,
        (∃ n < MESSAGE_FILTER_COUNT, ∃ elem, r'.filters[MESSAGE_FILTER_OFFSET + n]? = some elem ∧
          Accepts elem canId) ↔
        ∃ id, MessageCanId.fromCanId canId = some id ∧
          id.subject ∈ ops.foldl subscribed ∅ := by
  obtain ⟨r, hstart, hr⟩ := holds_init h
  refine ⟨r, hstart, fun ops hops ↦ ?_⟩
  obtain ⟨r', outs, hrun, hr'⟩ := run_of_inputs subscribed
    (fun held r op (hr : r.Holds held) hop ↦ hr.step hop) hr hops
  exact ⟨r', outs, hrun, hr'.accepts_iff⟩

/-- A slot is emptied and used again after a restart. -/
theorem accepts_subscribed_restart : ∃ r,
    (initFilters (List.replicate 8 .resetValue) >>= start) = .ok r ∧
    ∃ r' outs, run step r [.update (.addSubject 5), .update (.addSubject 0),
        .update (.removeSubjectRange 0 3), .restart, .update (.addSubject 9)] = .ok (r', outs) ∧
      ∀ canId : BitVec 32,
        (∃ n < MESSAGE_FILTER_COUNT, ∃ elem, r'.filters[MESSAGE_FILTER_OFFSET + n]? = some elem ∧
          Accepts elem canId) ↔
        ∃ id, MessageCanId.fromCanId canId = some id ∧
          id.subject ∈ ({5, 9} : Finset SubjectId) := by
  obtain ⟨r, hstart, h⟩ := accepts_subscribed (List.replicate 8 .resetValue) rfl
  have hvalid : Admissible step Valid r [.update (.addSubject 5), .update (.addSubject 0),
      .update (.removeSubjectRange 0 3), .restart, .update (.addSubject 9)] := by
    cases hstart
    decide
  obtain ⟨r', outs, hrun, haccepts⟩ := h _ hvalid
  refine ⟨r, hstart, r', outs, hrun, fun canId ↦ ?_⟩
  rw [haccepts canId]
  have hheld : [Op.update (.addSubject 5), .update (.addSubject 0),
      .update (.removeSubjectRange 0 3), .restart, .update (.addSubject 9)].foldl subscribed ∅ =
        ({5, 9} : Finset SubjectId) := by decide
  rw [hheld]

end RxFilterRunner

end Emcyphal.Can.Native
