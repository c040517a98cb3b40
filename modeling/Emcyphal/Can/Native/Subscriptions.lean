import Emcyphal.Can.Native.Filter
import Emcyphal.Registry.FilterTask

/-!
# The filter task of the native driver

`RxFilterRunner` with the service filter, which has the last of the filter elements: its destination
is a second variable of `run`, and is loaded and written like those of the message filters.

The subjects in the slots are all different, so that a slot is free whenever the registry has one to
give (`free_of_card_lt`).
-/

set_option autoImplicit false

namespace Emcyphal.Can.Native

open Rust BitField Slots

def SUBJECT_SLOT_COUNT : ℕ := MESSAGE_FILTER_COUNT * 2

def getServiceFilter (elements : List ExtendedFilter) : Exec (Option NodeId) := do
  let filter ← index elements SERVICE_FILTER_OFFSET
  let filterType ← filter.toFilterType
  assert (filterType = .classicFilter)
  return decodeSrvFilterPattern filter.efid1

/-- The frame is accepted and stored in the second FIFO: the second identifier is a mask. -/
def AcceptsService (elem : ExtendedFilter) (canId : BitVec 32) : Prop :=
  elem.eft = FilterType.classicFilter.code ∧ elem.efec = FilterElementConfig.storeInFifo1.code ∧
    canId &&& elem.efid2 = elem.efid1 &&& elem.efid2

/-- The variables of `run`, and the filter elements. -/
structure FilterRunner where
  runner : RxFilterRunner
  srvFilter : Option NodeId

namespace FilterRunner

def addDestination (d : FilterRunner) (node : NodeId) : Exec FilterRunner := do
  assert (d.srvFilter = none)
  let filters ← setServiceFilter d.runner.filters (some node)
  return ⟨{ d.runner with filters := filters }, some node⟩

def removeDestinationRange (d : FilterRunner) (first last : NodeId) : Exec FilterRunner :=
  if d.srvFilter.any (inRange first last) then do
    let filters ← setServiceFilter d.runner.filters none
    return ⟨{ d.runner with filters := filters }, none⟩
  else .ok d

def update (d : FilterRunner) : LinkUpdate → Exec FilterRunner
  | .message (.addSubject subject) => do
    let runner ← d.runner.addSubject subject
    return { d with runner := runner }
  | .message (.removeSubjectRange first last) => do
    let runner ← d.runner.removeSubjectRange first last
    return { d with runner := runner }
  | .addDestination node => d.addDestination node
  | .removeDestinationRange first last => d.removeDestinationRange first last

/-- `run` begins with the filters that are set. -/
def start (elements : List ExtendedFilter) : Exec FilterRunner := do
  let runner ← RxFilterRunner.start elements
  let srvFilter ← getServiceFilter elements
  return ⟨runner, srvFilter⟩

/-- The elements and the variables are those of the filters. -/
structure Holds (f : Filters) (d : FilterRunner) : Prop where
  subjects : d.runner.Holds f.subjects
  nodup : (RxFilterRunner.asFlattened d.runner.msgFilters).reduceOption.Nodup
  destination : d.srvFilter = f.destination
  service : d.runner.filters[SERVICE_FILTER_OFFSET]? = some (serviceFilter f.destination)

end FilterRunner

/-! ## The service filter -/

variable {val : Option NodeId} {canId : BitVec 32}

theorem makeSrvFilterPattern_lt (val : Option NodeId) :
    (makeSrvFilterPattern val).toNat < 2 ^ 29 := by
  cases val with
  | none => decide
  | some node =>
    revert node
    decide +kernel

theorem efid1_serviceFilter (val : Option NodeId) :
    (serviceFilter val).efid1 = makeSrvFilterPattern val :=
  calc (serviceFilter val).efid1
      = load (store 0 0x1FFFFFFF#32 0 (makeSrvFilterPattern val)) 0x1FFFFFFF#32 0 :=
        load_store_of_disjoint ExtendedFilter.efec_mask ExtendedFilter.efid_mask (by decide)
          (by decide) (by decide) (.inl (by decide))
    _ = makeSrvFilterPattern val :=
        load_store ExtendedFilter.efid_mask (by decide) (makeSrvFilterPattern_lt val)

theorem efid2_serviceFilter (val : Option NodeId) : (serviceFilter val).efid2 = SRV_FILTER_MASK :=
  load_store ExtendedFilter.efid_mask (by decide) (by decide)

theorem efec_serviceFilter (val : Option NodeId) :
    (serviceFilter val).efec = FilterElementConfig.storeInFifo1.code :=
  congrArg (BitVec.setWidth 8) (load_store ExtendedFilter.efec_mask (by decide) (by decide))

theorem eft_serviceFilter (val : Option NodeId) :
    (serviceFilter val).eft = FilterType.classicFilter.code := by
  have hnone : (serviceFilter none).eft = FilterType.classicFilter.code := by decide
  exact hnone

/-- The service filter accepts what is for the node, and nothing that is valid if it is empty. -/
theorem acceptsService_iff {node : NodeId} : AcceptsService (serviceFilter (some node)) canId ↔
    ∃ id, ServiceCanId.fromCanId canId = some id ∧ id.destination = node := by
  have hpattern : makeSrvFilterPattern (some node) &&& SRV_FILTER_MASK =
      makeSrvFilterPattern (some node) := by
    revert node
    decide +kernel
  rw [AcceptsService, efid1_serviceFilter, efid2_serviceFilter, hpattern,
    and_makeSrvFilterPattern_iff, and_iff_right (eft_serviceFilter _),
    and_iff_right (efec_serviceFilter _)]

theorem fromCanId_of_acceptsService_none (h : AcceptsService (serviceFilter none) canId) :
    ServiceCanId.fromCanId canId = none := by
  rw [AcceptsService, efid1_serviceFilter, efid2_serviceFilter] at h
  exact fromCanId_of_and_makeSrvFilterPattern_none h.2.2

/-- The service filter is read as it was written. -/
theorem getServiceFilter_eq {elements : List ExtendedFilter}
    (h : elements[SERVICE_FILTER_OFFSET]? = some (serviceFilter val)) :
    getServiceFilter elements = .ok val := by
  have htype : (serviceFilter val).toFilterType = .ok .classicFilter := by
    rw [ExtendedFilter.toFilterType, eft_serviceFilter]
    rfl
  rw [getServiceFilter, index_of_getElem? h, ok_bind, htype, ok_bind, assert_pos rfl, ok_bind,
    efid1_serviceFilter, decode_makeSrvFilterPattern]
  rfl

namespace RxFilterRunner

/-! ## The subjects in the slots -/

variable {r r' : RxFilterRunner} {held : Finset SubjectId}

theorem free_of_card_lt (h : r.Holds held)
    (hnodup : (asFlattened r.msgFilters).reduceOption.Nodup)
    (hcard : held.card < SUBJECT_SLOT_COUNT) : none ∈ asFlattened r.msgFilters := by
  have hheld : (asFlattened r.msgFilters).reduceOption.toFinset = held := by
    ext subject
    rw [List.mem_toFinset, List.reduceOption_mem_iff, h.held]
  rw [← List.reduceOption_length_lt_iff, ← List.toFinset_card_of_nodup hnodup, hheld,
    length_asFlattened, h.length, Nat.mul_comm]
  exact hcard

/-- A message filter is not the service filter. -/
theorem getElem?_of_setMessageFilter {elements elements' : List ExtendedFilter} {n : ℕ}
    {val : MsgFilter} (h : setMessageFilter elements n val = .ok elements') :
    elements'[SERVICE_FILTER_OFFSET]? = elements[SERVICE_FILTER_OFFSET]? := by
  rw [setMessageFilter, bind_eq_ok] at h
  obtain ⟨_, hassert, h⟩ := h
  have hn := assert_eq_ok.mp hassert
  rw [assign] at h
  split at h
  · cases h
    refine List.getElem?_set_ne ?_
    rw [SERVICE_FILTER_OFFSET]
    omega
  · cases h

/-- A subject is put into an empty slot. -/
theorem addSubject_eq_ok {subject : SubjectId} (h : r.addSubject subject = .ok r') :
    ∃ i : ℕ, (asFlattened r.msgFilters)[i]? = some none ∧
      asFlattened r'.msgFilters = (asFlattened r.msgFilters).set i (some subject) ∧
      r'.filters[SERVICE_FILTER_OFFSET]? = r.filters[SERVICE_FILTER_OFFSET]? := by
  rw [addSubject, bind_eq_ok] at h
  obtain ⟨i, hi, h⟩ := h
  obtain ⟨filter, hfilter, h⟩ := bind_eq_ok.mp h
  obtain ⟨msgFilters, hassign, h⟩ := bind_eq_ok.mp h
  obtain ⟨filters, hset, h⟩ := bind_eq_ok.mp h
  cases h
  rw [assign] at hassign
  split at hassign
  · cases hassign
    exact ⟨i, getElem?_of_findIdx? (unwrap_eq_ok.mp hi),
      asFlattened_set (index_eq_ok.mp hfilter) (some subject), getElem?_of_setMessageFilter hset⟩
  · cases hassign

theorem removeFrom_eq_ok {first last : SubjectId} {filters : List MsgFilter} {i : ℕ}
    {elements : List ExtendedFilter} {res : List ExtendedFilter × List MsgFilter}
    (h : removeFrom first last i elements filters = .ok res) :
    res.2 = filters.map (removeSlots first last) ∧
      res.1[SERVICE_FILTER_OFFSET]? = elements[SERVICE_FILTER_OFFSET]? := by
  induction filters generalizing i elements res with
  | nil =>
    cases h
    exact ⟨rfl, rfl⟩
  | cons filter filters ih =>
    have hloop : ∃ elements', elements'[SERVICE_FILTER_OFFSET]? =
        elements[SERVICE_FILTER_OFFSET]? ∧ ∃ res',
          removeFrom first last (i + 1) elements' filters = .ok res' ∧
            (res'.1, removeSlots first last filter :: res'.2) = res := by
      rw [removeFrom] at h
      dsimp only at h
      split at h
      · obtain ⟨elements', hset, h⟩ := bind_eq_ok.mp h
        obtain ⟨res', hrest, h⟩ := bind_eq_ok.mp h
        exact ⟨elements', getElem?_of_setMessageFilter hset, res', hrest, Except.ok.inj h⟩
      · rw [pure_eq_ok, ok_bind] at h
        obtain ⟨res', hrest, h⟩ := bind_eq_ok.mp h
        exact ⟨elements, rfl, res', hrest, Except.ok.inj h⟩
    obtain ⟨elements', hsame, res', hrest, rfl⟩ := hloop
    obtain ⟨hfilters, hservice⟩ := ih hrest
    exact ⟨by rw [List.map_cons, hfilters], hservice.trans hsame⟩

theorem removeSubjectRange_eq_ok {first last : SubjectId}
    (h : r.removeSubjectRange first last = .ok r') :
    asFlattened r'.msgFilters = (asFlattened r.msgFilters).map (clear (inRange first last)) ∧
      r'.filters[SERVICE_FILTER_OFFSET]? = r.filters[SERVICE_FILTER_OFFSET]? := by
  obtain ⟨res, hloop, h⟩ := bind_eq_ok.mp h
  cases h
  obtain ⟨hfilters, hservice⟩ := removeFrom_eq_ok hloop
  refine ⟨?_, hservice⟩
  dsimp only
  rw [hfilters]
  exact asFlattened_clear _ _

/-- The elements of a table, and any service filter. -/
theorem Holds.setService (h : r.Holds held) (elem : ExtendedFilter) :
    ∃ filters, assign r.filters SERVICE_FILTER_OFFSET elem = .ok filters ∧
      Holds held ⟨filters, r.msgFilters⟩ ∧ filters[SERVICE_FILTER_OFFSET]? = some elem := by
  obtain ⟨service, hfilters⟩ := h.filters
  have hlength : (r.msgFilters.map messageFilter).length = SERVICE_FILTER_OFFSET := by
    rw [List.length_map, h.length]
    rfl
  refine ⟨r.msgFilters.map messageFilter ++ [elem], ?_, ⟨⟨h.length, elem, rfl⟩, h.held⟩, ?_⟩
  · rw [hfilters, assign_of_lt, List.set_append_right _ _ hlength.le, hlength, Nat.sub_self,
      List.set_cons_zero]
    rw [List.length_append, hlength]
    exact Nat.lt_succ_self _
  · rw [List.getElem?_append_right hlength.le, hlength, Nat.sub_self, List.getElem?_cons_zero]

end RxFilterRunner

/-! ## The driver -/

namespace FilterRunner

variable {d : FilterRunner} {f : Filters}

theorem Holds.update (h : d.Holds f) {u : LinkUpdate} (hu : u.Fits SUBJECT_SLOT_COUNT f) :
    ∃ d', d.update u = .ok d' ∧ d'.Holds (u.apply f) := by
  cases u with
  | message update =>
    cases update with
    | addSubject subject =>
      obtain ⟨r', hadd, hr'⟩ := h.subjects.addSubject
        (RxFilterRunner.free_of_card_lt h.subjects h.nodup hu.2) subject
      obtain ⟨i, hslot, hset, hservice⟩ := RxFilterRunner.addSubject_eq_ok hadd
      refine ⟨{ d with runner := r' }, by rw [FilterRunner.update, hadd]; rfl, hr', ?_,
        h.destination, hservice.trans h.service⟩
      dsimp only
      rw [hset, (reduceOption_set hslot).nodup_iff, List.nodup_cons, List.reduceOption_mem_iff,
        h.subjects.held]
      exact ⟨hu.1, h.nodup⟩
    | removeSubjectRange first last =>
      obtain ⟨r', hremove, hr'⟩ := h.subjects.removeSubjectRange first last
      obtain ⟨hclear, hservice⟩ := RxFilterRunner.removeSubjectRange_eq_ok hremove
      refine ⟨{ d with runner := r' }, by rw [FilterRunner.update, hremove]; rfl, hr', ?_,
        h.destination, hservice.trans h.service⟩
      dsimp only
      rw [hclear, reduceOption_clear]
      exact h.nodup.filter _
  | addDestination node =>
    obtain ⟨filters, hassign, hholds, hservice⟩ := h.subjects.setService (serviceFilter (some node))
    refine ⟨⟨⟨filters, d.runner.msgFilters⟩, some node⟩, ?_, hholds, h.nodup, rfl, hservice⟩
    rw [FilterRunner.update, addDestination, assert_pos (h.destination.trans hu), ok_bind,
      setServiceFilter, hassign]
    rfl
  | removeDestinationRange first last =>
    rw [FilterRunner.update, removeDestinationRange]
    have hany : d.srvFilter.any (inRange first last) =
        f.destination.any (inRange first last) := by rw [h.destination]
    split
    · rename_i hin
      obtain ⟨filters, hassign, hholds, hservice⟩ := h.subjects.setService (serviceFilter none)
      have hnone : f.destination.filter (fun node ↦ ¬ (first ≤ node ∧ node ≤ last)) = none := by
        rw [Option.filter_eq_none_iff]
        intro node hnode
        rw [hany, hnode, Option.any_some, inRange_iff] at hin
        simpa using hin
      refine ⟨⟨⟨filters, d.runner.msgFilters⟩, none⟩, ?_, hholds, h.nodup, ?_, ?_⟩
      · rw [setServiceFilter, hassign]
        rfl
      · exact hnone.symm
      · rw [hservice]
        exact congrArg (some ∘ serviceFilter) hnone.symm
    · rename_i hin
      have hsame : f.destination.filter (fun node ↦ ¬ (first ≤ node ∧ node ≤ last)) =
          f.destination := by
        cases hdestination : f.destination with
        | none => rfl
        | some node =>
          rw [hany, hdestination, Option.any_some, inRange_iff] at hin
          rw [Option.filter_some, if_pos (decide_eq_true hin)]
      refine ⟨d, rfl, h.subjects, h.nodup, ?_, ?_⟩
      · exact h.destination.trans hsame.symm
      · exact h.service.trans (congrArg (some ∘ serviceFilter) hsame.symm)

theorem Holds.start (h : d.Holds f) :
    ∃ d', FilterRunner.start d.runner.filters = .ok d' ∧ d'.Holds f := by
  refine ⟨⟨d.runner, f.destination⟩, ?_, h.subjects, h.nodup, rfl, h.service⟩
  rw [FilterRunner.start, h.subjects.start, ok_bind, getServiceFilter_eq h.service]
  rfl

theorem holds_init {elements : List ExtendedFilter} (h : elements.length = EXTENDED_FILTER_MAX) :
    ∃ d, (initFilters elements >>= FilterRunner.start) = .ok d ∧ d.Holds ⟨∅, none⟩ := by
  have hinit : initFilters elements =
      .ok ((List.replicate 7 (none, none)).map messageFilter ++ [serviceFilter none]) := by
    match elements, h with
    | [_, _, _, _, _, _, _, _], _ => rfl
  have hheld : RxFilterRunner.Holds ∅ ⟨(List.replicate 7 (none, none)).map messageFilter ++
      [serviceFilter none], List.replicate 7 (none, none)⟩ :=
    ⟨⟨rfl, _, rfl⟩, fun subject ↦ by simp [RxFilterRunner.asFlattened]⟩
  have hholds : Holds ⟨∅, none⟩ ⟨⟨(List.replicate 7 (none, none)).map messageFilter ++
      [serviceFilter none], List.replicate 7 (none, none)⟩, none⟩ := ⟨hheld, by decide, rfl, rfl⟩
  obtain ⟨d, hstart, hd⟩ := hholds.start
  exact ⟨d, by rw [hinit, ok_bind]; exact hstart, hd⟩

/-- `run`, and what it keeps up to date. -/
def driver : FilterDriver FilterRunner where
  slotCount := SUBJECT_SLOT_COUNT
  update := FilterRunner.update
  restart d := FilterRunner.start d.runner.filters
  Holds := Holds
  holds_update h hu := h.update hu
  holds_restart h := h.start

/-- Some message filter accepts the frame. -/
def Accepted (d : FilterRunner) (canId : BitVec 32) : Prop :=
  ∃ n < MESSAGE_FILTER_COUNT, ∃ elem,
    d.runner.filters[MESSAGE_FILTER_OFFSET + n]? = some elem ∧ Accepts elem canId

/-- The service filter accepts the frame. -/
def AcceptedService (d : FilterRunner) (canId : BitVec 32) : Prop :=
  ∃ elem, d.runner.filters[SERVICE_FILTER_OFFSET]? = some elem ∧ AcceptsService elem canId

theorem Holds.acceptedService_iff {node : NodeId} (h : d.Holds f)
    (hnode : f.destination = some node) {canId : BitVec 32} : d.AcceptedService canId ↔
      ∃ id, ServiceCanId.fromCanId canId = some id ∧ id.destination = node := by
  rw [AcceptedService, h.service, hnode, ← acceptsService_iff]
  simp

/-- A service frame is only accepted if it is for the node that was asked for. -/
theorem Holds.destination_of_acceptedService (h : d.Holds f) {canId : BitVec 32}
    (haccepted : d.AcceptedService canId) {id : ServiceCanId}
    (hid : ServiceCanId.fromCanId canId = some id) : f.destination = some id.destination := by
  obtain ⟨elem, helem, haccepts⟩ := haccepted
  rw [h.service] at helem
  cases helem
  cases hdestination : f.destination with
  | none =>
    rw [hdestination] at haccepts
    cases hid.symm.trans (fromCanId_of_acceptsService_none haccepts)
  | some node =>
    rw [hdestination, acceptsService_iff] at haccepts
    obtain ⟨id', hid', rfl⟩ := haccepts
    rw [hid] at hid'
    cases hid'
    rfl

/-- **The filters follow the subscriptions.**  Whatever is registered, unregistered and delivered
while the filter task fetches, applies and is restarted, it does not panic, if no operation gives a
slot back twice: there is a slot for every subject that is added.  The frames of active entries are
accepted, unless the filter is just about to be written, and service frames are accepted for this
node only.  Once the task has resumed as often as there is something to do, the frames that are
accepted are those of the registered subjects, and those for this node. -/
theorem filters_follow_subscriptions (address : NodeId) {elements : List ExtendedFilter}
    (helements : elements.length = EXTENDED_FILTER_MAX) :
    ∃ d, (initFilters elements >>= FilterRunner.start) = .ok d ∧
    ∀ ops, Admissible (FilterTask.step driver) (fun t op ↦ t.Valid op ∧ ¬ t.DoubleCredits op)
      ⟨.new address SUBJECT_SLOT_COUNT, none, d⟩ ops →
    ∃ t events, run (FilterTask.step driver) ⟨.new address SUBJECT_SLOT_COUNT, none, d⟩ ops =
        .ok (t, events) ∧
      (∀ e ∈ t.link.rxMsg.inner.activeEntryTree,
        t.request ≠ some (.message (.addSubject e.subject)) → ∀ (canId : BitVec 32) id,
          MessageCanId.fromCanId canId = some id → id.subject = e.subject →
            t.driver.Accepted canId) ∧
      (∀ (canId : BitVec 32) id, ServiceCanId.fromCanId canId = some id →
        t.driver.AcceptedService canId → id.destination = address) ∧
      ∀ waker n, t.backlog ≤ n → ∃ t' events',
        run (FilterTask.step driver) t (List.replicate n (.resume waker)) = .ok (t', events') ∧
        (∀ canId : BitVec 32, t'.driver.Accepted canId ↔
          ∃ id, MessageCanId.fromCanId canId = some id ∧
            ∃ e ∈ t.link.rxMsg.inner.entries, e.subject = id.subject) ∧
        ∀ canId : BitVec 32, t'.driver.AcceptedService canId ↔
          ∃ id, ServiceCanId.fromCanId canId = some id ∧ id.destination = address := by
  obtain ⟨d, hstart, hd⟩ := holds_init helements
  refine ⟨d, hstart, fun ops hops ↦ ?_⟩
  obtain ⟨t, events, hrun, ht⟩ := run_of_admissible (fun _ _ h hop ↦ h.step hop)
    (FilterTask.Inv.new hd : FilterTask.Inv driver address _) hops
  refine ⟨t, events, hrun, ?_, ?_, ?_⟩
  · intro e he hrequest canId id hid hsubject
    obtain ⟨f, hf, hactive, -⟩ := ht.holds_active
    refine (hf.subjects.accepts_iff canId).mpr ⟨id, hid, ?_⟩
    rw [hsubject]
    exact hactive e he hrequest
  · intro canId id hid haccepted
    obtain ⟨f, hf, -, hnode⟩ := ht.holds_active
    exact hnode _ (hf.destination_of_acceptedService haccepted hid)
  · intro waker n hn
    obtain ⟨t', events', hrun', hholds⟩ := ht.catches_up waker hn
    refine ⟨t', events', hrun', fun canId ↦ ?_, fun canId ↦ hholds.acceptedService_iff rfl⟩
    refine (hholds.subjects.accepts_iff canId).trans (exists_congr fun id ↦ and_congr_right ?_)
    exact fun _ ↦ RxMsg.mem_subjects

/-- An entry is registered before the task has done anything, and the task is restarted on the
way. -/
theorem filters_follow_subscriptions_one_entry : ∃ d,
    (initFilters (List.replicate 8 .resetValue) >>= FilterRunner.start) = .ok d ∧
    ∃ t events, run (FilterTask.step driver) ⟨.new 42 SUBJECT_SLOT_COUNT, none, d⟩
        [.registry (.register 1 5), .resume 0, .resume 0, .restart, .resume 0] = .ok (t, events) ∧
      ∃ t' events', run (FilterTask.step driver) t (List.replicate 1 (.resume 0)) =
          .ok (t', events') ∧
        ∀ canId : BitVec 32, t'.driver.Accepted canId ↔
          ∃ id, MessageCanId.fromCanId canId = some id ∧ id.subject = 5 := by
  obtain ⟨d, hstart, h⟩ := filters_follow_subscriptions 42
    (rfl : (List.replicate 8 ExtendedFilter.resetValue).length = EXTENDED_FILTER_MAX)
  obtain ⟨d', hstart', hcheck⟩ : ∃ d, (initFilters (List.replicate 8 .resetValue) >>=
      FilterRunner.start) = .ok d ∧
      Admissible (FilterTask.step driver) (fun t op ↦ t.Valid op ∧ ¬ t.DoubleCredits op)
        ⟨.new 42 SUBJECT_SLOT_COUNT, none, d⟩
        [.registry (.register 1 5), .resume 0, .resume 0, .restart, .resume 0] :=
    ⟨_, rfl, by decide +kernel⟩
  cases hstart.symm.trans hstart'
  obtain ⟨t, events, hrun, -, -, hquiet⟩ := h _ hcheck
  have hbacklog : (do
      let d ← initFilters (List.replicate 8 .resetValue) >>= FilterRunner.start
      let x ← run (FilterTask.step driver) ⟨.new 42 SUBJECT_SLOT_COUNT, none, d⟩
        [.registry (.register 1 5), .resume 0, .resume 0, .restart, .resume 0]
      pure (decide (x.1.backlog = 1 ∧ x.1.link.rxMsg.inner.entries.map RxMsg.Entry.subject = [5])) :
        Exec Bool) = .ok true := by decide +kernel
  rw [hstart, ok_bind, hrun, ok_bind] at hbacklog
  obtain ⟨hone, hentries⟩ := of_decide_eq_true (Except.ok.inj hbacklog)
  obtain ⟨t', events', hrun', haccepted, -⟩ := hquiet 0 1 hone.le
  refine ⟨d, hstart, t, events, hrun, t', events', hrun', fun canId ↦ ?_⟩
  obtain ⟨e, hT, he⟩ := List.map_eq_singleton_iff.mp hentries
  rw [haccepted canId, hT]
  refine exists_congr fun id ↦ and_congr_right fun _ ↦ ?_
  simp only [List.mem_singleton, exists_eq_left, he]
  exact eq_comm

end FilterRunner

end Emcyphal.Can.Native
