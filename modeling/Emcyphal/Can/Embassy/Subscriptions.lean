import Emcyphal.Can.Embassy.Filter
import Emcyphal.Registry.FilterTask

/-!
# The filter task of the Embassy driver

`RxFilterRunner` with its destination, whose filter is the last one of the peripheral.  The runner
keeps its tables when `run` is called again.

The message filters do not know of the last filter (`step_withService`), so that what holds without
it carries over.  An emptied slot is no slot lost, but it lets the frames of subject 0 in.
-/

set_option autoImplicit false

namespace Emcyphal.Can.Embassy

open Rust BitField Slots

/-- The fields of the runner. -/
structure FilterRunner where
  runner : RxFilterRunner
  destination : Option NodeId

def serviceFilter (value : Option NodeId) : ExtendedFilter where
  filter := makeSrvFilterPattern value
  mask := SRV_FILTER_MASK
  action := .storeInFifo1

/-- The frame is accepted and stored in the second FIFO. -/
def ExtendedFilter.AcceptsService (elem : ExtendedFilter) (canId : BitVec 32) : Prop :=
  elem.action = .storeInFifo1 ∧ canId &&& elem.mask = elem.filter &&& elem.mask

namespace FilterRunner

variable (extendedFilterMax : Fin 256)

def MESSAGE_FILTER_COUNT : ℕ := extendedFilterMax - 1

def SERVICE_FILTER_OFFSET : ℕ := MESSAGE_FILTER_OFFSET + MESSAGE_FILTER_COUNT extendedFilterMax

def SUBJECT_SLOT_COUNT : ℕ := MESSAGE_FILTER_COUNT extendedFilterMax

def new : FilterRunner := ⟨.new extendedFilterMax, none⟩

def setServiceFilter (can : List (Option ExtendedFilter)) (value : Option NodeId) :
    Exec (List (Option ExtendedFilter)) :=
  assign can (SERVICE_FILTER_OFFSET extendedFilterMax) (some (serviceFilter value))

/-- `none` is `NoFreeSlots`. -/
def addDestination (d : FilterRunner) (node : NodeId) : Exec (Option FilterRunner) := do
  if d.destination.isSome then return none
  else
    let can ← setServiceFilter extendedFilterMax d.runner.can (some node)
    return some ⟨{ d.runner with can := can }, some node⟩

def removeDestinationRange (d : FilterRunner) (first last : NodeId) : Exec FilterRunner :=
  if d.destination.any (inRange first last) then do
    let can ← setServiceFilter extendedFilterMax d.runner.can none
    return ⟨{ d.runner with can := can }, none⟩
  else .ok d

def update (d : FilterRunner) : LinkUpdate → Exec FilterRunner
  | .message update => do
    let res ← d.runner.step update
    return { d with runner := res.1 }
  | .addDestination node => do
    let res ← d.addDestination extendedFilterMax node
    unwrap res
  | .removeDestinationRange first last => d.removeDestinationRange extendedFilterMax first last

end FilterRunner

namespace RxFilterRunner

/-- One more filter. -/
def withService (r : RxFilterRunner) (service : Option ExtendedFilter) : RxFilterRunner :=
  ⟨r.can ++ [service], r.subjects⟩

variable {r r' : RxFilterRunner} {service : Option ExtendedFilter}

/-! ## One more filter -/

theorem setSubjectFilter_append {can can' : List (Option ExtendedFilter)} {slot : Fin 256}
    {value : Option SubjectId} (h : setSubjectFilter can slot value = .ok can') :
    setSubjectFilter (can ++ [service]) slot value = .ok (can' ++ [service]) ∧
      can'.length = can.length := by
  rw [setSubjectFilter, assign] at h
  split at h
  · rename_i hlt
    cases h
    refine ⟨?_, List.length_set⟩
    rw [setSubjectFilter, assign_of_lt, List.set_append_left _ _ hlt]
    exact hlt.trans_le (by simp)
  · cases h

theorem removeFrom_append {first last : SubjectId} {slots : List (Option SubjectId)} {i : ℕ}
    {can : List (Option ExtendedFilter)}
    {res : List (Option ExtendedFilter) × List (Option SubjectId)}
    (h : removeFrom first last i can slots = .ok res) :
    removeFrom first last i (can ++ [service]) slots = .ok (res.1 ++ [service], res.2) ∧
      res.1.length = can.length ∧ res.2.length = slots.length := by
  induction slots generalizing i can res with
  | nil =>
    cases h
    exact ⟨rfl, rfl, rfl⟩
  | cons value slots ih =>
    rw [removeFrom] at h ⊢
    split at h
    · rename_i hany
      rw [if_pos hany]
      obtain ⟨slot, hslot, h⟩ := bind_eq_ok.mp h
      obtain ⟨can', hset, h⟩ := bind_eq_ok.mp h
      obtain ⟨res', hrest, h⟩ := bind_eq_ok.mp h
      cases h
      obtain ⟨hset', hcan⟩ := setSubjectFilter_append hset
      obtain ⟨hrest', hcan', hslots⟩ := ih hrest
      refine ⟨?_, hcan'.trans hcan, congrArg (· + 1) hslots⟩
      rw [hslot, ok_bind, hset', ok_bind, hrest']
      rfl
    · rename_i hany
      rw [if_neg hany]
      obtain ⟨res', hrest, h⟩ := bind_eq_ok.mp h
      cases h
      obtain ⟨hrest', hcan', hslots⟩ := ih hrest
      refine ⟨?_, hcan', congrArg (· + 1) hslots⟩
      rw [hrest']
      rfl

theorem addSubject_append {subject : SubjectId} (h : r.addSubject subject = .ok (some r')) :
    (r.withService service).addSubject subject = .ok (some (r'.withService service)) ∧
      r'.can.length = r.can.length ∧ r'.subjects.length = r.subjects.length := by
  rw [addSubject] at h ⊢
  split at h
  · cases h
  · rename_i idx hidx
    rw [withService]
    dsimp only
    rw [hidx]
    obtain ⟨subjects, hassign, h⟩ := bind_eq_ok.mp h
    obtain ⟨slot, hslot, h⟩ := bind_eq_ok.mp h
    obtain ⟨can, hset, h⟩ := bind_eq_ok.mp h
    cases h
    obtain ⟨hset', hcan⟩ := setSubjectFilter_append hset
    refine ⟨?_, hcan, ?_⟩
    · dsimp only
      rw [hassign, ok_bind, hslot, ok_bind, hset']
      rfl
    · rw [assign] at hassign
      split at hassign
      · cases hassign
        exact List.length_set
      · cases hassign

/-- The message filters are updated next to any service filter. -/
theorem step_withService (service : Option ExtendedFilter) {update : FilterUpdate} {out : Unit}
    (h : r.step update = .ok (r', out)) :
    (r.withService service).step update = .ok (r'.withService service, out) ∧
      r'.can.length = r.can.length ∧ r'.subjects.length = r.subjects.length := by
  cases update with
  | addSubject subject =>
    obtain ⟨res, hadd, h⟩ := bind_eq_ok.mp h
    obtain ⟨r₁, hres, h⟩ := bind_eq_ok.mp h
    cases h
    rw [unwrap_eq_ok] at hres
    subst hres
    obtain ⟨hadd', hcan, hsubjects⟩ := addSubject_append hadd
    refine ⟨?_, hcan, hsubjects⟩
    rw [step, hadd']
    rfl
  | removeSubjectRange first last =>
    obtain ⟨r₁, hremove, h⟩ := bind_eq_ok.mp h
    cases h
    obtain ⟨res, hloop, hremove⟩ := bind_eq_ok.mp hremove
    cases hremove
    obtain ⟨hloop', hcan, hsubjects⟩ := removeFrom_append hloop
    refine ⟨?_, hcan, hsubjects⟩
    rw [step, removeSubjectRange, withService]
    dsimp only
    rw [hloop']
    rfl

theorem accepted_withService (hlength : r.can.length = r.subjects.length) {canId : BitVec 32} :
    (r.withService service).Accepted canId ↔ r.Accepted canId := by
  refine exists_congr fun n ↦ and_congr_right fun hn ↦ exists_congr fun elem ↦ ?_
  have hn : MESSAGE_FILTER_OFFSET + n < r.can.length := by
    rw [MESSAGE_FILTER_OFFSET, Nat.zero_add, hlength]
    exact hn
  rw [withService, List.getElem?_append_left hn]

/-- As long as there are fewer subjects than slots, one of the slots is empty. -/
theorem free_of_length_lt {m : Subscriptions} {used : List (Option SubjectId)}
    (h : r.Holds m used) (hlt : m.subjects.length < r.subjects.length) : none ∈ r.subjects := by
  obtain ⟨k, l, -, hsubjects, -⟩ := h.slots
  have hreduce : r.subjects.reduceOption = used.reduceOption := by
    rw [hsubjects, List.reduceOption_append, List.reduceOption_replicate_none, List.append_nil]
  rwa [← List.reduceOption_length_lt_iff, hreduce, h.held.length_eq]

end RxFilterRunner

/-! ## The service filter -/

theorem acceptsService_iff {node : NodeId} {canId : BitVec 32} :
    (serviceFilter (some node)).AcceptsService canId ↔
      ∃ id, ServiceCanId.fromCanId canId = some id ∧ id.destination = node := by
  have hpattern : makeSrvFilterPattern (some node) &&& SRV_FILTER_MASK =
      makeSrvFilterPattern (some node) := by
    revert node
    decide +kernel
  rw [ExtendedFilter.AcceptsService, serviceFilter]
  dsimp only
  rw [hpattern, and_makeSrvFilterPattern_iff, and_iff_right rfl]

/-- An emptied service filter accepts nothing that is valid. -/
theorem fromCanId_of_acceptsService_none {canId : BitVec 32}
    (h : (serviceFilter none).AcceptsService canId) : ServiceCanId.fromCanId canId = none :=
  fromCanId_of_and_makeSrvFilterPattern_none h.2

namespace FilterRunner

variable {extendedFilterMax : Fin 256} {d : FilterRunner} {f : Filters}

/-- The filter for this destination, or none that was ever set. -/
def ServiceSet (destination : Option NodeId) (service : Option ExtendedFilter) : Prop :=
  service = some (serviceFilter destination) ∨ destination = none ∧ service = none

/-- The peripheral and the fields are those of the filters. -/
structure Holds (extendedFilterMax : Fin 256) (f : Filters) (d : FilterRunner) : Prop where
  runner : ∃ (r : RxFilterRunner) (service : Option ExtendedFilter),
    d.runner = r.withService service ∧ ServiceSet f.destination service ∧
    r.can.length = SERVICE_FILTER_OFFSET extendedFilterMax ∧
    r.subjects.length = SUBJECT_SLOT_COUNT extendedFilterMax ∧
    ∃ (m : Subscriptions) (used : List (Option SubjectId)), r.Holds m used ∧ m.subjects.Nodup ∧
      m.subjects.toFinset = f.subjects
  destination : d.destination = f.destination

/-- The service filter is set. -/
theorem setServiceFilter_eq {r : RxFilterRunner} {service : Option ExtendedFilter}
    (hlength : r.can.length = SERVICE_FILTER_OFFSET extendedFilterMax) (value : Option NodeId) :
    setServiceFilter extendedFilterMax (r.withService service).can value =
      .ok (r.withService (some (serviceFilter value))).can := by
  rw [setServiceFilter, RxFilterRunner.withService, RxFilterRunner.withService]
  dsimp only
  rw [← hlength, assign_of_lt (by simp), List.set_append_right _ _ le_rfl, Nat.sub_self,
    List.set_cons_zero]

theorem Holds.message (h : d.Holds extendedFilterMax f) {u : FilterUpdate}
    (hu : (LinkUpdate.message u).Fits (SUBJECT_SLOT_COUNT extendedFilterMax) f) :
    ∃ d', d.update extendedFilterMax (.message u) = .ok d' ∧
      d'.Holds extendedFilterMax ((LinkUpdate.message u).apply f) := by
  obtain ⟨r, service, hr, hservice, hcan, hsubjects, m, used, hholds, hnodup, hsame⟩ := h.runner
  have hvalid : r.Valid u := by
    cases u with
    | removeSubjectRange => trivial
    | addSubject subject =>
      refine RxFilterRunner.free_of_length_lt hholds ?_
      rw [← List.toFinset_card_of_nodup hnodup, hsame, hsubjects]
      exact hu.2
  obtain ⟨r', out, hstep, used', hholds'⟩ := hholds.step hvalid
  obtain ⟨hstep', hcan', hsubjects'⟩ :=
    RxFilterRunner.step_withService service hstep
  refine ⟨{ d with runner := r'.withService service }, ?_, ⟨r', service, rfl, hservice,
    hcan'.trans hcan, hsubjects'.trans hsubjects, m.after u, used', hholds', ?_, ?_⟩,
    h.destination⟩
  · rw [update, hr, hstep']
    rfl
  · cases u with
    | removeSubjectRange => exact hnodup.filter _
    | addSubject subject =>
      refine List.nodup_cons.mpr ⟨fun hmem ↦ hu.1 ?_, hnodup⟩
      rwa [← hsame, List.mem_toFinset]
  · rw [Subscriptions.toFinset_after, hsame]
    rfl

theorem Holds.update (h : d.Holds extendedFilterMax f) {u : LinkUpdate}
    (hu : u.Fits (SUBJECT_SLOT_COUNT extendedFilterMax) f) :
    ∃ d', d.update extendedFilterMax u = .ok d' ∧ d'.Holds extendedFilterMax (u.apply f) := by
  cases u with
  | message u => exact h.message hu
  | addDestination node =>
    obtain ⟨r, service, hr, -, hcan, hsubjects, hheld⟩ := h.runner
    refine ⟨⟨r.withService (some (serviceFilter (some node))), some node⟩, ?_,
      ⟨r, _, rfl, .inl rfl, hcan, hsubjects, hheld⟩, rfl⟩
    rw [FilterRunner.update, addDestination, h.destination, show f.destination = none from hu, hr,
      setServiceFilter_eq hcan]
    rfl
  | removeDestinationRange first last =>
    obtain ⟨r, service, hr, hservice, hcan, hsubjects, hheld⟩ := h.runner
    rw [FilterRunner.update, removeDestinationRange, h.destination]
    split
    · rename_i hin
      have hnone : f.destination.filter (fun node ↦ ¬ (first ≤ node ∧ node ≤ last)) = none := by
        rw [Option.filter_eq_none_iff]
        intro node hnode
        rw [hnode, Option.any_some, inRange_iff] at hin
        simpa using hin
      refine ⟨⟨r.withService (some (serviceFilter none)), none⟩, ?_,
        ⟨r, _, rfl, .inl ?_, hcan, hsubjects, hheld⟩, hnone.symm⟩
      · rw [hr, setServiceFilter_eq hcan]
        rfl
      · exact congrArg (some ∘ serviceFilter) hnone.symm
    · rename_i hin
      have hsame : f.destination.filter (fun node ↦ ¬ (first ≤ node ∧ node ≤ last)) =
          f.destination := by
        cases hdestination : f.destination with
        | none => rfl
        | some node =>
          rw [hdestination, Option.any_some, inRange_iff] at hin
          rw [Option.filter_some, if_pos (decide_eq_true hin)]
      refine ⟨d, rfl, ⟨r, service, hr, ?_, hcan, hsubjects, hheld⟩, h.destination.trans hsame.symm⟩
      rw [LinkUpdate.apply]
      dsimp only
      rwa [hsame]

theorem holds_new (hmax : 0 < extendedFilterMax.val) :
    (new extendedFilterMax).Holds extendedFilterMax ⟨∅, none⟩ := by
  have hlength : List.replicate extendedFilterMax.val (none : Option ExtendedFilter) =
      List.replicate (extendedFilterMax.val - 1) none ++ [none] := by
    rw [← List.replicate_succ', Nat.sub_add_cancel hmax]
  refine ⟨⟨⟨List.replicate (extendedFilterMax.val - 1) none,
    List.replicate (extendedFilterMax.val - 1) none⟩, none, ?_, .inr ⟨rfl, rfl⟩, ?_, ?_, .empty, [],
    ⟨⟨⟨_, _, le_rfl, rfl, rfl⟩, ?_⟩, .refl _, rfl⟩, .nil, rfl⟩, rfl⟩
  · rw [RxFilterRunner.withService, ← hlength]
    rfl
  · rw [List.length_replicate, SERVICE_FILTER_OFFSET, MESSAGE_FILTER_OFFSET, Nat.zero_add,
      MESSAGE_FILTER_COUNT]
  · exact List.length_replicate
  · rw [List.length_replicate]
    exact (Nat.sub_le _ 1).trans_lt extendedFilterMax.isLt

/-- `run`, and what it keeps up to date.  The tables are fields of the runner. -/
def driver (extendedFilterMax : Fin 256) : FilterDriver FilterRunner where
  slotCount := SUBJECT_SLOT_COUNT extendedFilterMax
  update := FilterRunner.update extendedFilterMax
  restart d := .ok d
  Holds := Holds extendedFilterMax
  holds_update h hu := h.update hu
  holds_restart h := ⟨_, rfl, h⟩

/-- The service filter accepts the frame. -/
def AcceptedService (extendedFilterMax : Fin 256) (d : FilterRunner) (canId : BitVec 32) : Prop :=
  ∃ elem, d.runner.can[SERVICE_FILTER_OFFSET extendedFilterMax]? = some (some elem) ∧
    elem.AcceptsService canId

theorem Holds.getElem?_service (h : d.Holds extendedFilterMax f) : ∃ service,
    d.runner.can[SERVICE_FILTER_OFFSET extendedFilterMax]? = some service ∧
      ServiceSet f.destination service := by
  obtain ⟨r, service, hr, hservice, hcan, -⟩ := h.runner
  refine ⟨service, ?_, hservice⟩
  rw [hr, RxFilterRunner.withService, ← hcan, List.getElem?_append_right le_rfl, Nat.sub_self,
    List.getElem?_cons_zero]

theorem Holds.acceptedService_iff {node : NodeId} (h : d.Holds extendedFilterMax f)
    (hnode : f.destination = some node) {canId : BitVec 32} :
    d.AcceptedService extendedFilterMax canId ↔
      ∃ id, ServiceCanId.fromCanId canId = some id ∧ id.destination = node := by
  obtain ⟨service, hget, hservice⟩ := h.getElem?_service
  rw [hnode] at hservice
  obtain rfl : service = some (serviceFilter (some node)) :=
    hservice.resolve_right fun hnone ↦ Option.some_ne_none node hnone.1
  rw [AcceptedService, hget, ← acceptsService_iff]
  simp

/-- A service frame is only accepted if it is for the node that was asked for. -/
theorem Holds.destination_of_acceptedService (h : d.Holds extendedFilterMax f) {canId : BitVec 32}
    (haccepted : d.AcceptedService extendedFilterMax canId) {id : ServiceCanId}
    (hid : ServiceCanId.fromCanId canId = some id) : f.destination = some id.destination := by
  cases hdestination : f.destination with
  | none =>
    obtain ⟨elem, helem, haccepts⟩ := haccepted
    obtain ⟨service, hget, hservice⟩ := h.getElem?_service
    rw [hget] at helem
    rw [hdestination] at hservice
    rcases hservice with rfl | ⟨-, rfl⟩
    · cases helem
      cases hid.symm.trans (fromCanId_of_acceptsService_none haccepts)
    · cases helem
  | some node =>
    obtain ⟨id', hid', rfl⟩ := (h.acceptedService_iff hdestination).mp haccepted
    rw [hid] at hid'
    cases hid'
    rfl

/-- The message filters accept what is held, and of the others at most those of subject 0. -/
theorem Holds.accepted (h : d.Holds extendedFilterMax f) {canId : BitVec 32} {id : MessageCanId}
    (hid : MessageCanId.fromCanId canId = some id) :
    (id.subject ∈ f.subjects → d.runner.Accepted canId) ∧
      (d.runner.Accepted canId → id.subject ∈ f.subjects ∨ id.subject = 0) := by
  obtain ⟨r, service, hr, -, hcan, hsubjects, m, used, hholds, -, hsame⟩ := h.runner
  have hlength : r.can.length = r.subjects.length := by
    rw [hcan, hsubjects, SERVICE_FILTER_OFFSET, MESSAGE_FILTER_OFFSET, Nat.zero_add,
      SUBJECT_SLOT_COUNT]
  rw [hr, RxFilterRunner.accepted_withService hlength, hholds.accepted_iff, ← hsame]
  constructor
  · exact fun hmem ↦ ⟨id, hid, .inl (List.mem_toFinset.mp hmem)⟩
  · rintro ⟨id', hid', hmem⟩
    rw [hid] at hid'
    cases hid'
    exact hmem.imp List.mem_toFinset.mpr And.right

/-- **The filters follow the subscriptions**, as those of the native driver do, but for the messages
of subject 0, which may be let in.  The task does not panic, if no operation gives a slot back
twice; the frames of active entries are accepted, unless the filter is just about to be written, and
service frames are accepted for this node only.  Once the task has resumed as often as there is
something to do, no other frames are accepted. -/
theorem filters_follow_but_for_zero (extendedFilterMax : Fin 256) (address : NodeId)
    (hmax : 0 < extendedFilterMax.val)
    {ops : List FilterTask.Op}
    (hops : Admissible (FilterTask.step (driver extendedFilterMax))
      (fun t op ↦ t.Valid op ∧ ¬ t.DoubleCredits op)
      ⟨.new address (SUBJECT_SLOT_COUNT extendedFilterMax), none, new extendedFilterMax⟩ ops) :
    ∃ t events, run (FilterTask.step (driver extendedFilterMax))
        ⟨.new address (SUBJECT_SLOT_COUNT extendedFilterMax), none, new extendedFilterMax⟩ ops =
        .ok (t, events) ∧
      (∀ e ∈ t.link.rxMsg.inner.activeEntryTree,
        t.request ≠ some (.message (.addSubject e.subject)) → ∀ (canId : BitVec 32) id,
          MessageCanId.fromCanId canId = some id → id.subject = e.subject →
            t.driver.runner.Accepted canId) ∧
      (∀ (canId : BitVec 32) id, ServiceCanId.fromCanId canId = some id →
        t.driver.AcceptedService extendedFilterMax canId → id.destination = address) ∧
      ∀ waker n, t.backlog ≤ n → ∃ t' events',
        run (FilterTask.step (driver extendedFilterMax)) t (List.replicate n (.resume waker)) =
          .ok (t', events') ∧
        (∀ (canId : BitVec 32) id, MessageCanId.fromCanId canId = some id →
          ((∃ e ∈ t.link.rxMsg.inner.entries, e.subject = id.subject) →
            t'.driver.runner.Accepted canId) ∧
          (t'.driver.runner.Accepted canId →
            (∃ e ∈ t.link.rxMsg.inner.entries, e.subject = id.subject) ∨ id.subject = 0)) ∧
        ∀ canId : BitVec 32, t'.driver.AcceptedService extendedFilterMax canId ↔
          ∃ id, ServiceCanId.fromCanId canId = some id ∧ id.destination = address := by
  have hnew : FilterTask.Inv (driver extendedFilterMax) address _ := .new (holds_new hmax)
  obtain ⟨t, events, hrun, ht⟩ := run_of_admissible (fun _ _ h hop ↦ h.step hop) hnew hops
  refine ⟨t, events, hrun, ?_, ?_, ?_⟩
  · intro e he hrequest canId id hid hsubject
    obtain ⟨f, hf, hactive, -⟩ := ht.holds_active
    refine (Holds.accepted hf hid).1 ?_
    rw [hsubject]
    exact hactive e he hrequest
  · intro canId id hid haccepted
    obtain ⟨f, hf, -, hnode⟩ := ht.holds_active
    exact hnode _ (Holds.destination_of_acceptedService hf haccepted hid)
  · intro waker n hn
    obtain ⟨t', events', hrun', hholds⟩ := ht.catches_up waker hn
    refine ⟨t', events', hrun', fun canId id hid ↦ ?_,
      fun canId ↦ Holds.acceptedService_iff hholds rfl⟩
    have haccepted := Holds.accepted hholds hid
    rwa [RxMsg.mem_subjects] at haccepted

/-- An entry is registered and unregistered, and the task has nothing left to do. -/
theorem filters_follow_but_for_zero_one_entry : ∃ t events,
    run (FilterTask.step (driver 8)) ⟨.new 42 (SUBJECT_SLOT_COUNT 8), none, new 8⟩
        [.registry (.register 1 5), .resume 0, .resume 0, .resume 0, .resume 0,
          .registry (.unregister 1), .resume 0, .resume 0] = .ok (t, events) ∧
      ∃ t' events', run (FilterTask.step (driver 8)) t (List.replicate 0 (.resume 0)) =
          .ok (t', events') ∧
        ∀ (canId : BitVec 32) id, MessageCanId.fromCanId canId = some id →
          t'.driver.runner.Accepted canId → id.subject = 0 := by
  obtain ⟨t, events, hrun, -, -, hquiet⟩ := filters_follow_but_for_zero 8 42
    (by decide) (by decide +kernel : Admissible (FilterTask.step (driver 8))
      (fun t op ↦ t.Valid op ∧ ¬ t.DoubleCredits op)
      ⟨.new 42 (SUBJECT_SLOT_COUNT 8), none, new 8⟩
      [.registry (.register 1 5), .resume 0, .resume 0, .resume 0, .resume 0,
        .registry (.unregister 1), .resume 0, .resume 0])
  have hcheck : (do
      let x ← run (FilterTask.step (driver 8)) ⟨.new 42 (SUBJECT_SLOT_COUNT 8), none, new 8⟩
        [.registry (.register 1 5), .resume 0, .resume 0, .resume 0, .resume 0,
          .registry (.unregister 1), .resume 0, .resume 0]
      pure (decide (x.1.backlog = 0 ∧ x.1.link.rxMsg.inner.entries = [])) : Exec Bool) =
        .ok true := by decide +kernel
  rw [hrun, ok_bind] at hcheck
  obtain ⟨hzero, hentries⟩ := of_decide_eq_true (Except.ok.inj hcheck)
  obtain ⟨t', events', hrun', haccepted, -⟩ := hquiet 0 0 hzero.le
  refine ⟨t, events, hrun, t', events', hrun', fun canId id hid hmem ↦ ?_⟩
  refine ((haccepted canId id hid).2 hmem).resolve_left ?_
  rintro ⟨e, he, -⟩
  rw [hentries] at he
  cases he

end FilterRunner

end Emcyphal.Can.Embassy
