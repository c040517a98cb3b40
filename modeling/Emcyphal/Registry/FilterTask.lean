import Emcyphal.Registry.Slots

/-!
# The filter task

A driver has a task that fetches the filter updates of the node one after the other and applies them
to the filters of the peripheral: `RxFilterRunner::run` of both drivers, over `poll_pop` of
`emcyphal/src/node/core_node.rs`, which is the same in `minimal_node.rs`.  The node asks for its own
address first, and then for what the registry has to say.

The registry changes at any time, also between two rounds of a poll, and between the fetch of an
update and the write to the peripheral.  A driver is known by what it holds after an update
(`FilterDriver`).

What the driver holds and the update that was fetched are, taken together, what was asked for
(`Settles`).  A slot is free for every subject that is added, and once the task has resumed as often
as there is something to do, the driver holds the subjects of the registered entries and no others.
-/

set_option autoImplicit false

namespace Emcyphal

open Rust RxMsg

/-- `link::FilterUpdate`. -/
inductive LinkUpdate
  | message (update : FilterUpdate)
  | addDestination (node : NodeId)
  | removeDestinationRange (first last : NodeId)
deriving DecidableEq, Repr

/-- What the filters are for. -/
structure Filters where
  subjects : Finset SubjectId
  destination : Option NodeId
deriving DecidableEq

namespace LinkUpdate

def apply (f : Filters) : LinkUpdate → Filters
  | message update => { f with subjects := update.apply f.subjects }
  | addDestination node => { f with destination := some node }
  | removeDestinationRange first last =>
    { f with destination := f.destination.filter fun node ↦ ¬ (first ≤ node ∧ node ≤ last) }

/-- What is added is new, and there is a slot for it. -/
def Fits (slotCount : ℕ) (f : Filters) : LinkUpdate → Prop
  | message (.addSubject subject) => subject ∉ f.subjects ∧ f.subjects.card < slotCount
  | addDestination _ => f.destination = none
  | _ => True

end LinkUpdate

/-- What a driver does with the updates it has fetched. -/
structure FilterDriver (δ : Type) where
  /-- The number of subjects there are slots for. -/
  slotCount : ℕ
  /-- The body of the loop of `run`. -/
  update : δ → LinkUpdate → Exec δ
  /-- What `run` does before the loop. -/
  restart : δ → Exec δ
  /-- The peripheral is set up for these filters. -/
  Holds : Filters → δ → Prop
  holds_update {f : Filters} {d : δ} {u : LinkUpdate} (h : Holds f d) (hu : u.Fits slotCount f) :
    ∃ d', update d u = .ok d' ∧ Holds (u.apply f) d'
  holds_restart {f : Filters} {d : δ} (h : Holds f d) :
    ∃ d', restart d = .ok d' ∧ Holds f d'

/-- What `poll_pop` of the filter link of a node works on. -/
structure FilterLink where
  address : NodeId
  destinationAdded : Bool
  /-- With the subjects that were asked for so far. -/
  rxMsg : System

namespace FilterLink

def new (address : NodeId) (subjectSlotCount : ℕ) : FilterLink :=
  ⟨address, false, .new subjectSlotCount⟩

/-- One round of the poll, which goes on after a `CallAgain`.  `none` is `Poll::Pending`. -/
def pollPop (n : FilterLink) (waker : Waker) :
    Exec (Option (Except CallAgain LinkUpdate) × FilterLink) :=
  if !n.destinationAdded then
    .ok (some (.ok (.addDestination n.address)), { n with destinationAdded := true })
  else do
    let res ← n.rxMsg.inner.hubPollPopFilterUpdate waker
    return (res.1.map (Except.map .message), { n with rxMsg := ⟨res.2, fetch n.rxMsg.held res.1⟩ })

end FilterLink

/-- The update to apply next, if the poll has returned one. -/
def fetched : Option (Except CallAgain LinkUpdate) → Option LinkUpdate
  | some (.ok u) => some u
  | _ => none

/-- A node, and the filter task of its driver. -/
structure FilterTask (δ : Type) where
  link : FilterLink
  /-- An update that was fetched and is not applied yet. -/
  request : Option LinkUpdate
  driver : δ

namespace FilterTask

variable {δ : Type}

inductive Op
  /-- Something else happens to the registry. -/
  | registry (op : RxMsg.Op)
  /-- The task goes on: with the update that was fetched, or with the next poll. -/
  | resume (waker : Waker)
  /-- `run` is called again. -/
  | restart

inductive Event
  | registry (event : RxMsg.Event)
  | applied (update : LinkUpdate)
  | polled (result : Option (Except CallAgain LinkUpdate))
  | restarted

def step (D : FilterDriver δ) (t : FilterTask δ) : Op → Exec (FilterTask δ × Event)
  | .registry op => do
    let res ← t.link.rxMsg.step op
    return ({ t with link := { t.link with rxMsg := res.1 } }, .registry res.2)
  | .resume waker =>
    match t.request with
    | some u => do
      let driver ← D.update t.driver u
      return ({ t with driver := driver, request := none }, .applied u)
    | none => do
      let res ← t.link.pollPop waker
      return ({ t with link := res.2, request := fetched res.1 }, .polled res.1)
  | .restart => do
    let driver ← D.restart t.driver
    return ({ t with driver := driver, request := none }, .restarted)

/-- Only the task polls, and it is not cancelled between a fetch and the write. -/
def Valid (t : FilterTask δ) : Op → Prop
  | .registry (.poll _) => False
  | .registry op => t.link.rxMsg.Valid op
  | .resume _ => True
  | .restart => t.request = none

/-- The operation gives a slot back twice. -/
def DoubleCredits (t : FilterTask δ) : Op → Prop
  | .registry op => t.link.rxMsg.DoubleCredits op
  | _ => False

instance (t : FilterTask δ) : (op : Op) → Decidable (t.Valid op)
  | .registry (.poll _) => inferInstanceAs (Decidable False)
  | .registry (.register address subject) =>
    inferInstanceAs (Decidable (t.link.rxMsg.Valid (.register address subject)))
  | .registry (.unregister token) =>
    inferInstanceAs (Decidable (t.link.rxMsg.Valid (.unregister token)))
  | .registry (.pushStart _) | .registry .pushNext | .resume _ => inferInstanceAs (Decidable True)
  | .restart => inferInstanceAs (Decidable (t.request = none))

instance (t : FilterTask δ) : (op : Op) → Decidable (t.DoubleCredits op)
  | .registry op => inferInstanceAs (Decidable (t.link.rxMsg.DoubleCredits op))
  | .resume _ | .restart => inferInstanceAs (Decidable False)

/-- What the node has asked for. -/
def asked (t : FilterTask δ) : Filters :=
  ⟨t.link.rxMsg.held, if t.link.destinationAdded then some t.link.address else none⟩

/-- An update, if there is one, makes of the filters what was asked for. -/
def Settles (slotCount : ℕ) (f asked : Filters) : Option LinkUpdate → Prop
  | none => f = asked
  | some u => u.Fits slotCount f ∧ u.apply f = asked

/-- What holds of the node and the task in every state. -/
structure Inv (D : FilterDriver δ) (address : NodeId) (t : FilterTask δ) : Prop where
  link : t.link.address = address
  bounded : t.link.rxMsg.Bounded D.slotCount
  driver : ∃ f, D.Holds f t.driver ∧ Settles D.slotCount f t.asked t.request ∧
    ∀ node, f.destination = some node → node = address

/-- How often the task has to resume until there is nothing left to do. -/
def backlog (t : FilterTask δ) : ℕ :=
  2 * (t.link.rxMsg.inner.cleanUpQueue.length + t.link.rxMsg.inner.cleanUpLast.toNat +
    t.link.rxMsg.inner.activationQueue.length + (!t.link.destinationAdded).toNat) +
      t.request.isSome.toNat

/-! ## One poll -/

variable {D : FilterDriver δ} {t : FilterTask δ}

theorem steps_held_eq {s s' : System} {op : RxMsg.Op} {event : RxMsg.Event}
    (hs : Steps s op s' event) (hop : ∀ waker, op ≠ .poll waker) : s'.held = s.held := by
  cases hs with
  | register | unregister | pushStart | pushNext => rfl
  | poll => exact absurd rfl (hop _)

theorem bounded_polls {s : System} {slotCount : ℕ} (h : s.Bounded slotCount) (waker : Waker) :
    ∃ result r, s.inner.hubPollPopFilterUpdate waker = .ok (result, r) ∧
      Polls s.inner waker result r ∧ System.Bounded slotCount ⟨r, fetch s.held result⟩ := by
  obtain ⟨result, r, heq, hp⟩ := h.inv.polls waker
  have hs : Steps s (.poll waker) ⟨r, fetch s.held result⟩ (.polled result) := .poll hp
  have hslots := h.inv.slots_le hs id h.slots
  exact ⟨result, r, heq, hp, h.inv.of_polls hp, hslots, h.inv.held_card_le hs hslots h.held⟩

/-- There is a slot for a subject that the registry asks for. -/
theorem fits_of_polls {s : System} {slotCount : ℕ} (h : s.Bounded slotCount) {waker : Waker}
    {u : FilterUpdate} {r : RegularInner} (hp : Polls s.inner waker (some (.ok u)) r)
    (hr : System.Bounded slotCount ⟨r, u.apply s.held⟩) (destination : Option NodeId) :
    (LinkUpdate.message u).Fits slotCount ⟨s.held, destination⟩ := by
  cases u with
  | removeSubjectRange => trivial
  | addSubject subject =>
    have hnew := h.inv.not_mem_of_add hp rfl
    have hcard := hr.held
    rw [FilterUpdate.apply, Finset.card_insert_of_notMem hnew] at hcard
    exact ⟨hnew, hcard⟩

/-- A poll that is not pending leaves less to do. -/
theorem backlog_polls {r r' : RegularInner} {waker : Waker}
    {result : Option (Except CallAgain FilterUpdate)} (hp : Polls r waker result r') :
    result = none ∧ r'.cleanUpQueue = [] ∧ r'.cleanUpLast = false ∧ r'.activationQueue = [] ∨
      r'.cleanUpQueue.length + r'.cleanUpLast.toNat + r'.activationQueue.length + 1 =
        r.cleanUpQueue.length + r.cleanUpLast.toNat + r.activationQueue.length := by
  cases hp with
  | pending hC hlast hQ => exact .inl ⟨rfl, hC, hlast, hQ⟩
  | cleanUp hC =>
    right
    dsimp only
    rw [hC, List.length_cons]
    omega
  | cleanUpLast hC hlast =>
    right
    dsimp only
    rw [hlast, Bool.toNat_false, Bool.toNat_true]
    omega
  | activate hC hlast hQ =>
    right
    dsimp only
    rw [hQ, List.length_cons]
    omega

/-! ## Steps -/

variable {address : NodeId}

theorem asked_destination (h : t.link.address = address) (node : NodeId)
    (hnode : t.asked.destination = some node) : node = address := by
  rw [asked] at hnode
  dsimp only at hnode
  split at hnode
  · exact (Option.some.inj hnode).symm.trans h
  · cases hnode

theorem Inv.new {d : δ} (h : D.Holds ⟨∅, none⟩ d) :
    Inv D address ⟨.new address D.slotCount, none, d⟩ :=
  ⟨rfl, ⟨.new D.slotCount, le_rfl, Nat.zero_le _⟩, _, h, rfl, by simp⟩

theorem Inv.registry (h : t.Inv D address) {op : RxMsg.Op} (hvalid : t.Valid (.registry op))
    (hcredits : ¬ t.DoubleCredits (.registry op)) :
    ∃ t' event, t.step D (.registry op) = .ok (t', event) ∧ t'.Inv D address := by
  have hnot : ∀ waker, op ≠ .poll waker := by
    rintro waker rfl
    exact hvalid
  have hop : t.link.rxMsg.Valid op := by
    cases op with
    | poll => exact absurd rfl (hnot _)
    | register | unregister => exact hvalid
    | pushStart | pushNext => trivial
  obtain ⟨s', event, hstep, hs⟩ := h.bounded.inv.steps hop
  obtain ⟨s'', event', hstep', hbounded⟩ := h.bounded.step ⟨hop, hcredits⟩
  cases hstep.symm.trans hstep'
  obtain ⟨f, hf, hsettles, hnode⟩ := h.driver
  refine ⟨{ t with link := { t.link with rxMsg := s' } }, .registry event,
    by rw [step, hstep]; rfl, h.link, hbounded, f, hf, ?_, hnode⟩
  have hasked : asked { t with link := { t.link with rxMsg := s' } } = t.asked := by
    rw [asked, asked, ← steps_held_eq hs hnot]
  rw [hasked]
  exact hsettles

theorem Inv.restart (h : t.Inv D address) (hvalid : t.Valid .restart) :
    ∃ t' event, t.step D .restart = .ok (t', event) ∧ t'.Inv D address := by
  obtain ⟨f, hf, hsettles, hnode⟩ := h.driver
  obtain ⟨d', hrestart, hd'⟩ := D.holds_restart hf
  rw [show t.request = none from hvalid] at hsettles
  exact ⟨{ t with driver := d', request := none }, .restarted, by rw [step, hrestart]; rfl,
    h.link, h.bounded, f, hd', hsettles, hnode⟩

/-- The task goes on, and leaves less to do. -/
theorem Inv.resume (h : t.Inv D address) (waker : Waker) :
    ∃ t' event, t.step D (.resume waker) = .ok (t', event) ∧ t'.Inv D address ∧
      t'.backlog ≤ t.backlog - 1 ∧
      t'.link.rxMsg.inner.subjects = t.link.rxMsg.inner.subjects := by
  obtain ⟨link, request, d⟩ := t
  obtain ⟨f, hf, hsettles, hnode⟩ := h.driver
  cases request with
  | some u =>
    obtain ⟨hfits, hasked⟩ := hsettles
    obtain ⟨d', hupdate, hd'⟩ := D.holds_update hf hfits
    refine ⟨⟨link, none, d'⟩, .applied u, ?_, ⟨h.link, h.bounded, _, hd', hasked, ?_⟩, ?_, rfl⟩
    · rw [step]
      dsimp only
      rw [hupdate]
      rfl
    · rw [hasked]
      exact asked_destination h.link
    · simp [backlog]
  | none =>
    obtain ⟨address', added, s⟩ := link
    obtain rfl : address' = address := h.link
    cases added with
    | false =>
      refine ⟨⟨⟨address', true, s⟩, some (.addDestination address'), d⟩, _, rfl,
        ⟨rfl, h.bounded, f, hf, ?_, hnode⟩, ?_, rfl⟩
      · have hf : f = ⟨s.held, none⟩ := hsettles
        subst hf
        exact ⟨rfl, rfl⟩
      · simp [backlog]
        omega
    | true =>
      obtain ⟨result, r, heq, hp, hr⟩ := bounded_polls h.bounded waker
      have hf' : f = ⟨s.held, some address'⟩ := hsettles
      subst hf'
      refine ⟨⟨⟨address', true, ⟨r, fetch s.held result⟩⟩,
        fetched (result.map (Except.map .message)), d⟩,
        .polled (result.map (Except.map .message)), ?_, ⟨rfl, hr, _, hf, ?_, hnode⟩, ?_,
        hp.accounts.2⟩
      · rw [step, FilterLink.pollPop]
        dsimp only
        rw [heq]
        rfl
      · match result, hp, hr with
        | none, _, _ => rfl
        | some (.error _), _, _ => rfl
        | some (.ok u), hp, hr => exact ⟨fits_of_polls h.bounded hp hr _, rfl⟩
      · rcases backlog_polls hp with ⟨rfl, hC, hlast, hQ⟩ | hless
        · simp [backlog, hC, hlast, hQ, fetched]
        · have hle := (fetched (result.map (Except.map .message))).isSome.toNat_le
          dsimp only at hless
          simp only [backlog, Bool.not_true, Bool.toNat_false, Option.isSome_none]
          omega

theorem Inv.step (h : t.Inv D address) {op : Op} (hop : t.Valid op ∧ ¬ t.DoubleCredits op) :
    ∃ t' event, t.step D op = .ok (t', event) ∧ t'.Inv D address := by
  cases op with
  | registry op => exact h.registry hop.1 hop.2
  | resume waker =>
    obtain ⟨t', event, hstep, ht', -⟩ := h.resume waker
    exact ⟨t', event, hstep, ht'⟩
  | restart => exact h.restart hop.1

/-! ## Runs -/

/-- What is set up when there is nothing left to do. -/
theorem Inv.holds_of_backlog (h : t.Inv D address) (hzero : t.backlog = 0) :
    D.Holds ⟨t.link.rxMsg.inner.subjects, some address⟩ t.driver := by
  obtain ⟨f, hf, hsettles, -⟩ := h.driver
  obtain ⟨⟨address', added, s⟩, request, d⟩ := t
  obtain rfl : address' = address := h.link
  simp only [backlog, Nat.add_eq_zero_iff, Nat.mul_eq_zero, Bool.toNat_eq_zero,
    List.length_eq_zero_iff, Bool.not_eq_false'] at hzero
  obtain ⟨hzero, hrequest⟩ := hzero
  obtain ⟨⟨⟨hC, hlast⟩, hQ⟩, rfl⟩ := hzero.resolve_left (by decide)
  obtain rfl : request = none := by simpa using hrequest
  obtain rfl : f = ⟨s.held, some address'⟩ := hsettles
  have hheld : s.held = s.inner.subjects := by
    ext d
    have hp : Polls s.inner 0 none _ := .pending hC hlast hQ
    rw [h.bounded.inv.held_of_pending hp rfl d, mem_subjects]
    rfl
  dsimp only
  rwa [← hheld]

/-- **The task catches up**: once it has resumed often enough, the driver holds the subjects of the
registered entries and the address of the node. -/
theorem Inv.catches_up (h : t.Inv D address) (waker : Waker) {n : ℕ} (hn : t.backlog ≤ n) :
    ∃ t' events, run (FilterTask.step D) t (List.replicate n (.resume waker)) = .ok (t', events) ∧
      D.Holds ⟨t.link.rxMsg.inner.subjects, some address⟩ t'.driver := by
  have hresume : ∀ (_ : List Event) (t' : FilterTask δ), (t'.Inv D address ∧
      t'.link.rxMsg.inner.subjects = t.link.rxMsg.inner.subjects) →
      ∃ t'' event, t'.step D (.resume waker) = .ok (t'', event) ∧ (t''.Inv D address ∧
        t''.link.rxMsg.inner.subjects = t.link.rxMsg.inner.subjects) ∧
        t''.backlog ≤ t'.backlog - 1 := by
    rintro - t' ⟨h', hsubjects⟩
    obtain ⟨t'', event, hstep, h'', hle, hsubjects'⟩ := h'.resume waker
    exact ⟨t'', event, hstep, ⟨h'', hsubjects'.trans hsubjects⟩, hle⟩
  obtain ⟨t', events, hrun, ⟨h', hsubjects⟩, hzero⟩ :=
    run_replicate hresume [] ⟨h, rfl⟩ hn
  have hholds := h'.holds_of_backlog hzero
  rw [hsubjects] at hholds
  exact ⟨t', events, hrun, hholds⟩

/-- The driver holds the subject of an active entry, unless it is just about to be added. -/
theorem Inv.holds_active (h : t.Inv D address) : ∃ f, D.Holds f t.driver ∧
    (∀ e ∈ t.link.rxMsg.inner.activeEntryTree,
      t.request ≠ some (.message (.addSubject e.subject)) → e.subject ∈ f.subjects) ∧
    ∀ node, f.destination = some node → node = address := by
  obtain ⟨f, hf, hsettles, hnode⟩ := h.driver
  refine ⟨f, hf, fun e he hrequest ↦ ?_, hnode⟩
  have hheld : e.subject ∈ t.asked.subjects := h.bounded.inv.held e he
  cases hu : t.request with
  | none =>
    rw [hu] at hsettles
    rwa [show f = t.asked from hsettles]
  | some u =>
    rw [hu] at hsettles hrequest
    rw [← hsettles.2] at hheld
    cases u with
    | addDestination | removeDestinationRange => exact hheld
    | message update =>
      cases update with
      | removeSubjectRange => exact (Finset.mem_filter.mp hheld).1
      | addSubject subject =>
        refine (Finset.mem_insert.mp hheld).resolve_left fun heq ↦ hrequest ?_
        rw [heq]

end FilterTask

end Emcyphal
