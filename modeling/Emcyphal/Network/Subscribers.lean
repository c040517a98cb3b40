import Emcyphal.Registry.Delivery
import Emcyphal.Rx.Stream

/-!
# The subscribers of a node

The receive side of `CoreNode`: `poll_push` pushes a frame to the message registry, which pushes it
to the entries of its subject one after the other.  Some of the entries are those of subscribers
with a priority FIFO, which are popped in between.

Each subscriber gets the frames of its subject in the order in which they were pushed to the node,
each of them once (`Inv.step`).
-/

set_option autoImplicit false

namespace Emcyphal

open Rust

/-- Which subscriber the entry at an address is of. -/
structure Owners (ι : Type) where
  address : ι → RxMsg.Address
  owner : RxMsg.Address → Option ι
  owner_eq_some : ∀ a i, owner a = some i ↔ address i = a

/-- A node, as far as its subscribers to messages are concerned. -/
structure SubscriberNode (ι : Type) (SN TN : ι → ℕ) where
  registry : RxMsg.RegularInner
  /-- The frame that is being pushed. -/
  pushing : Option Frame
  subscribers : (i : ι) → RxPriorityFifoInner (SN i) (TN i)

namespace SubscriberNode

variable {ι : Type} {SN TN : ι → ℕ} [DecidableEq ι]

inductive Op (ι : Type)
  /-- The driver pushes a frame to the node, -/
  | pushStart (frame : Frame)
  /-- and the registry pushes it to the next entry. -/
  | pushNext
  /-- The endpoint of a subscriber uses its buffer. -/
  | endpoint (i : ι) (op : Emcyphal.Op)

inductive Event (ι : Type)
  | started (frame : Frame) (started : Bool)
  /-- The frame was pushed to an entry that is not of a subscriber, or to none. -/
  | passed
  | buffer (i : ι) (event : Emcyphal.Event)

def buffer (n : SubscriberNode ι SN TN) (i : ι) (op : Emcyphal.Op) :
    Exec (SubscriberNode ι SN TN × Event ι) := do
  let (r, event) ← (n.subscribers i).step op
  return ({ n with subscribers := Function.update n.subscribers i r }, .buffer i event)

/-- Frames that are not messages, and those that are looped back, are for other registries. -/
def pushStart (n : SubscriberNode ι SN TN) (frame : Frame) :
    Exec (SubscriberNode ι SN TN × Event ι) :=
  match frame.header.dataSpec, frame.loopBack with
  | .message subject, false => do
    let (started, registry) ← n.registry.hubPushStart subject
    return ({ n with registry := registry, pushing := if started then some frame else none },
      .started frame started)
  | _, _ => .ok (n, .started frame false)

def pushNext (owners : Owners ι) (n : SubscriberNode ι SN TN) :
    Exec (SubscriberNode ι SN TN × Event ι) :=
  match n.pushing with
  | none => .ok (n, .passed)
  | some frame => do
    let (entry, more, registry) ← n.registry.hubPushNext
    let n := { n with registry := registry, pushing := if more then some frame else none }
    match entry.bind owners.owner with
    | none => return (n, .passed)
    | some i => n.buffer i (.pushFrame frame)

def step (owners : Owners ι) (n : SubscriberNode ι SN TN) :
    Op ι → Exec (SubscriberNode ι SN TN × Event ι)
  | .pushStart frame => n.pushStart frame
  | .pushNext => n.pushNext owners
  | .endpoint i op => n.buffer i op

/-- A frame is pushed once the push of the last one has returned, and endpoints do not push. -/
def Valid (n : SubscriberNode ι SN TN) : Op ι → Prop
  | .pushStart _ => n.pushing.isNone = true
  | .pushNext => n.pushing.isSome = true
  | .endpoint _ op => op.frame?.isNone = true

omit [DecidableEq ι] in
instance (n : SubscriberNode ι SN TN) : (op : Op ι) → Decidable (n.Valid op)
  | .pushStart _ | .pushNext | .endpoint _ _ => inferInstanceAs (Decidable (_ = true))

/-! ## Histories -/

/-- The frames with this data specifier that were pushed to the node. -/
def pushed (d : DataSpecifier) (events : List (Event ι)) : List Frame :=
  events.filterMap fun
    | .started frame _ =>
      if frame.header.dataSpec = d ∧ frame.loopBack = false then some frame else none
    | _ => none

/-- What happened to the buffer of a subscriber. -/
def history (i : ι) (events : List (Event ι)) : List Emcyphal.Event :=
  events.filterMap fun
    | .buffer j event => if j = i then some event else none
    | _ => none

variable {n : SubscriberNode ι SN TN} {events : List (Event ι)} {d : DataSpecifier} {i j : ι}
  {frame : Frame}

omit [DecidableEq ι] in
theorem pushed_started (events : List (Event ι)) (frame : Frame) (started : Bool) :
    pushed d (events ++ [.started frame started]) =
      pushed d events ++
        if frame.header.dataSpec = d ∧ frame.loopBack = false then [frame] else [] := by
  rw [pushed, List.filterMap_append]
  split <;> simp_all [pushed]

omit [DecidableEq ι] in
theorem pushed_of_not_started (events : List (Event ι)) {event : Event ι}
    (h : ∀ frame started, event ≠ .started frame started) :
    pushed d (events ++ [event]) = pushed d events := by
  cases event with
  | started frame started => exact absurd rfl (h frame started)
  | passed | buffer => simp [pushed]

theorem history_buffer (events : List (Event ι)) (i : ι) (event : Emcyphal.Event) :
    history i (events ++ [.buffer i event]) = history i events ++ [event] := by
  simp [history]

theorem history_of_ne (events : List (Event ι)) {event : Event ι}
    (h : ∀ e, event ≠ .buffer i e) : history i (events ++ [event]) = history i events := by
  cases event with
  | started | passed => simp [history]
  | buffer j e =>
    have hj : j ≠ i := fun hj ↦ h e (hj ▸ rfl)
    simp [history, hj]

/-- Frames are pushed to the node by nothing else. -/
theorem not_started {owners : Owners ι} {op : Op ι} (hop : ∀ frame, op ≠ .pushStart frame)
    {n' : SubscriberNode ι SN TN} {event : Event ι} (h : n.step owners op = .ok (n', event))
    (frame : Frame) (started : Bool) : event ≠ .started frame started := by
  rintro rfl
  have hbuffer : ∀ {n : SubscriberNode ι SN TN} {i : ι} {op : Emcyphal.Op},
      n.buffer i op ≠ .ok (n', .started frame started) := by
    intro n i op heq
    obtain ⟨x, -, hx⟩ := bind_eq_ok.mp heq
    cases hx
  cases op with
  | pushStart frame => exact hop frame rfl
  | endpoint i op => exact hbuffer h
  | pushNext =>
    rw [step, pushNext] at h
    split at h
    · cases h
    · obtain ⟨⟨entry, more, r⟩, -, hrest⟩ := bind_eq_ok.mp h
      dsimp only at hrest
      split at hrest
      · cases hrest
      · exact hbuffer hrest

/-! ## Runs -/

/-- The frames that are still to be pushed to the entry at an address. -/
def pending (frame : Option Frame) (done : List RxMsg.Address) (address : RxMsg.Address)
    (subject : SubjectId) : List Frame :=
  frame.toList.filter fun f ↦ f.header.dataSpec = .message subject ∧ address ∉ done

/-- The frame that is being pushed was pushed to these entries. -/
structure Delivered (owners : Owners ι) (subject : ι → SubjectId) (events : List (Event ι))
    (n : SubscriberNode ι SN TN) (held : Finset SubjectId) (done : List RxMsg.Address) : Prop where
  inv : RxMsg.System.Inv ⟨n.registry, held⟩
  delivers : ∀ frame, n.pushing = some frame → ∃ d, frame.header.dataSpec = .message d ∧
    RxMsg.System.Delivers ⟨n.registry, held⟩ d done
      {a | ∃ e ∈ n.registry.activeEntryTree, e.address = a ∧ e.subject = d}
  arrives : ∀ i, pushed (.message (subject i)) events =
    arrivals (history i events) ++ pending n.pushing done (owners.address i) (subject i)

/-- The invariant of a run: each subscriber is registered, its buffer is what its history says, and
it has got the frames of its subject. -/
structure Inv (owners : Owners ι) (subject : ι → SubjectId)
    (r₀ : (i : ι) → RxPriorityFifoInner (SN i) (TN i)) (events : List (Event ι))
    (n : SubscriberNode ι SN TN) : Prop where
  registered : ∀ i, ∃ e ∈ n.registry.activeEntryTree,
    e.address = owners.address i ∧ e.subject = subject i
  runs : ∀ i, ∃ ops, run RxPriorityFifoInner.step (r₀ i) ops =
    .ok (n.subscribers i, history i events)
  delivered : ∃ held done, n.Delivered owners subject events held done

section Steps

variable {owners : Owners ι} {subject : ι → SubjectId}
  {r₀ : (i : ι) → RxPriorityFifoInner (SN i) (TN i)} {held : Finset SubjectId}
  {done : List RxMsg.Address}

theorem pending_of_mem {frame : Option Frame} {address : RxMsg.Address} {s : SubjectId}
    (h : ∀ f, frame = some f → f.header.dataSpec = .message s → address ∈ done) :
    pending frame done address s = [] := by
  refine List.filter_eq_nil_iff.mpr fun f hf hdecide ↦ ?_
  obtain ⟨hspec, hnot⟩ := of_decide_eq_true hdecide
  exact hnot (h f (Option.mem_toList.mp hf) hspec)

theorem pending_of_not_mem {f : Frame} {address : RxMsg.Address} {s : SubjectId}
    (hspec : f.header.dataSpec = .message s) (hnot : address ∉ done) :
    pending (some f) done address s = [f] := by
  simp [pending, hspec, hnot]

theorem pending_cons (frame : Option Frame) {address a : RxMsg.Address} {s : SubjectId}
    (hne : address ≠ a) : pending frame (a :: done) address s = pending frame done address s := by
  simp [pending, hne]

/-- The frame is pushed to the next entry.  The other entries wait for it as before, also when it
is the last one. -/
theorem Delivered.next (h : n.Delivered owners subject events held done)
    (hregistered : ∀ i, ∃ e ∈ n.registry.activeEntryTree,
      e.address = owners.address i ∧ e.subject = subject i)
    (hpushing : n.pushing = some frame) {entry : Option RxMsg.Address} {more : Bool}
    {r : RxMsg.RegularInner} (hp : RxMsg.PushesNext n.registry entry more r) :
    ∃ done', RxMsg.System.Inv ⟨r, held⟩ ∧ r.activeEntryTree = n.registry.activeEntryTree ∧
      (∃ d, frame.header.dataSpec = .message d ∧ RxMsg.System.Delivers ⟨r, held⟩ d done'
        {a | ∃ e ∈ n.registry.activeEntryTree, e.address = a ∧ e.subject = d}) ∧
      ∀ i, pending (some frame) done (owners.address i) (subject i) =
        (if entry = some (owners.address i) then [frame] else []) ++
          pending (if more then some frame else none) done' (owners.address i) (subject i) := by
  obtain ⟨d, hd, hdelivers⟩ := h.delivers frame hpushing
  have howed : ∀ i, frame.header.dataSpec = .message (subject i) → owners.address i ∈
      {a | ∃ e ∈ n.registry.activeEntryTree, e.address = a ∧ e.subject = d} := by
    intro i hi
    obtain ⟨e, he, haddress, hsubject⟩ := hregistered i
    exact ⟨e, he, haddress, hsubject.trans (DataSpecifier.message.inj (hi.symm.trans hd))⟩
  have hinv := h.inv.of_pushesNext hp
  cases hp with
  | idle hnext =>
    refine ⟨done, hinv, rfl, ⟨d, hd, hdelivers⟩, fun i ↦ ?_⟩
    have hall := (hnext ▸ hdelivers.walk).subset
    refine pending_of_mem ?_
    rintro f ⟨⟩ hspec
    exact hall (howed i hspec)
  | @next as bs e hA hnext =>
    obtain ⟨hsubject, hnew, hwalk⟩ := hdelivers.push hA hnext
    refine ⟨e.address :: done, hinv, rfl, ⟨d, hd, hinv, hwalk⟩, fun i ↦ ?_⟩
    by_cases hi : owners.address i = e.address
    · obtain ⟨x, hx, haddress, hxi⟩ := hregistered i
      obtain rfl : x = e := List.inj_on_of_nodup_map h.inv.nodup_active hx (hA ▸ by simp)
        (haddress.trans hi)
      rw [pending_of_not_mem (hd.trans (by rw [← hsubject, hxi])) (hi ▸ hnew), if_pos (by rw [hi]),
        pending_of_mem fun _ _ _ ↦ hi ▸ List.mem_cons_self]
      rfl
    · rw [if_neg fun heq ↦ hi (Option.some.inj heq).symm, List.nil_append,
        ← pending_cons (some frame) hi]
      cases hmore : RxMsg.RegularInner.followUp bs with
      | some next => rfl
      | none =>
        have hall := (hmore ▸ hwalk).subset
        refine pending_of_mem ?_
        rintro f ⟨⟩ hspec
        exact hall (howed i hspec)

/-! ### The buffers -/

/-- Only the buffer of one subscriber has got the frame. -/
theorem arrivals_history_buffer (events : List (Event ι)) (i j : ι) (event : Emcyphal.Event) :
    arrivals (history j (events ++ [.buffer i event])) =
      arrivals (history j events) ++ if i = j then event.frame?.toList else [] := by
  by_cases hij : i = j
  · subst hij
    rw [history_buffer, arrivals, List.filterMap_append, if_pos rfl]
    cases hframe : event.frame? <;> simp [arrivals, hframe]
  · rw [history_of_ne events fun e he ↦ hij (Event.buffer.inj he).1, if_neg hij, List.append_nil]

theorem runs_buffer (hruns : ∀ j, ∃ ops, run RxPriorityFifoInner.step (r₀ j) ops =
    .ok (n.subscribers j, history j events)) {op : Emcyphal.Op}
    {r : RxPriorityFifoInner (SN i) (TN i)} {event : Emcyphal.Event}
    (hstep : (n.subscribers i).step op = .ok (r, event)) (j : ι) :
    ∃ ops, run RxPriorityFifoInner.step (r₀ j) ops =
      .ok (Function.update n.subscribers i r j, history j (events ++ [.buffer i event])) := by
  obtain ⟨ops, hrun⟩ := hruns j
  by_cases hij : j = i
  · subst hij
    refine ⟨ops ++ [op], run_concat_eq_ok.mpr ⟨_, _, event, hrun, ?_, history_buffer ..⟩⟩
    rw [hstep, Function.update_self]
  · refine ⟨ops, ?_⟩
    rw [Function.update_of_ne hij, history_of_ne events fun e he ↦ hij (Event.buffer.inj he).1.symm,
      hrun]

variable {capacity : ι → ℕ} {timeout : ι → Duration} {buffers : ι → List (List Byte)}
  (hsized : ∀ i, RxPriorityFifoInner.Sized (SN i) (TN i) (capacity i) (buffers i))
  (hSN : ∀ i, 1 ≤ SN i)
  (hnew : ∀ i, RxPriorityFifoInner.new (SN i) (TN i) (.message (subject i)) (timeout i)
    (buffers i) = .ok (r₀ i))

include hsized hSN hnew

/-- A buffer does not panic. -/
theorem Inv.buffer (h : n.Inv owners subject r₀ events) (i : ι) (op : Emcyphal.Op) :
    ∃ r event, (n.subscribers i).step op = .ok (r, event) ∧ event.frame? = op.frame? := by
  obtain ⟨ops, hrun⟩ := h.runs i
  obtain ⟨l, b, hr⟩ := RxPriorityFifoInner.reaches_of_run (hsized i) (hnew i) hrun
  obtain ⟨r, event, l', b', hstep, -⟩ := RxPriorityFifoInner.step_represents (hsized i).le_noEntry
    (hsized i).transfers.1 hr.represents op (.inl (hSN i))
  exact ⟨r, event, hstep, RxPriorityFifoInner.step_frame? hstep⟩

/-! ### The operations -/

omit hsized hSN hnew in
/-- A push starts. -/
theorem Inv.pushStart (h : n.Inv owners subject r₀ events) (hidle : n.pushing = none)
    (frame : Frame) :
    ∃ n' started, n.pushStart frame = .ok (n', .started frame started) ∧
      n'.Inv owners subject r₀ (events ++ [.started frame started]) := by
  obtain ⟨held, done, hinv, -, harrives⟩ := h.delivered
  rw [hidle] at harrives
  have hhistory : ∀ (i : ι) (started : Bool),
      history i (events ++ [.started frame started]) = history i events :=
    fun i started ↦ history_of_ne events (by simp)
  have hruns : ∀ (started : Bool) (i : ι), ∃ ops, run RxPriorityFifoInner.step (r₀ i) ops =
      .ok (n.subscribers i, history i (events ++ [.started frame started])) := by
    intro started i
    rw [hhistory]
    exact h.runs i
  by_cases hmessage : ∃ d, frame.header.dataSpec = .message d ∧ frame.loopBack = false
  · obtain ⟨d, hd, hloopBack⟩ := hmessage
    obtain ⟨started, r, hstart, hp⟩ := hinv.startsPush d
    have htree : r.activeEntryTree = n.registry.activeEntryTree := by cases hp <;> rfl
    refine ⟨⟨r, if started then some frame else none, n.subscribers⟩, started, ?_,
      ⟨htree ▸ h.registered, hruns started, held, [], hinv.of_startsPush hp, ?_, fun i ↦ ?_⟩⟩
    · rw [SubscriberNode.pushStart, hd, hloopBack]
      exact bind_eq_ok.mpr ⟨_, hstart, rfl⟩
    · intro f hf
      obtain ⟨rfl, rfl⟩ : started = true ∧ frame = f := by simpa using hf
      exact ⟨d, hd, htree ▸ hinv.delivers hp⟩
    · rw [pushed_started, harrives i, hhistory]
      cases hp with
      | found => simp [pending, hloopBack, List.filter_singleton]
      | missing hnot =>
        obtain ⟨e, he, -, hsubject⟩ := h.registered i
        have hne : d ≠ subject i := fun heq ↦ hnot e he (hsubject.trans heq.symm)
        simp [pending, hd, hne]
  · refine ⟨n, false, ?_, ⟨h.registered, hruns false, held, done, hinv, ?_,
      fun i ↦ ?_⟩⟩
    · rw [SubscriberNode.pushStart]
      split
      · exact absurd ⟨_, ‹_›, ‹_›⟩ hmessage
      · rfl
    · rw [hidle]
      simp
    · rw [pushed_started, harrives i, hhistory, if_neg fun heq ↦ hmessage ⟨_, heq⟩, hidle,
        List.append_nil]

/-- The push goes on with the next entry. -/
theorem Inv.pushNext (h : n.Inv owners subject r₀ events) (hpushing : n.pushing = some frame) :
    ∃ n' event, n.pushNext owners = .ok (n', event) ∧
      n'.Inv owners subject r₀ (events ++ [event]) := by
  obtain ⟨held, done, hdelivered⟩ := h.delivered
  obtain ⟨entry, more, r, hnext, hp⟩ := hdelivered.inv.pushesNext
  obtain ⟨done', hinv, htree, hdelivers, hpending⟩ := hdelivered.next h.registered hpushing hp
  have harrives := hdelivered.arrives
  rw [hpushing] at harrives
  have hdelivers' : ∀ f, (if more then some frame else none) = some f → ∃ d,
      f.header.dataSpec = .message d ∧ RxMsg.System.Delivers ⟨r, held⟩ d done'
        {a | ∃ e ∈ n.registry.activeEntryTree, e.address = a ∧ e.subject = d} := by
    intro f hf
    obtain ⟨-, rfl⟩ : more = true ∧ frame = f := by simpa using hf
    exact hdelivers
  rw [SubscriberNode.pushNext, hpushing, hnext]
  cases howner : entry.bind owners.owner with
  | none =>
    refine ⟨⟨r, if more then some frame else none, n.subscribers⟩, .passed, by simp [howner],
      ⟨htree ▸ h.registered, fun i ↦ ?_, held, done', hinv, htree ▸ hdelivers', fun i ↦ ?_⟩⟩
    · rw [history_of_ne events (by simp)]
      exact h.runs i
    · have hne : entry ≠ some (owners.address i) := by
        rintro rfl
        cases howner.symm.trans ((owners.owner_eq_some _ i).mpr rfl)
      rw [pushed_of_not_started events (by simp), history_of_ne events (by simp), harrives i,
        hpending i, if_neg hne, List.nil_append]
  | some i =>
    obtain ⟨address, rfl, howner⟩ := Option.bind_eq_some_iff.mp howner
    obtain rfl := (owners.owner_eq_some _ i).mp howner
    obtain ⟨b, event, hstep, hframe⟩ := h.buffer hsized hSN hnew i (.pushFrame frame)
    refine ⟨⟨r, if more then some frame else none, Function.update n.subscribers i b⟩,
      .buffer i event, by simp [howner, SubscriberNode.buffer, hstep], ⟨htree ▸ h.registered,
      runs_buffer h.runs hstep, held, done', hinv, htree ▸ hdelivers', fun j ↦ ?_⟩⟩
    have hij : some (owners.address i) = some (owners.address j) ↔ i = j := by
      rw [Option.some_inj, ← owners.owner_eq_some, (owners.owner_eq_some _ j).mpr rfl,
        Option.some_inj, eq_comm]
    rw [pushed_of_not_started events (by simp), arrivals_history_buffer, harrives j, hpending j,
      hframe, List.append_assoc]
    simp only [hij]
    rfl

/-- An endpoint uses its buffer. -/
theorem Inv.endpoint (h : n.Inv owners subject r₀ events) (i : ι) {op : Emcyphal.Op}
    (hop : op.frame? = none) :
    ∃ n' event, n.buffer i op = .ok (n', event) ∧ n'.Inv owners subject r₀ (events ++ [event]) := by
  obtain ⟨b, event, hstep, hframe⟩ := h.buffer hsized hSN hnew i op
  obtain ⟨held, done, hdelivered⟩ := h.delivered
  refine ⟨{ n with subscribers := Function.update n.subscribers i b }, .buffer i event,
    by simp [SubscriberNode.buffer, hstep], ⟨h.registered, runs_buffer h.runs hstep, held, done,
      hdelivered.inv, hdelivered.delivers, fun j ↦ ?_⟩⟩
  rw [pushed_of_not_started events (by simp), arrivals_history_buffer, hframe, hop,
    hdelivered.arrives j]
  simp

/-- **Each subscriber gets the frames of its subject**, whatever is done next. -/
theorem Inv.step (h : n.Inv owners subject r₀ events) {op : Op ι} (hop : n.Valid op) :
    ∃ n' event, n.step owners op = .ok (n', event) ∧
      n'.Inv owners subject r₀ (events ++ [event]) := by
  cases op with
  | pushStart frame =>
    obtain ⟨n', started, hstart, hn'⟩ := h.pushStart (Option.isNone_iff_eq_none.mp hop) frame
    exact ⟨n', _, hstart, hn'⟩
  | pushNext =>
    obtain ⟨frame, hpushing⟩ := Option.isSome_iff_exists.mp hop
    exact h.pushNext hsized hSN hnew hpushing
  | endpoint i op =>
    exact h.endpoint hsized hSN hnew i (Option.isNone_iff_eq_none.mp hop)

end Steps

end SubscriberNode

end Emcyphal
