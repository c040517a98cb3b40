import Emcyphal.Lib.Lives
import Emcyphal.Lib.Tree
import Emcyphal.Registry.RxMsg
import Emcyphal.Rx.Stream

/-!
# The registry of request endpoints

`emcyphal/src/registry/rx_req.rs`, and what the nodes in `emcyphal/src/node` do with a request: it
is pushed to the registry if its destination is the node.  The tree has one entry for each service,
so that there is at most one buffer that a request is for.

`requests_routed` says what there is in the tree after any number of operations: the entries that
were registered and not unregistered since, and each of their buffers is what the requests for it
and the calls of its own endpoint have made of it.
-/

set_option autoImplicit false

namespace Emcyphal.RxReq

open Rust Tree
open RxMsg (Address RegistrationError)

/-- `buffer::rx_req::PriorityFifo` with its data buffers. -/
structure PriorityFifo where
  SN : ℕ
  TN : ℕ
  capacity : ℕ
  buffers : List (List Byte)
  sized : RxPriorityFifoInner.Sized SN TN capacity buffers

/-- What an entry has a pointer to.  The pointer forgets the size of the buffer. -/
structure Buffer where
  SN : ℕ
  TN : ℕ
  inner : RxPriorityFifoInner SN TN

namespace Buffer

def step (b : Buffer) (op : Emcyphal.Op) : Exec (Buffer × Emcyphal.Event) := do
  let (inner, event) ← b.inner.step op
  return (⟨b.SN, b.TN, inner⟩, event)

/-- A session can be started for the frame, if it is one that needs a session. -/
def HasSessions (b : Buffer) (frame : Frame) : Prop :=
  1 ≤ b.SN ∨ ¬ SessionTable.NeedsSession b.inner.dataSpecifier frame

instance (b : Buffer) (frame : Frame) : Decidable (b.HasSessions frame) :=
  inferInstanceAs (Decidable (_ ∨ _))

end Buffer

def PriorityFifo.init (fifo : PriorityFifo) (service : ServiceId) (timeout : Duration) :
    Exec Buffer := do
  let inner ← RxPriorityFifoInner.new fifo.SN fifo.TN (.request service) timeout fifo.buffers
  return ⟨fifo.SN, fifo.TN, inner⟩

structure Entry where
  address : Address
  service : ServiceId
  buffer : Buffer

structure Inner where
  entryTree : List Entry

namespace Inner

def default : Inner := ⟨[]⟩

/-- `entry_tree.entry(&entry.service)` is vacant or occupied. -/
def regRegister (r : Inner) (entry : Entry) : Except RegistrationError Address × Inner :=
  match r.entryTree.find? fun e ↦ e.service == entry.service with
  | none =>
    let cursor := upperBound Entry.service entry.service r.entryTree
    (.ok entry.address, ⟨cursor.1 ++ entry :: cursor.2⟩)
  | some _ => (.error .dataSpecifierOccupied, r)

def regUnregister (r : Inner) (token : Address) : Exec Inner := do
  let (before, _, after) ← unwrap (cursorAt (fun entry ↦ entry.address == token) r.entryTree)
  return ⟨before ++ after⟩

/-- The token leads to the entry, and the entry to its buffer. -/
def withBufferMut (r : Inner) (token : Address) (op : Emcyphal.Op) :
    Exec (Inner × Emcyphal.Event) := do
  let (before, entry, after) ← unwrap (cursorAt (fun entry ↦ entry.address == token) r.entryTree)
  let (buffer, event) ← entry.buffer.step op
  return (⟨before ++ { entry with buffer := buffer } :: after⟩, event)

/-- Next to what the code does, the entry whose buffer the frame is pushed to. -/
def hubPush (r : Inner) (frame : Frame) : Exec (Option Address × Inner) :=
  match frame.header.dataSpec with
  | .request service =>
    match cursorAt (fun entry ↦ entry.service == service) r.entryTree with
    | some (before, entry, after) => do
      let (buffer, _) ← entry.buffer.step (.pushFrame frame)
      return (some entry.address, ⟨before ++ { entry with buffer := buffer } :: after⟩)
    | none => .ok (none, r)
  | _ => .ok (none, r)

def pollPush (r : Inner) (frame : Frame) : Exec (Option Address × Inner) :=
  if frame.loopBack then .ok (none, r) else r.hubPush frame

end Inner

/-- A `CoreNode` or a `NodeState`, as far as requests are concerned. -/
structure Node where
  address : NodeId
  rxReq : Inner

/-- The endpoints are created, used and dropped, and the driver pushes frames. -/
inductive Op
  | createRequest (address : Address) (fifo : PriorityFifo) (service : ServiceId)
    (timeout : Duration)
  | drop (token : Address)
  | pushFrame (frame : Frame)
  | endpoint (token : Address) (op : Emcyphal.Op)

inductive Event
  | created (result : Except RegistrationError Address)
  | dropped
  | pushed (entry : Option Address)
  | endpoint (event : Emcyphal.Event)

namespace Node

def new (address : NodeId) : Node := ⟨address, .default⟩

/-- `poll_push`.  Messages go to another registry, and all other frames are dropped. -/
def pollPush (n : Node) (frame : Frame) : Exec (Option Address × Node) :=
  match frame.header.dataSpec, frame.loopBack with
  | .request _, false =>
    if frame.header.destination = some n.address then do
      let (entry, rxReq) ← n.rxReq.pollPush frame
      return (entry, { n with rxReq := rxReq })
    else .ok (none, n)
  | _, _ => .ok (none, n)

def step (n : Node) : Op → Exec (Node × Event)
  | .createRequest address fifo service timeout => do
    let buffer ← fifo.init service timeout
    let (result, rxReq) := n.rxReq.regRegister ⟨address, service, buffer⟩
    return ({ n with rxReq := rxReq }, .created result)
  | .drop token => do
    let rxReq ← n.rxReq.regUnregister token
    return ({ n with rxReq := rxReq }, .dropped)
  | .pushFrame frame => do
    let (entry, n) ← n.pollPush frame
    return (n, .pushed entry)
  | .endpoint token op => do
    let (rxReq, event) ← n.rxReq.withBufferMut token op
    return ({ n with rxReq := rxReq }, .endpoint event)

/-- A new entry is at a free address, a token is that of an entry, endpoints do not push frames, and
a frame that needs a session is not pushed to a buffer without any. -/
def Valid (n : Node) : Op → Prop
  | .createRequest address _ _ _ => ∀ e ∈ n.rxReq.entryTree, e.address ≠ address
  | .drop token => ∃ e ∈ n.rxReq.entryTree, e.address = token
  | .pushFrame frame => ∀ e ∈ n.rxReq.entryTree, e.buffer.HasSessions frame
  | .endpoint token op => (∃ e ∈ n.rxReq.entryTree, e.address = token) ∧ op.frame?.isNone = true

instance (n : Node) : (op : Op) → Decidable (n.Valid op)
  | .createRequest address _ _ _ =>
    inferInstanceAs (Decidable (∀ e ∈ n.rxReq.entryTree, e.address ≠ address))
  | .drop token => inferInstanceAs (Decidable (∃ e ∈ n.rxReq.entryTree, e.address = token))
  | .pushFrame frame =>
    inferInstanceAs (Decidable (∀ e ∈ n.rxReq.entryTree, e.buffer.HasSessions frame))
  | .endpoint token op => inferInstanceAs
    (Decidable ((∃ e ∈ n.rxReq.entryTree, e.address = token) ∧ op.frame?.isNone = true))

end Node

/-! ## What an entry sees -/

/-- The frame is a request for this service of this node, and was not looped back. -/
def IsRequest (address : NodeId) (service : ServiceId) (frame : Frame) : Prop :=
  frame.header.dataSpec = .request service ∧ frame.loopBack = false ∧
    frame.header.destination = some address

instance (address : NodeId) (service : ServiceId) (frame : Frame) :
    Decidable (IsRequest address service frame) := inferInstanceAs (Decidable (_ ∧ _ ∧ _))

section Log

variable (address : NodeId) (token : Address) (service : ServiceId)

/-- The entry is registered. -/
def birth : Op × Event → Option Buffer
  | (.createRequest token' fifo service' timeout, .created (.ok _)) =>
    if token' = token ∧ service' = service then (fifo.init service timeout).toOption else none
  | _ => none

/-- What an operation does to the buffer of the entry. -/
def own : Op × Event → Option Emcyphal.Op
  | (.pushFrame frame, _) =>
    if IsRequest address service frame then some (.pushFrame frame) else none
  | (.endpoint token' op, _) => if token' = token then some op else none
  | _ => none

/-- After this log the entry is registered, with this buffer. -/
def Registered (log : List (Op × Event)) (buffer : Buffer) : Prop :=
  Lives Buffer.step (birth token service) (fun x ↦ x.1 = .drop token) (own address token service)
    log buffer

end Log

/-- What holds after this log. -/
structure Inv (address : NodeId) (log : List (Op × Event)) (n : Node) : Prop where
  address_eq : n.address = address
  sorted : n.rxReq.entryTree.Pairwise fun x y ↦ x.service < y.service
  nodup : (n.rxReq.entryTree.map Entry.address).Nodup
  /-- The entries are those that are registered. -/
  entries : ∀ e : Entry, e ∈ n.rxReq.entryTree ↔
    Registered address e.address e.service log e.buffer

variable {address : NodeId} {log : List (Op × Event)} {n : Node} {as bs : List Entry} {e : Entry}

/-! ## The buffers -/

theorem birth_eq_some {token : Address} {service : ServiceId} {x : Op × Event} {b : Buffer} :
    birth token service x = some b ↔ ∃ fifo timeout a,
      x = (.createRequest token fifo service timeout, .created (.ok a)) ∧
        fifo.init service timeout = .ok b := by
  constructor
  · intro h
    simp only [birth] at h
    split at h
    · rename_i token' fifo service' timeout a
      split at h
      · rename_i hsame
        obtain ⟨rfl, rfl⟩ := hsame
        refine ⟨fifo, timeout, a, rfl, ?_⟩
        cases hinit : fifo.init service' timeout with
        | error e =>
          rw [hinit] at h
          cases h
        | ok b' =>
          rw [hinit] at h
          cases h
          rfl
      · cases h
    · cases h
  · rintro ⟨fifo, timeout, a, rfl, hinit⟩
    rw [birth, if_pos ⟨rfl, rfl⟩, hinit]
    rfl

/-- A buffer runs as what it points to does. -/
theorem run_buffer_eq_ok {SN TN : ℕ} {r : RxPriorityFifoInner SN TN} {ops : List Emcyphal.Op}
    {b : Buffer} {events : List Emcyphal.Event} :
    run Buffer.step ⟨SN, TN, r⟩ ops = .ok (b, events) ↔
      ∃ r', b = ⟨SN, TN, r'⟩ ∧ run RxPriorityFifoInner.step r ops = .ok (r', events) := by
  have hstep : ∀ (r : RxPriorityFifoInner SN TN) (op : Emcyphal.Op), Buffer.step ⟨SN, TN, r⟩ op =
      (r.step op).map (Prod.map (fun r ↦ ⟨SN, TN, r⟩) id) := by
    intro r op
    rw [Buffer.step]
    cases r.step op <;> rfl
  rw [run_map (f := fun r : RxPriorityFifoInner SN TN ↦ (⟨SN, TN, r⟩ : Buffer)) hstep]
  cases run RxPriorityFifoInner.step r ops with
  | error e => simp [Except.map]
  | ok x =>
    obtain ⟨r', events'⟩ := x
    simp only [Except.map, Prod.map, id_eq, Except.ok.injEq, Prod.mk.injEq]
    constructor
    · rintro ⟨rfl, rfl⟩
      exact ⟨r', rfl, rfl, rfl⟩
    · rintro ⟨r'', rfl, rfl, rfl⟩
      exact ⟨rfl, rfl⟩

theorem PriorityFifo.init_eq (fifo : PriorityFifo) (service : ServiceId) (timeout : Duration) :
    ∃ r, RxPriorityFifoInner.new fifo.SN fifo.TN (.request service) timeout fifo.buffers = .ok r ∧
      fifo.init service timeout = .ok ⟨fifo.SN, fifo.TN, r⟩ := by
  obtain ⟨r, hnew, -⟩ := fifo.sized.new_reaches (.request service) timeout
  exact ⟨r, hnew, by rw [PriorityFifo.init, hnew]; rfl⟩

/-- **A registered buffer can be used**, except for a frame that it has no sessions for. -/
theorem Registered.step {token : Address} {service : ServiceId} {buffer : Buffer}
    (h : Registered address token service log buffer) (op : Emcyphal.Op)
    (hop : ∀ frame, op.frame? = some frame → buffer.HasSessions frame) :
    ∃ buffer' event, buffer.step op = .ok (buffer', event) := by
  obtain ⟨x, b, ops, events, hbirth, hrun⟩ := h.exists_run
  obtain ⟨fifo, timeout, -, -, hinit⟩ := birth_eq_some.mp hbirth
  obtain ⟨r, hnew, hinit'⟩ := fifo.init_eq service timeout
  cases hinit.symm.trans hinit'
  obtain ⟨r', rfl, hrun'⟩ := run_buffer_eq_ok.mp hrun
  obtain ⟨l, b, hr⟩ := RxPriorityFifoInner.reaches_of_run fifo.sized hnew hrun'
  have hsessions : 1 ≤ fifo.SN ∨ ¬ op.NeedsSession r'.dataSpecifier := by
    cases op with
    | pushFrame frame => exact hop frame rfl
    | tryPop | pollPopReadiness => exact .inr id
  obtain ⟨r'', event, -, -, hstep, -⟩ := RxPriorityFifoInner.step_represents fifo.sized.le_noEntry
    fifo.sized.transfers.1 hr.represents op hsessions
  exact ⟨⟨fifo.SN, fifo.TN, r''⟩, event, by rw [Buffer.step, hstep]; rfl⟩

/-! ## The tree -/

theorem cursorAt_address {as bs : List Entry} {e : Entry}
    (h : ((as ++ e :: bs).map Entry.address).Nodup) :
    cursorAt (fun x ↦ x.address == e.address) (as ++ e :: bs) = some (as, e, bs) := by
  rw [List.map_append, List.map_cons, List.nodup_append] at h
  refine cursorAt_append (fun x hx ↦ ?_) (by simp)
  simpa using h.2.2 _ (List.mem_map_of_mem hx) _ (by simp)

theorem cursorAt_service {as bs : List Entry} {e : Entry}
    (h : (as ++ e :: bs).Pairwise fun x y ↦ x.service < y.service) :
    cursorAt (fun x ↦ x.service == e.service) (as ++ e :: bs) = some (as, e, bs) := by
  refine cursorAt_append (fun x hx ↦ ?_) (by simp)
  simpa using ((List.pairwise_append.mp h).2.2 x hx e (by simp)).ne

theorem cursorAt_eq_none {p : Entry → Bool} {xs : List Entry} (h : ∀ x ∈ xs, p x = false) :
    cursorAt p xs = none := by
  induction xs with
  | nil => rfl
  | cons x xs ih =>
    obtain ⟨hx, hxs⟩ := List.forall_mem_cons.mp h
    rw [cursorAt, if_neg (by simp [hx]), ih hxs]
    rfl

/-- The tree after an entry has got another buffer. -/
theorem mem_assign (h : ((as ++ e :: bs).map Entry.address).Nodup) {buffer : Buffer} {x : Entry} :
    x ∈ as ++ { e with buffer := buffer } :: bs ↔
      x = { e with buffer := buffer } ∨ x ∈ as ++ e :: bs ∧ x.address ≠ e.address := by
  rw [List.map_append, List.map_cons, List.nodup_append, List.nodup_cons] at h
  obtain ⟨-, ⟨hbs, -⟩, has⟩ := h
  have hne : x ∈ as ∨ x ∈ bs → x.address ≠ e.address := by
    rintro (hx | hx)
    · exact has _ (List.mem_map_of_mem hx) _ (by simp)
    · exact fun heq ↦ hbs (heq ▸ List.mem_map_of_mem hx)
  simp only [List.mem_append, List.mem_cons]
  constructor
  · rintro (hx | rfl | hx)
    · exact .inr ⟨.inl hx, hne (.inl hx)⟩
    · exact .inl rfl
    · exact .inr ⟨.inr (.inr hx), hne (.inr hx)⟩
  · rintro (rfl | ⟨hx | rfl | hx, hnot⟩)
    · exact .inr (.inl rfl)
    · exact .inl hx
    · exact absurd rfl hnot
    · exact .inr (.inr hx)

/-! ## One step -/

namespace Inv

/-- Nothing happens to any entry. -/
theorem silent (h : Inv address log n) {x : Op × Event}
    (hbirth : ∀ token service, birth token service x = none) (hdrop : ∀ token, x.1 ≠ .drop token)
    (hown : ∀ e ∈ n.rxReq.entryTree, own address e.address e.service x = none) :
    Inv address (log ++ [x]) n := by
  refine ⟨h.address_eq, h.sorted, h.nodup, fun e ↦ ?_⟩
  rw [Registered, lives_concat]
  constructor
  · exact fun he ↦ .inr ⟨hdrop _, e.buffer, (h.entries e).mp he, .inl ⟨hown e he, rfl⟩⟩
  · rintro (hnew | ⟨-, s, hs, hsame⟩)
    · rw [hbirth] at hnew
      cases hnew
    · have hmem := (h.entries ⟨e.address, e.service, s⟩).mpr hs
      rcases hsame with ⟨-, rfl⟩ | ⟨op, o, hop, -⟩
      · exact hmem
      · rw [hown _ hmem] at hop
        cases hop

/-- One entry gets another buffer, and the others do not notice. -/
theorem assign (h : Inv address log n) (hT : n.rxReq.entryTree = as ++ e :: bs) {x : Op × Event}
    {op : Emcyphal.Op} {buffer : Buffer} {event : Emcyphal.Event}
    (hstep : e.buffer.step op = .ok (buffer, event))
    (hbirth : ∀ token service, birth token service x = none) (hdrop : ∀ token, x.1 ≠ .drop token)
    (hown : own address e.address e.service x = some op)
    (hothers : ∀ y ∈ n.rxReq.entryTree, y.address ≠ e.address →
      own address y.address y.service x = none) :
    Inv address (log ++ [x]) ⟨n.address, ⟨as ++ { e with buffer := buffer } :: bs⟩⟩ := by
  have hsorted := h.sorted
  have hnodup := h.nodup
  rw [hT] at hsorted hnodup
  refine ⟨h.address_eq, ?_, ?_, fun y ↦ ?_⟩
  · refine List.pairwise_append.mpr ?_
    obtain ⟨has, hbs, hlt⟩ := List.pairwise_append.mp hsorted
    obtain ⟨he, hbs⟩ := List.pairwise_cons.mp hbs
    refine ⟨has, List.pairwise_cons.mpr ⟨he, hbs⟩, fun y hy z hz ↦ ?_⟩
    rcases List.mem_cons.mp hz with rfl | hz
    · exact hlt y hy e (by simp)
    · exact hlt y hy z (List.mem_cons_of_mem e hz)
  · rw [List.map_append, List.map_cons] at hnodup ⊢
    exact hnodup
  · rw [mem_assign hnodup, ← hT, Registered, lives_concat]
    constructor
    · rintro (rfl | ⟨hy, hne⟩)
      · refine .inr ⟨hdrop _, e.buffer, ?_, .inr ⟨op, event, hown, hstep⟩⟩
        exact (h.entries e).mp (hT ▸ by simp)
      · exact .inr ⟨hdrop _, y.buffer, (h.entries y).mp hy, .inl ⟨hothers y hy hne, rfl⟩⟩
    · rintro (hnew | ⟨-, s, hs, hsame⟩)
      · rw [hbirth] at hnew
        cases hnew
      · have hmem := (h.entries ⟨y.address, y.service, s⟩).mpr hs
        by_cases hne : y.address = e.address
        · have heq : (⟨y.address, y.service, s⟩ : Entry) = e :=
            List.inj_on_of_nodup_map h.nodup hmem (hT ▸ by simp) hne
          have hservice : y.service = e.service := by rw [← heq]
          obtain rfl : e.buffer = s := by rw [← heq]
          rw [hne, hservice, hown] at hsame
          rcases hsame with ⟨hnone, -⟩ | ⟨op', o, hop, hstep'⟩
          · cases hnone
          · cases hop
            cases hstep.symm.trans hstep'
            exact .inl (by rw [← hne, ← hservice])
        · rw [hothers _ hmem hne] at hsame
          rcases hsame with ⟨-, rfl⟩ | ⟨op', o, hop, -⟩
          · exact .inr ⟨hmem, hne⟩
          · cases hop

theorem new (address : NodeId) : Inv address [] (.new address) := by
  refine ⟨rfl, .nil, .nil, fun e ↦ ?_⟩
  simp only [Node.new, Inner.default, List.not_mem_nil, false_iff]
  exact not_lives_nil

/-- An entry is found by its address. -/
theorem split_of_mem (h : Inv address log n) (he : e ∈ n.rxReq.entryTree) :
    ∃ as bs, n.rxReq.entryTree = as ++ e :: bs ∧
      cursorAt (fun x ↦ x.address == e.address) n.rxReq.entryTree = some (as, e, bs) := by
  obtain ⟨as, bs, hT⟩ := List.append_of_mem he
  have hnodup := h.nodup
  rw [hT] at hnodup
  exact ⟨as, bs, hT, by rw [hT, cursorAt_address hnodup]⟩

theorem nodup_services (h : Inv address log n) :
    (n.rxReq.entryTree.map Entry.service).Nodup :=
  List.pairwise_map.mpr (h.sorted.imp fun hxy ↦ hxy.ne)

/-- **A service is registered unless it is occupied.** -/
theorem createRequest (h : Inv address log n) {token : Address}
    (hfree : ∀ e ∈ n.rxReq.entryTree, e.address ≠ token) (fifo : PriorityFifo)
    (service : ServiceId) (timeout : Duration) : ∃ n' result,
      n.step (.createRequest token fifo service timeout) = .ok (n', .created result) ∧
        Inv address (log ++ [(.createRequest token fifo service timeout, .created result)]) n' ∧
        (result = .error .dataSpecifierOccupied ∧ n' = n ∧
            (∃ e ∈ n.rxReq.entryTree, e.service = service) ∨
          result = .ok token ∧ ∀ e ∈ n.rxReq.entryTree, e.service ≠ service) := by
  obtain ⟨r, -, hinit⟩ := fifo.init_eq service timeout
  rw [Node.step, hinit, ok_bind, Inner.regRegister]
  cases hfind : n.rxReq.entryTree.find? fun e ↦ e.service == service with
  | some e =>
    refine ⟨n, .error .dataSpecifierOccupied, rfl, ?_, .inl ⟨rfl, rfl, e,
      List.mem_of_find?_eq_some hfind, by simpa using List.find?_some hfind⟩⟩
    exact h.silent (fun _ _ ↦ rfl) (by simp) fun _ _ ↦ rfl
  | none =>
    have hvacant : ∀ e ∈ n.rxReq.entryTree, e.service ≠ service := fun e he ↦ by
      simpa using List.find?_eq_none.mp hfind e he
    obtain ⟨as, bs, hT, hcursor, hle, hlt⟩ :=
      upperBound_cases (h.sorted.imp fun hxy ↦ le_of_lt hxy) service
    set e : Entry := ⟨token, service, ⟨fifo.SN, fifo.TN, r⟩⟩ with he
    refine ⟨⟨n.address, ⟨as ++ e :: bs⟩⟩, .ok token, by dsimp only; rw [hcursor]; rfl, ?_,
      .inr ⟨rfl, hvacant⟩⟩
    have hsorted := h.sorted
    have hnodup := h.nodup
    rw [hT] at hsorted hnodup
    refine ⟨h.address_eq, ?_, ?_, fun x ↦ ?_⟩
    · obtain ⟨has, hbs, hcross⟩ := List.pairwise_append.mp hsorted
      refine List.pairwise_append.mpr ⟨has, List.pairwise_cons.mpr ⟨hlt, hbs⟩, fun x hx y hy ↦ ?_⟩
      rcases List.mem_cons.mp hy with rfl | hy
      · exact lt_of_le_of_ne (hle x hx) (hvacant x (hT ▸ List.mem_append_left _ hx))
      · exact hcross x hx y hy
    · refine (List.perm_middle.map Entry.address).nodup_iff.mpr ?_
      rw [List.map_cons, List.nodup_cons]
      refine ⟨fun hmem ↦ ?_, hnodup⟩
      obtain ⟨x, hx, haddress⟩ := List.mem_map.mp hmem
      exact hfree x (hT ▸ hx) haddress
    · have hmem : x ∈ as ++ e :: bs ↔ x = e ∨ x ∈ n.rxReq.entryTree := by
        rw [hT, List.mem_append, List.mem_cons, List.mem_append, or_left_comm]
      rw [hmem, Registered, lives_concat, birth_eq_some]
      constructor
      · rintro (rfl | hx)
        · exact .inl ⟨fifo, timeout, token, rfl, hinit⟩
        · exact .inr ⟨by simp, x.buffer, (h.entries x).mp hx, .inl ⟨rfl, rfl⟩⟩
      · rintro (⟨fifo', timeout', a, hop, hinit'⟩ | ⟨-, s, hs, hsame⟩)
        · obtain ⟨a, s, b⟩ := x
          cases hop
          cases hinit.symm.trans hinit'
          exact .inl rfl
        · rcases hsame with ⟨-, rfl⟩ | ⟨op, o, hop, -⟩
          · exact .inr ((h.entries x).mpr hs)
          · cases hop

theorem drop (h : Inv address log n) (he : e ∈ n.rxReq.entryTree) : ∃ n',
    n.step (.drop e.address) = .ok (n', .dropped) ∧
      Inv address (log ++ [(.drop e.address, .dropped)]) n' := by
  obtain ⟨as, bs, hT, hcursor⟩ := h.split_of_mem he
  have hsorted := h.sorted
  have hnodup := h.nodup
  rw [hT] at hsorted hnodup
  refine ⟨⟨n.address, ⟨as ++ bs⟩⟩, ?_, h.address_eq, ?_, ?_, fun x ↦ ?_⟩
  · rw [Node.step, Inner.regUnregister, hcursor]
    rfl
  · exact hsorted.sublist (List.Sublist.append_left (List.sublist_cons_self e bs) as)
  · exact hnodup.sublist ((List.Sublist.append_left (List.sublist_cons_self e bs) as).map _)
  · have hmem : x ∈ as ++ bs ↔ x ∈ n.rxReq.entryTree ∧ x.address ≠ e.address := by
      have hperm := (List.perm_middle.map Entry.address).nodup_iff.mp hnodup
      rw [List.map_cons, List.nodup_cons] at hperm
      rw [hT]
      constructor
      · intro hx
        refine ⟨?_, fun heq ↦ hperm.1 (heq ▸ List.mem_map_of_mem hx)⟩
        exact List.mem_append.mpr ((List.mem_append.mp hx).imp_right (List.mem_cons_of_mem e))
      · rintro ⟨hx, hne⟩
        exact mem_append_of_ne hx fun heq ↦ hne (heq ▸ rfl)
    rw [hmem, Registered, lives_concat, h.entries]
    constructor
    · rintro ⟨hx, hne⟩
      refine .inr ⟨fun heq ↦ hne ?_, x.buffer, hx, .inl ⟨rfl, rfl⟩⟩
      injection heq with haddress
      exact haddress.symm
    · rintro (hnew | ⟨hdrop, s, hs, hsame⟩)
      · cases hnew
      · rcases hsame with ⟨-, rfl⟩ | ⟨op, o, hop, -⟩
        · exact ⟨hs, fun heq ↦ hdrop (by rw [heq])⟩
        · cases hop

/-- A frame is pushed to the entry of its service, if it is a request for the node. -/
theorem pushFrame (h : Inv address log n) {frame : Frame}
    (hsessions : ∀ e ∈ n.rxReq.entryTree, e.buffer.HasSessions frame) : ∃ n' entry,
      n.step (.pushFrame frame) = .ok (n', .pushed entry) ∧
        Inv address (log ++ [(.pushFrame frame, .pushed entry)]) n' := by
  have hsilent : ∀ entry, (∀ e ∈ n.rxReq.entryTree, ¬ IsRequest address e.service frame) →
      Inv address (log ++ [(.pushFrame frame, .pushed entry)]) n := fun entry hnot ↦
    h.silent (fun _ _ ↦ rfl) (by simp) fun e he ↦ if_neg (hnot e he)
  by_cases hrequest : ∃ service, IsRequest address service frame
  · obtain ⟨service, hspec, hloopBack, hdestination⟩ := hrequest
    have hpush : n.pollPush frame = n.rxReq.hubPush frame >>= fun x ↦
        .ok (x.1, { n with rxReq := x.2 }) := by
      simp only [Node.pollPush, Inner.pollPush, hspec, hloopBack, hdestination, h.address_eq,
        if_true, Bool.false_eq_true, if_false]
      rfl
    by_cases hoccupied : ∃ e ∈ n.rxReq.entryTree, e.service = service
    · obtain ⟨e, he, rfl⟩ := hoccupied
      obtain ⟨as, bs, hT⟩ := List.append_of_mem he
      have hcursor : cursorAt (fun x ↦ x.service == e.service) n.rxReq.entryTree =
          some (as, e, bs) := by
        have hsorted := h.sorted
        rw [hT] at hsorted ⊢
        exact cursorAt_service hsorted
      obtain ⟨buffer, event, hstep⟩ := ((h.entries e).mp he).step (.pushFrame frame)
        fun f hf ↦ by
          cases hf
          exact hsessions e he
      refine ⟨⟨n.address, ⟨as ++ { e with buffer := buffer } :: bs⟩⟩, some e.address, ?_,
        h.assign hT hstep (fun _ _ ↦ rfl) (by simp) (if_pos ⟨hspec, hloopBack, hdestination⟩) ?_⟩
      · rw [Node.step, hpush, Inner.hubPush, hspec]
        dsimp only
        rw [hcursor]
        dsimp only
        rw [hstep]
        rfl
      · intro y hy hne
        refine if_neg fun hy' ↦ hne ?_
        have hservice : y.service = e.service :=
          DataSpecifier.request.inj (hy'.1.symm.trans hspec)
        rw [List.inj_on_of_nodup_map h.nodup_services hy he hservice]
    · push Not at hoccupied
      refine ⟨n, none, ?_, hsilent none fun e he hspec' ↦ hoccupied e he ?_⟩
      · rw [Node.step, hpush, Inner.hubPush, hspec]
        dsimp only
        rw [cursorAt_eq_none fun x hx ↦ by simpa using hoccupied x hx]
        rfl
      · exact DataSpecifier.request.inj (hspec'.1.symm.trans hspec)
  · refine ⟨n, none, ?_, hsilent none fun e _ he ↦ hrequest ⟨_, he⟩⟩
    have hpush : n.pollPush frame = .ok (none, n) := by
      rw [Node.pollPush]
      split
      · rename_i service hspec hloopBack
        rw [if_neg fun hdestination ↦
          hrequest ⟨service, hspec, hloopBack, hdestination.trans (by rw [h.address_eq])⟩]
      · rfl
    rw [Node.step, hpush]
    rfl

/-- An endpoint uses its buffer. -/
theorem endpoint (h : Inv address log n) (he : e ∈ n.rxReq.entryTree) {op : Emcyphal.Op}
    (hop : op.frame? = none) : ∃ n' event, n.step (.endpoint e.address op) = .ok (n', event) ∧
      Inv address (log ++ [(.endpoint e.address op, event)]) n' := by
  obtain ⟨as, bs, hT, hcursor⟩ := h.split_of_mem he
  obtain ⟨buffer, event, hstep⟩ := ((h.entries e).mp he).step op fun frame hframe ↦ by
    rw [hop] at hframe
    cases hframe
  refine ⟨⟨n.address, ⟨as ++ { e with buffer := buffer } :: bs⟩⟩, .endpoint event, ?_,
    h.assign hT hstep (fun _ _ ↦ rfl) (by simp) (if_pos rfl) fun y _ hne ↦ if_neg (Ne.symm hne)⟩
  rw [Node.step, Inner.withBufferMut, hcursor]
  dsimp only [unwrap_some, ok_bind]
  rw [hstep]
  rfl

/-- **No operation panics**, and the entries are again those that are registered. -/
theorem step (h : Inv address log n) {op : Op} (hop : n.Valid op) :
    ∃ n' event, n.step op = .ok (n', event) ∧ Inv address (log ++ [(op, event)]) n' := by
  cases op with
  | createRequest token fifo service timeout =>
    obtain ⟨n', result, hstep, hn', -⟩ := h.createRequest hop fifo service timeout
    exact ⟨n', _, hstep, hn'⟩
  | drop token =>
    obtain ⟨e, he, rfl⟩ := hop
    obtain ⟨n', hstep, hn'⟩ := h.drop he
    exact ⟨n', _, hstep, hn'⟩
  | pushFrame frame =>
    obtain ⟨n', entry, hstep, hn'⟩ := h.pushFrame hop
    exact ⟨n', _, hstep, hn'⟩
  | endpoint token op =>
    obtain ⟨⟨e, he, rfl⟩, hop⟩ := hop
    exact h.endpoint he (Option.isNone_iff_eq_none.mp hop)

end Inv

/-! ## Runs -/

/-- **Each request endpoint gets the requests for its service, and nothing else.**  Operations in
any order do not panic, as long as no frame is pushed that needs a session of a buffer that was made
without slots for them.  After any number of them, the entries of the tree are those that were
registered and not unregistered since, with one entry for each service; the buffer of each is what
the requests for this service of this node that were pushed since its registration, and the calls of
its own endpoint, have made of it, in their order.  And a service can be registered exactly if there
is no entry for it. -/
theorem requests_routed (address : NodeId) {ops : List Op}
    (hops : Admissible Node.step Node.Valid (.new address) ops) :
    ∃ n events, run Node.step (.new address) ops = .ok (n, events) ∧
      n.rxReq.entryTree.Pairwise (fun x y ↦ x.service < y.service) ∧
      (∀ e : Entry, e ∈ n.rxReq.entryTree ↔
        Registered address e.address e.service (ops.zip events) e.buffer) ∧
      ∀ token fifo service timeout, (∀ e ∈ n.rxReq.entryTree, e.address ≠ token) →
        ∃ n' result, n.step (.createRequest token fifo service timeout) =
            .ok (n', .created result) ∧
          (result = .error .dataSpecifierOccupied ∧ n' = n ∧
              (∃ e ∈ n.rxReq.entryTree, e.service = service) ∨
            result = .ok token ∧ ∀ e ∈ n.rxReq.entryTree, e.service ≠ service) := by
  obtain ⟨n, events, hrun, h⟩ := run_of_log (fun log n op (h : Inv address log n) hop ↦ h.step hop)
    (.new address) hops
  refine ⟨n, events, hrun, h.sorted, h.entries, fun token fifo service timeout hfree ↦ ?_⟩
  obtain ⟨n', result, hstep, -, hresult⟩ := h.createRequest hfree fifo service timeout
  exact ⟨n', result, hstep, hresult⟩

/-- A buffer for one request without a payload. -/
def PriorityFifo.small : PriorityFifo :=
  ⟨1, 1, 0, [[], [], []], ⟨by decide, by decide, rfl, by decide⟩⟩

/-- A request without a payload, in a single frame. -/
def emptyRequest (service : ServiceId) (source destination : NodeId) : Frame where
  header := ⟨.nominal, .request service, some source, some destination⟩
  data := ⟨[0xE1], by decide⟩
  timestamp := Instant.MIN
  loopBack := false

/-- An endpoint, a request for it that is popped, and a second endpoint for the same service. -/
theorem requests_routed_one_request : ∃ n events,
    run Node.step (.new 7) [.createRequest 1 .small 5 2000,
      .pushFrame (emptyRequest 5 1 7), .endpoint 1 (.tryPop .ALL)] = .ok (n, events) ∧
    (∃ e ∈ n.rxReq.entryTree, Registered 7 e.address e.service ([Op.createRequest 1 .small 5 2000,
      .pushFrame (emptyRequest 5 1 7), .endpoint 1 (.tryPop .ALL)].zip events) e.buffer) ∧
    ∃ n', n.step (.createRequest 2 .small 5 2000) =
      .ok (n', .created (.error .dataSpecifierOccupied)) := by
  obtain ⟨n, events, hrun, -, hentries, hcreate⟩ := requests_routed 7 (by decide +kernel :
    Admissible Node.step Node.Valid (.new 7) [.createRequest 1 .small 5 2000,
      .pushFrame (emptyRequest 5 1 7), .endpoint 1 (.tryPop .ALL)])
  have hcheck : (do
      let x ← run Node.step (.new 7) [.createRequest 1 .small 5 2000,
        .pushFrame (emptyRequest 5 1 7), .endpoint 1 (.tryPop .ALL)]
      pure (decide (x.1.rxReq.entryTree.map (fun e ↦ (e.address, e.service)) = [(1, 5)])) :
        Exec Bool) = .ok true := by decide +kernel
  rw [hrun, ok_bind] at hcheck
  have htree := of_decide_eq_true (Except.ok.inj hcheck)
  obtain ⟨e, hT, he⟩ := List.map_eq_singleton_iff.mp htree
  obtain ⟨haddress, hservice⟩ := Prod.mk.inj he
  have hmem : e ∈ n.rxReq.entryTree := hT ▸ List.mem_singleton_self e
  refine ⟨n, events, hrun, ⟨e, hmem, (hentries e).mp hmem⟩, ?_⟩
  obtain ⟨n', result, hstep, hresult⟩ := hcreate 2 .small 5 2000 fun x hx ↦ by
    rw [hT, List.mem_singleton] at hx
    rw [hx, haddress]
    decide
  rcases hresult with ⟨rfl, -, -⟩ | ⟨-, hfree⟩
  · exact ⟨n', hstep⟩
  · exact absurd hservice (hfree e hmem)

end Emcyphal.RxReq
