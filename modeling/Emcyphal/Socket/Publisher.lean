import Emcyphal.Gather
import Emcyphal.Tx.Ledger
import Emcyphal.Tx.Mailbox

/-!
# The transfer ids of a publisher

`Publisher` in `emcyphal/src/socket.rs` numbers the messages it pushes, with five bits.  A receiver
takes a frame for a duplicate if it carries the id of the transfer it has assembled last.

The ids are counted when messages are pushed, and a signal may replace a message before it is sent.
So the ids of two transfers that are sent one after the other tell how many messages were pushed
from the first to the second, up to multiples of 32 (`distinguishable_iff`).
-/

set_option autoImplicit false

namespace Emcyphal

open Rust

def TransferId.SESSION_START : TransferId := 0

def TransferId.next (id : TransferId) : TransferId := fromU8Truncating (id.intoU8 + 1)

theorem TransferId.next_eq (id : TransferId) : id.next = id + 1 := by
  revert id
  decide

inductive MessageError
  | notReady
deriving DecidableEq

structure Publisher where
  endpoint : TxBuffer
  priority : Priority
  timeout : Duration
  loopBack : Bool
  transferId : TransferId

namespace Publisher

/-- `dyn buffer::tx_msg::Buffer`, with what the data buffers hold. -/
inductive Buffer
  | signal (buffers : List (List Byte))
  | blocking (buffer : List Byte)

def Buffer.init (subject : SubjectId) (priority : Priority) : Buffer → TxBuffer.Init
  | signal buffers => .signal subject priority buffers
  | blocking buffer => .blocking subject priority buffer

def Buffer.isBlocking : Buffer → Bool
  | signal _ => false
  | blocking _ => true

def create (buffer : Buffer) (subject : SubjectId) (priority : Priority) (timeout : Duration)
    (loopBack : Bool) : Exec Publisher := do
  let endpoint ← TxBuffer.new (buffer.init subject priority)
  return {
    endpoint := endpoint
    priority := priority
    timeout := timeout
    loopBack := loopBack
    transferId := .SESSION_START }

variable {T : Type} [BufferType T] [Serialize T]

/-- The transfer of a message that is pushed at `now`. -/
def transfer (p : Publisher) (transferId : TransferId) (data : T) (now : Instant) :
    Endpoint.Transfer T where
  transferMeta := {
    priority := p.priority
    address := none
    transferId := transferId
    timestamp := Instant.saturatingAdd now p.timeout
    loopBack := p.loopBack }
  payload := data

omit [BufferType T] in
def tryPush (p : Publisher) (data : T) (now : Instant) :
    Exec (Except MessageError Unit × Publisher) := do
  let (result, endpoint) ← Tx.tryPush p.endpoint (p.transfer p.transferId data now)
  match result with
  | .ok () => return (.ok (), { p with endpoint := endpoint, transferId := p.transferId.next })
  | .error .priorityNotReady => return (.error .notReady, { p with endpoint := endpoint })
  | .error _ => .error .unreachable

inductive Op (T : Type)
  | tryPush (data : T) (now : Instant)
  /-- The driver fetches a frame from the buffer. -/
  | tryPop (priorityMask : PrioritySet) (mtu : Mtu)

inductive Event
  | pushed (result : Except MessageError Unit)
  | popped (frame : Option Frame)
deriving DecidableEq

def step (p : Publisher) : Op T → Exec (Publisher × Event)
  | .tryPush data now => do
    let (result, p) ← p.tryPush data now
    return (p, .pushed result)
  | .tryPop priorityMask mtu => do
    let (frame, endpoint) ← p.endpoint.tryPop priorityMask mtu
    return ({ p with endpoint := endpoint }, .popped frame)

end Publisher

/-! ## What a message buffer has to send -/

namespace Mailbox

/-- The transfer a buffer for messages is sending, and the one that is pending.  A blocking buffer
has one or the other. -/
inductive Holds (subject : SubjectId) (p : Priority) : Mailbox → Option Outgoing → Option Outgoing →
    Prop
  | signal (current pending : Option Outgoing) :
      Holds subject p (.signal subject p current pending) current pending
  | pending (pending : Option Outgoing) : Holds subject p (.blocking subject p pending) none pending
  | current (current : Outgoing) : Holds subject p (.blocking subject p (some current))
    (some current) none

def isBlocking : Mailbox → Bool
  | blocking _ _ _ => true
  | signal _ _ _ _ | response _ _ => false

variable {m : Mailbox} {subject : SubjectId} {p : Priority} {current pending : Option Outgoing}

theorem Holds.fetch_none (h : m.Holds subject p current pending) {mask : PrioritySet}
    (hnone : mask.contains p = false ∨ current.or pending = none) (mtu : Mtu) :
    m.fetch mask mtu = (m, none) := by
  cases h with
  | signal => rw [Mailbox.fetch, nextFrame_masked hnone]
  | pending =>
    rw [Option.none_or] at hnone
    rw [Mailbox.fetch, nextFrame_masked hnone]
  | current =>
    rw [Option.some_or] at hnone
    rw [Mailbox.fetch, nextFrame_masked hnone]

/-- A frame is fetched, of the pending transfer if there is no other. -/
theorem Holds.fetch (h : m.Holds subject p current pending) {mask : PrioritySet}
    (hmask : mask.contains p = true) {o : Outgoing} (hnext : current.or pending = some o)
    {mtu : Mtu} {data : Data} {rest : Option Outgoing} (hsends : o.Sends mtu data rest) :
    ∃ m', m.fetch mask mtu = (m', some (o.frame p (.message subject) data)) ∧
      m'.Holds subject p rest (if current.isSome then pending else none) ∧ m'.isBlocking =
        m.isBlocking := by
  have hframe := hsends.nextFrame p (.message subject)
  cases h with
  | signal =>
    refine ⟨.signal subject p rest (if current.isSome then pending else none), ?_, .signal .., rfl⟩
    rw [Mailbox.fetch, if_pos hmask, hnext, hframe]
  | pending =>
    rw [Option.none_or] at hnext
    refine ⟨.blocking subject p rest, by rw [Mailbox.fetch, if_pos hmask, hnext, hframe], ?_, rfl⟩
    cases rest with
    | none => exact .pending none
    | some o' => exact .current o'
  | current =>
    cases hnext
    refine ⟨.blocking subject p rest, by rw [Mailbox.fetch, if_pos hmask, hframe], ?_, rfl⟩
    cases rest with
    | none => exact .pending none
    | some o' => exact .current o'

/-- A transfer becomes the pending one.  A blocking buffer accepts it if there is none. -/
theorem Holds.push {T : Type} [BufferType T] [Serialize T] (h : m.Holds subject p current pending)
    {t : Endpoint.Transfer T} (hpriority : t.transferMeta.priority = p)
    (haddress : t.transferMeta.address = none) :
    (∃ m', m.push t = (m', .ok ()) ∧ m'.Holds subject p current (some t.outgoing) ∧
      m'.isBlocking = m.isBlocking ∧ (m.isBlocking = true → pending = none)) ∨
    m.push t = (m, .error .priorityNotReady) := by
  cases h with
  | signal => exact .inl ⟨_, push_signal_ok hpriority haddress, .signal .., rfl, nofun⟩
  | pending =>
    cases pending with
    | none => exact .inl ⟨_, push_blocking_ok rfl hpriority haddress, .pending _, rfl, fun _ ↦ rfl⟩
    | some o => exact .inr (push_blocking_notReady (.inl rfl))
  | current => exact .inr (push_blocking_notReady (.inl rfl))

/-- There is something left to send of the next transfer. -/
theorem Holds.ready {b : TxBuffer} {n : ℕ} (h : b.mailbox.Holds subject p current pending)
    (hb : b.Inv n) :
    ∀ o ∈ current.or pending, o.Ready := by
  intro o ho
  cases b with
  | signal r =>
    rw [TxBuffer.mailbox, Signal.Outbox.mailbox] at h
    generalize hm : Mailbox.signal r.outbox.subject r.outbox.priority
      (r.outbox.current.map Outgoing.trim)
      (r.outbox.pending.map Outgoing.trim) = m at h
    cases h with
    | signal =>
      injection hm with _ _ hcurrent hpending
      rw [← hcurrent, ← hpending, ← Option.map_or] at ho
      obtain ⟨o', ho', rfl⟩ := Option.map_eq_some_iff.mp ho
      refine (TxBuffer.Inv.ready (p := r.priority) hb ?_).trim
      rw [TxBuffer.next, if_pos rfl]
      exact ho'
    | pending => cases hm
    | current => cases hm
  | blocking r =>
    have hready : ∀ o' ∈ r.current.map Outgoing.trim, o'.Ready := by
      intro o' ho'
      obtain ⟨o'', ho'', rfl⟩ := Option.map_eq_some_iff.mp ho'
      exact (Blocking.Inner.Inv.current hb o'' ho'').trim
    rw [TxBuffer.mailbox] at h
    generalize hcurrent : r.current.map Outgoing.trim = c at h hready
    cases h with
    | pending => exact hready o ho
    | current => exact hready o ho
  | response r => cases h

end Mailbox

namespace Publisher

/-! ## Runs -/

/-- What the publisher and the driver have seen: the messages that were accepted, with their times,
and the frames that were fetched. -/
structure Record (T : Type) where
  pushed : List (T × Instant)
  frames : List Frame

namespace Record

variable {T : Type}

def empty : Record T := ⟨[], []⟩

def add (m : Record T) : Op T × Event → Record T
  | (.tryPush data now, .pushed (.ok ())) => { m with pushed := m.pushed ++ [(data, now)] }
  | (.tryPop _ _, .popped (some frame)) => { m with frames := m.frames ++ [frame] }
  | _ => m

def of (history : List (Op T × Event)) : Record T := history.foldl add empty

end Record

variable {T : Type} [BufferType T] [Serialize T]

/-- The id of a message, by the number of messages before it. -/
def idOf (idx : ℕ) : TransferId := Fin.ofNat 32 idx

omit [BufferType T] [Serialize T] in
/-- The transfers of the messages. -/
def transfers (p : Publisher) (pushed : List (T × Instant)) : List (Endpoint.Transfer T) :=
  pushed.mapIdx fun idx message ↦ p.transfer (idOf idx) message.1 message.2

/-- What never changes. -/
def config (p : Publisher) : Priority × Duration × Bool := (p.priority, p.timeout, p.loopBack)

omit [BufferType T] [Serialize T] in
theorem transfer_congr {p p' : Publisher} (h : p'.config = p.config) (transferId : TransferId)
    (data : T) (now : Instant) :
    p'.transfer transferId data now = p.transfer transferId data now := by
  simp only [config, Prod.mk.injEq] at h
  rw [transfer, transfer, h.1, h.2.1, h.2.2]

omit [BufferType T] [Serialize T] in
theorem transfers_concat (p : Publisher) (pushed : List (T × Instant)) (data : T) (now : Instant) :
    p.transfers (pushed ++ [(data, now)]) =
      p.transfers pushed ++ [p.transfer (idOf pushed.length) data now] := by
  rw [transfers, List.mapIdx_concat]
  rfl

theorem length_transfers (p : Publisher) (pushed : List (T × Instant)) :
    ((p.transfers pushed).map Endpoint.Transfer.outgoing).length = pushed.length := by
  rw [List.length_map, transfers, List.length_mapIdx]

/-- The ids are counted. -/
theorem next_idOf (n : ℕ) : (idOf n).next = idOf (n + 1) := by
  rw [TransferId.next_eq, idOf, idOf]
  ext
  simp [Fin.val_add]

/-- The record is true of the publisher. -/
structure Tracks (subject : SubjectId) (blocking : Bool) (p₀ : Publisher) (m : Record T)
    (p : Publisher) :
    Prop where
  config_eq : p.config = p₀.config
  transferId_eq : p.transferId = idOf m.pushed.length
  inv : p.endpoint.Inv (BufferType.bufferLength T)
  kind : p.endpoint.mailbox.isBlocking = blocking
  accounts : ∃ l current pending, p.endpoint.mailbox.Holds subject p₀.priority current pending ∧
    Accounts ((p₀.transfers m.pushed).map Endpoint.Transfer.outgoing) p₀.priority
      (.message subject) l current pending ∧
    l.parts = m.frames ∧ (blocking = true → l.indexes = List.range m.pushed.length)

namespace Tracks

variable [LawfulSerialize T] {subject : SubjectId} {blocking : Bool} {p₀ p : Publisher}
    {m : Record T}

theorem tryPush (h : Tracks subject blocking p₀ m p) (data : T) (now : Instant) : ∃ p' event,
    p.step (.tryPush data now) = .ok (p', event) ∧
      Tracks subject blocking p₀ (m.add (.tryPush data now, event)) p' := by
  obtain ⟨hconfig, hid, hinv, hkind, l, current, pending, hholds, haccounts, hparts, hindexes⟩ := h
  set t := p.transfer p.transferId data now with ht
  have ht₀ : t = p₀.transfer (idOf m.pushed.length) data now := by
    rw [ht, hid, transfer_congr hconfig]
  rcases hholds.push (t := t) (congrArg Prod.fst hconfig) rfl with
    ⟨m', hm', hholds', hkind', hnone⟩ | herror
  · obtain ⟨b', hpush, hinv', rfl⟩ := TxBuffer.tryPush_of_mailbox hinv hm'
    refine ⟨{ p with endpoint := b', transferId := p.transferId.next }, .pushed (.ok ()),
      ?_, hconfig, ?_,
      hinv', hkind'.trans hkind, l.push m.pushed.length, current, some t.outgoing, hholds', ?_,
      hparts, fun hblocking ↦ ?_⟩
    · rw [step, Publisher.tryPush, ← ht, hpush]
      rfl
    · rw [hid, next_idOf, Record.add]
      simp
    · rw [Record.add, transfers_concat, List.map_append, List.map_singleton, ← ht₀,
        ← length_transfers p₀ m.pushed]
      exact haccounts.push _
    · have hpending : l.pending = none := by
        have hrel := haccounts.pending
        rw [hnone (hkind.trans hblocking)] at hrel
        cases hl : l.pending with
        | none => rfl
        | some _ => rw [hl] at hrel; cases hrel
      rw [Ledger.indexes_push, Ledger.indexes_forget_of_none hpending, hindexes hblocking,
        Record.add, List.length_append, List.length_singleton, List.range_succ]
  · obtain ⟨b', hpush, hinv', hmailbox⟩ := TxBuffer.tryPush_of_mailbox hinv herror
    refine ⟨{ p with endpoint := b' }, .pushed (.error .notReady), ?_, hconfig, hid, hinv',
      by rw [hmailbox]; exact hkind, l, current, pending, by rw [hmailbox]; exact hholds, haccounts,
      hparts, hindexes⟩
    rw [step, Publisher.tryPush, ← ht, hpush]
    rfl

theorem tryPop (h : Tracks subject blocking p₀ m p) (mask : PrioritySet) (mtu : Mtu) : ∃ p' event,
    p.step (.tryPop mask mtu : Op T) = .ok (p', event) ∧
      Tracks subject blocking p₀ (m.add (.tryPop mask mtu, event)) p' := by
  obtain ⟨hconfig, hid, hinv, hkind, l, current, pending, hholds, haccounts, hparts, hindexes⟩ := h
  by_cases hnone : mask.contains p₀.priority = false ∨ current.or pending = none
  · obtain ⟨b', hpop, hinv', hmailbox⟩ := TxBuffer.tryPop_of_mailbox T hinv
      (hholds.fetch_none hnone mtu)
    refine ⟨{ p with endpoint := b' }, .popped none, ?_, hconfig, hid, hinv',
      by rw [hmailbox]; exact hkind, l, current, pending, by rw [hmailbox]; exact hholds, haccounts,
      hparts, hindexes⟩
    rw [step, hpop]
    rfl
  · push Not at hnone
    obtain ⟨o, ho⟩ := Option.ne_none_iff_exists'.mp hnone.2
    obtain ⟨data, rest, hsends⟩ := (hholds.ready hinv o ho).sends mtu
    obtain ⟨m', hm', hholds', hkind'⟩ := hholds.fetch (by simpa using hnone.1) ho hsends
    obtain ⟨haccounts', hparts'⟩ := haccounts.send ho hsends
    obtain ⟨b', hpop, hinv', rfl⟩ := TxBuffer.tryPop_of_mailbox T hinv hm'
    refine ⟨{ p with endpoint := b' }, .popped (some (o.frame p₀.priority (.message subject) data)),
      ?_, hconfig, hid, hinv', hkind'.trans hkind, _, rest, _, hholds', haccounts',
      hparts'.trans (congrArg (· ++ _) hparts), fun hblocking ↦ ?_⟩
    · rw [step, hpop]
      rfl
    · rw [Ledger.indexes_send, Ledger.indexes_start]
      exact hindexes hblocking

theorem step (h : Tracks subject blocking p₀ m p) (op : Op T) : ∃ p' event,
    p.step op = .ok (p', event) ∧ Tracks subject blocking p₀ (m.add (op, event)) p' := by
  cases op with
  | tryPush data now => exact h.tryPush data now
  | tryPop mask mtu => exact h.tryPop mask mtu

end Tracks

/-- A new buffer has nothing to send. -/
theorem holds_new {buffer : Buffer} {subject : SubjectId} {priority : Priority}
    (hfits : (buffer.init subject priority).Fits) : ∃ b,
      TxBuffer.new (buffer.init subject priority) = .ok b ∧
      b.Inv (buffer.init subject priority).bufferLength ∧
      b.mailbox.Holds subject priority none none ∧
      b.mailbox.isBlocking = buffer.isBlocking := by
  cases buffer with
  | signal buffers =>
    obtain ⟨r, hnew, hinv, houtbox⟩ :=
      Signal.Inner.inv_new subject priority hfits.1 hfits.2
    refine ⟨.signal r, ?_, hinv, ?_, rfl⟩
    · rw [Buffer.init, TxBuffer.new, hnew]
      rfl
    · rw [TxBuffer.mailbox, houtbox]
      exact .signal none none
  | blocking buffer =>
    exact ⟨_, rfl, Blocking.Inner.inv_new subject priority buffer, .pending none, rfl⟩

theorem tracks_create {buffer : Buffer} {subject : SubjectId} {priority : Priority}
    {timeout : Duration} {loopBack : Bool} (hfits : (buffer.init subject priority).Fits)
    (hlength : (buffer.init subject priority).bufferLength = BufferType.bufferLength T)
    {p : Publisher} (hcreate : create buffer subject priority timeout loopBack = .ok p) :
    p.priority = priority ∧ Tracks subject buffer.isBlocking p (.empty : Record T) p := by
  obtain ⟨b, hnew, hinv, hholds, hkind⟩ := holds_new hfits
  rw [hlength] at hinv
  rw [create, hnew] at hcreate
  cases hcreate
  exact ⟨rfl, rfl, rfl, hinv, hkind, .empty, none, none, hholds, Accounts.empty ..,
    rfl, fun _ ↦ rfl⟩

end Publisher

/-- The frame is dropped as one of the transfer that was assembled last. -/
def Gather.Duplicate (g : Gather) (timeout : Duration) (data : List Byte) (timestamp : Instant) :
    Prop :=
  g.state = .assembled ∧ ∃ tailByte payload, splitLast data = some (tailByte, payload) ∧
    g.tidMatch timeout (TailByte.transferId ⟨tailByte⟩) timestamp = .ok true

namespace Publisher

/-- The id that a frame carries. -/
def transferIdOf (frame : Frame) : Option TransferId :=
  frame.data.bytes.getLast?.map fun byte ↦ TailByte.transferId ⟨byte⟩

/-- The frames of two transfers carry different ids, and a receiver that has assembled the first
does not take a frame of the second for a duplicate. -/
def Distinguishable (first second : List Frame) : Prop :=
  ∀ f ∈ first, ∀ f' ∈ second, transferIdOf f ≠ transferIdOf f' ∧
    ∀ (g : Gather) (timeout : Duration) (timestamp : Instant), g.transferId = transferIdOf f →
      ¬ g.Duplicate timeout f'.data.bytes timestamp

theorem idOf_eq_iff {i j : ℕ} (h : i ≤ j) : idOf i = idOf j ↔ 32 ∣ j - i := by
  rw [idOf, idOf, Fin.ext_iff, Fin.val_ofNat, Fin.val_ofNat]
  omega

/-- The frames of a transfer carry one id each. -/
theorem distinguishable_iff_ne {first second : List Frame} {id id' : TransferId}
    (hfirst : first ≠ []) (hsecond : second ≠ []) (hid : ∀ f ∈ first, transferIdOf f = some id)
    (hid' : ∀ f ∈ second, transferIdOf f = some id') : Distinguishable first second ↔ id ≠ id' := by
  constructor
  · rintro hdist rfl
    obtain ⟨f, hf⟩ := List.exists_mem_of_ne_nil first hfirst
    obtain ⟨f', hf'⟩ := List.exists_mem_of_ne_nil second hsecond
    exact (hdist f hf f' hf').1 ((hid f hf).trans (hid' f' hf').symm)
  · intro hne f hf f' hf'
    rw [hid f hf, hid' f' hf']
    refine ⟨fun heq ↦ hne (Option.some.inj heq), ?_⟩
    rintro g timeout timestamp hg ⟨hstate, tailByte, payload, hsplit, htid⟩
    have htail : TailByte.transferId ⟨tailByte⟩ = id' := by
      have hlast := hid' f' hf'
      rw [transferIdOf, eq_concat_of_splitLast hsplit, List.getLast?_concat] at hlast
      exact Option.some.inj hlast
    rw [htail, Gather.tidMatch, hstate, hg] at htid
    dsimp only at htid
    rw [unwrap_some, ok_bind, if_neg (Ne.symm hne)] at htid
    cases htid

/-- Numbers that follow each other in a range are consecutive. -/
theorem succ_of_range {as bs cs : List ℕ} {i j n : ℕ}
    (h : as ++ [i, j] ++ bs ++ cs = List.range n) :
    j = i + 1 := by
  have hi := congrArg (·[as.length]?) h
  have hj := congrArg (·[as.length + 1]?) h
  simp only [List.append_assoc, List.getElem?_append_right, le_refl, Nat.sub_self, List.cons_append,
    List.getElem?_cons_zero, Nat.le_add_right, Nat.add_sub_cancel_left,
    List.getElem?_cons_succ] at hi hj
  rw [eq_comm, List.getElem?_eq_some_iff] at hi hj
  obtain ⟨_, hi⟩ := hi
  obtain ⟨_, hj⟩ := hj
  rw [List.getElem_range] at hi hj
  omega

/-- The frames of a message carry the id that it was given. -/
theorem transferIdOf_sent {T : Type} [BufferType T] [Serialize T] {p : Publisher}
    {pushed : List (T × Instant)} {d : DataSpecifier} {sent : List (ℕ × List Frame)}
    (h : Emitted ((p.transfers pushed).map Endpoint.Transfer.outgoing) p.priority d sent)
    {e : ℕ × List Frame} (he : e ∈ sent) : e.2 ≠ [] ∧ ∀ f ∈ e.2, transferIdOf f =
    some (idOf e.1) := by
  obtain ⟨hne, o, s, ho, hyields⟩ := h.frames e he
  rw [List.getElem?_map, Option.map_eq_some_iff] at ho
  obtain ⟨t, ht, rfl⟩ := ho
  rw [transfers, List.getElem?_mapIdx, Option.map_eq_some_iff] at ht
  obtain ⟨message, -, rfl⟩ := ht
  exact ⟨hne, hyields.transferId.2⟩

/-- **The ids of consecutive transfers.**  Whatever is pushed and fetched, no call panics, and the
frames are those of some of the messages, one transfer after the other in the order of the pushes.
Two transfers of which one directly follows the other can be told apart by their ids unless the
number of pushes from the first to the second is a multiple of 32, which on a blocking buffer it
never is. -/
theorem distinguishable_iff {T : Type} [BufferType T] [Serialize T] [LawfulSerialize T]
    {buffer : Buffer} {subject : SubjectId} {priority : Priority} {timeout : Duration}
    {loopBack : Bool} (hfits : (buffer.init subject priority).Fits)
    (hlength : (buffer.init subject priority).bufferLength = BufferType.bufferLength T)
    {p : Publisher} (hcreate : create buffer subject priority timeout loopBack = .ok p)
    (ops : List (Op T)) :
    ∃ t events m sent, run step p ops = .ok (t, events) ∧ m = Record.of (ops.zip events) ∧
      Emitted ((p.transfers m.pushed).map Endpoint.Transfer.outgoing) priority
        (.message subject) sent ∧
      m.frames = sent.flatMap Prod.snd ∧
      ∀ e e', [e, e'] <:+: sent → e.1 < e'.1 ∧ (Distinguishable e.2 e'.2 ↔ ¬ 32 ∣ e'.1 - e.1) ∧
        (buffer.isBlocking = true → Distinguishable e.2 e'.2) := by
  obtain ⟨rfl, hp⟩ := tracks_create (T := T) hfits hlength hcreate
  obtain ⟨t, events, hrun, -, -, -, -, l, current, pending, -, haccounts, hparts, hindexes⟩ :=
    run_of_records Record.add
      (fun m q op (h : Tracks subject buffer.isBlocking p m q) (_ : True) ↦ h.step op) hp
      (Admissible.of_forall (fun _ _ ↦ trivial) p ops)
  have hemitted := haccounts.emitted
  refine ⟨t, events, _, l.sent, hrun, rfl, hemitted, hparts.symm, fun e e' hadjacent ↦ ?_⟩
  have hordered := hemitted.ordered.sublist (hadjacent.sublist.map Prod.fst)
  have hlt : e.1 < e'.1 := List.rel_of_pairwise_cons hordered (List.mem_singleton_self _)
  obtain ⟨hne, hid⟩ := transferIdOf_sent hemitted (hadjacent.subset (by simp : e ∈ [e, e']))
  obtain ⟨hne', hid'⟩ := transferIdOf_sent hemitted (hadjacent.subset (by simp : e' ∈ [e, e']))
  have hiff : Distinguishable e.2 e'.2 ↔ ¬ 32 ∣ e'.1 - e.1 := by
    rw [distinguishable_iff_ne hne hne' hid hid', Ne, idOf_eq_iff hlt.le]
  refine ⟨hlt, hiff, fun hblocking ↦ hiff.mpr ?_⟩
  obtain ⟨as, bs, hsplit⟩ := hadjacent
  have hrange := hindexes hblocking
  rw [Ledger.indexes, ← hsplit, List.map_append, List.map_append] at hrange
  have hsucc := succ_of_range hrange
  omega

/-- A message of two bytes, which a single frame has. -/
def short : DataTypes.ByteArray := ⟨[], by decide⟩

set_option maxRecDepth 10000 in
theorem distinguishable_iff_two_messages : ∃ p,
    create (.signal (List.replicate 2 (List.replicate 258 0))) 5 .nominal 100 false = .ok p ∧
    ∃ t events m sent, run step p [.tryPush short 0, .tryPop .ALL .classic, .tryPush short 0,
        .tryPop .ALL .classic] = .ok (t, events) ∧
      m = Record.of ([.tryPush short 0, .tryPop .ALL .classic, .tryPush short 0,
        .tryPop .ALL .classic].zip events) ∧
      Emitted ((p.transfers m.pushed).map Endpoint.Transfer.outgoing) .nominal (.message 5) sent ∧
      m.frames = sent.flatMap Prod.snd ∧
      ∀ e e', [e, e'] <:+: sent → e.1 < e'.1 ∧ (Distinguishable e.2 e'.2 ↔ ¬ 32 ∣ e'.1 - e.1) ∧
        (false = true → Distinguishable e.2 e'.2) :=
  ⟨_, rfl, @distinguishable_iff DataTypes.ByteArray _ _ _
    (.signal (List.replicate 2 (List.replicate 258 0))) 5 .nominal 100 false (by decide)
    (by decide) _ rfl
    [.tryPush short 0, .tryPop .ALL .classic, .tryPush short 0, .tryPop .ALL .classic]⟩

/-- A receiver gets a frame at the instant 0. -/
def receive (g : Gather) (frame : Frame) : Exec (Gather × Option Transfer) := do
  let (transfer, g, _) ← g.pushFrame 100 (List.replicate 258 0) frame.header.priority
    frame.data.bytes 0
  return (g, transfer)

set_option maxRecDepth 10000 in
/-- One message is sent, and 31 that follow are replaced.  The next one carries the id of the first,
and a receiver drops it. -/
theorem same_id_when_replaced : ∃ p t events,
    create (.signal (List.replicate 2 (List.replicate 258 0))) 5 .nominal 100 false = .ok p ∧
    run step p ([.tryPush short 0, .tryPop .ALL .classic] ++ List.replicate 32 (.tryPush short 0) ++
      [.tryPop .ALL .classic]) = .ok (t, events) ∧
    (events.filterMap fun | .popped frame => frame | _ => none).map transferIdOf =
    [some 0, some 0] ∧
    (run receive .default (events.filterMap fun | .popped frame => frame | _ => none)).map
      (fun r ↦ r.2.map Option.isSome) = .ok [true, false] :=
  ⟨_, _, _, rfl, rfl, rfl, rfl⟩

end Publisher

end Emcyphal
