import Emcyphal.Rx.Fifo
import Emcyphal.Socket.Responder
import Emcyphal.Tx.Buffer.Wakeup
import Emcyphal.Tx.Mailbox

/-!
# The responder answers each request

`Responder::run` in `emcyphal/src/socket.rs` serves one request after the other: it waits until
there is a request that a response can be pushed for, pops it, calls the handle, and pushes what the
handle returns.  Between two accesses to the buffers anything can happen to them: the driver pushes
frames to the request buffer, which may replace the requests that the responder has been told of,
and fetches frames from the response buffer.

The response is pushed with an `unwrap!`, long after it was found that there is room for it.  This
is why it does not fail: only the responder itself takes the room away, so what it has gathered
stays true.
-/

set_option autoImplicit false

namespace Emcyphal

open Rust

/-- How a payload is read is up to its type. -/
class Deserialize (T : Type) where
  DeserializeError : Type
  deserializeFromBytes : List Byte → Except DeserializeError T

/-- The transfer that `Rx::try_pop` returns for one that was popped from its buffer. -/
def Rx.deserialize {T : Type} [Deserialize T] (item : Item) :
    Except (Deserialize.DeserializeError T) (Endpoint.Transfer T) :=
  (Deserialize.deserializeFromBytes item.2).map fun payload ↦ ⟨item.1, payload⟩

namespace DataTypes

/-- `uavcan.primitive.Empty.1.0`. -/
structure Empty where
deriving DecidableEq

instance : Deserialize Empty where
  DeserializeError := Unit
  deserializeFromBytes _ := .ok ⟨⟩

instance : BufferType Empty := ⟨0⟩

instance : Serialize Empty where
  sizeBits _ := 0
  serializeToBytes _ buffer := buffer

theorem Empty.dataLength_eq (payload : Empty) : Serialize.dataLength payload = 0 := by
  rw [Serialize.dataLength]
  simp only [Serialize.sizeBits]

instance : LawfulSerialize Empty where
  fits payload := by
    rw [Empty.dataLength_eq]
    exact Nat.zero_le _
  length payload buffer _ := rfl
  determined payload buffer buffer' _ _ := by
    rw [Empty.dataLength_eq, List.take_zero, List.take_zero]

end DataTypes

namespace Responder

/-- Where the task of the responder is: between the accesses to the buffers in `process_request`.  A
`select` accesses one buffer after the other. -/
inductive Task (Req : Type)
  | wait (phase : Phase)
  /-- The first future of a `select` is pending. -/
  | second (reqPriorities respPriorities : PrioritySet)
  /-- The handle was called and has not returned yet. -/
  | handle (request : Endpoint.Transfer Req)

/-- A responder and its task. -/
structure Running (SN TN : ℕ) (Req : Type) where
  req : RxPriorityFifoInner SN TN
  resp : TxBuffer
  respTimeout : Duration
  task : Task Req

namespace Running

variable {SN TN : ℕ} {Req Resp : Type}

/-- `Responder::create`, as far as its buffers are concerned, and the call of `run`. -/
def create (SN TN : ℕ) (Req : Type) (service : ServiceId) (reqTimeout respTimeout : Duration)
    (reqBuffers respBuffers : List (List Byte)) : Exec (Running SN TN Req) := do
  let req ← RxPriorityFifoInner.new SN TN (.request service) reqTimeout reqBuffers
  let resp ← TxBuffer.new (.response service respBuffers)
  return { req := req, resp := resp, respTimeout := respTimeout, task := .wait .waitReq }

/-- `self.req.wait_pop_readiness(priority_mask)` is polled. -/
def pollReq (s : Running SN TN Req) (waker : Waker) (priorityMask : PrioritySet)
    (next : Option PrioritySet → Task Req) : Running SN TN Req :=
  { s with
    req := (s.req.pollPopReadiness waker priorityMask).2
    task := next (s.req.pollPopReadiness waker priorityMask).1 }

/-- `self.resp.wait_push_readiness(priority_mask)` is polled. -/
def pollResp (s : Running SN TN Req) (waker : Waker) (priorityMask : PrioritySet)
    (next : Option PrioritySet → Task Req) : Running SN TN Req :=
  { s with
    resp := (s.resp.pollPushReadiness waker priorityMask).2
    task := next (s.resp.pollPushReadiness waker priorityMask).1 }

/-- What the response to a request is sent with. -/
def responseMeta (respTimeout : Duration) (request : TransferMeta) : TransferMeta where
  priority := request.priority
  address := request.address
  transferId := request.transferId
  timestamp := Instant.saturatingAdd request.timestamp respTimeout
  loopBack := false

/-- The calls that have to do with the responder: those of the driver, and the polls of its task.  A
poll comes with what the handle returns if it is polled. -/
inductive Op (Resp : Type)
  | pushFrame (frame : Frame)
  | fetchFrame (priorityMask : PrioritySet) (mtu : Mtu)
  | poll (waker : Waker) (handled : Option Resp)

inductive Event (Req Resp : Type)
  | pushed
  | fetched (frame : Option Frame)
  /-- The task waits, or the handle is pending. -/
  | waited
  /-- The request that was popped, while the priorities were free to respond at, and the request the
  handle was called with. -/
  | popped (free : PrioritySet) (item : Option Item) (call : Option (Endpoint.Transfer Req))
  /-- The response that the response buffer has accepted. -/
  | answered (response : Endpoint.Transfer Resp)

/-- A request is popped and the handle is called, unless the request was replaced meanwhile or is
not valid.  Then the next call of `process_request` begins. -/
def fetch [Deserialize Req] (s : Running SN TN Req) (respPriorities : PrioritySet) :
    Exec (Running SN TN Req × Event Req Resp) := do
  let (item, req) ← s.req.tryPop respPriorities
  match item.map Rx.deserialize with
  | some (.ok request) => return ({ s with req := req, task := .handle request },
      .popped s.resp.pushReadiness item (some request))
  | _ => return ({ s with req := req, task := .wait .waitReq },
      .popped s.resp.pushReadiness item none)

/-- The handle has returned. -/
def answer [Serialize Resp] (s : Running SN TN Req) (request : Endpoint.Transfer Req)
    (payload : Resp) : Exec (Running SN TN Req × Event Req Resp) := do
  let response : Endpoint.Transfer Resp :=
    ⟨responseMeta s.respTimeout request.transferMeta, payload⟩
  let (result, resp) ← Tx.tryPush s.resp response
  match result with
  | .ok () => return ({ s with resp := resp, task := .wait .waitReq }, .answered response)
  | .error _ => .error .unwrap

variable [Deserialize Req] [Serialize Resp]

/-- One access of the task to the buffers. -/
def pollTask (s : Running SN TN Req) (waker : Waker) (handled : Option Resp) :
    Exec (Running SN TN Req × Event Req Resp) :=
  match s.task with
  | .wait .waitReq =>
    .ok (s.pollReq waker .ALL fun ready ↦
      .wait (ready.elim .waitReq fun reqPriorities ↦ .waitResp reqPriorities), .waited)
  | .wait (.waitResp reqPriorities) =>
    .ok (s.pollResp waker .ALL fun ready ↦
      .wait (ready.elim (.waitResp reqPriorities) fun respPriorities ↦
        .loop reqPriorities respPriorities), .waited)
  | .wait (.select reqPriorities respPriorities _) =>
    .ok (s.pollReq waker reqPriorities fun ready ↦
      ready.elim (.second reqPriorities respPriorities) fun priority ↦
        .wait (.loop (reqPriorities ||| priority) respPriorities), .waited)
  | .second reqPriorities respPriorities =>
    .ok (s.pollResp waker respPriorities fun ready ↦
      .wait (ready.elim (.select reqPriorities respPriorities true) fun priority ↦
        .loop reqPriorities (respPriorities ||| priority)), .waited)
  | .wait (.fetch respPriorities) => s.fetch respPriorities
  | .handle request =>
    match handled with
    | some payload => s.answer request payload
    | none => .ok (s, .waited)

def step (s : Running SN TN Req) : Op Resp → Exec (Running SN TN Req × Event Req Resp)
  | .pushFrame frame => do
    let req ← s.req.pushFrame frame
    return ({ s with req := req }, .pushed)
  | .fetchFrame priorityMask mtu => do
    let (frame, resp) ← s.resp.tryPop priorityMask mtu
    return ({ s with resp := resp }, .fetched frame)
  | .poll waker handled => s.pollTask waker handled

end Running

/-! ## The response buffer -/

/-- The response buffer has no transfer of any of these priorities. -/
structure HasRoom (b : TxBuffer) (n : ℕ) (priorities : PrioritySet) : Prop where
  inv : b.Inv n
  mailbox : ∃ service current, b.mailbox = .response service current ∧
    ∀ p, priorities.contains p = true → current p = none

namespace HasRoom

variable {b : TxBuffer} {n : ℕ} {priorities priorities' : PrioritySet}

theorem pushReadiness (h : HasRoom b n priorities) {p : Priority}
    (hp : priorities.contains p = true) : b.pushReadiness.contains p = true := by
  obtain ⟨hb, service, current, hmailbox, hroom⟩ := h
  cases b with
  | response r =>
    rw [TxBuffer.mailbox] at hmailbox
    cases hmailbox
    have hnone : r.current p = none := Option.map_eq_none_iff.mp (hroom p hp)
    rw [TxBuffer.pushReadiness, Response.ResponseBufferInner.Inv.pushReadiness hb, hnone]
    rfl
  | signal r | blocking r => cases hmailbox

theorem mono (h : HasRoom b n priorities)
    (hsub : ∀ p, priorities'.contains p = true → priorities.contains p = true) :
    HasRoom b n priorities' := by
  obtain ⟨hb, service, current, hmailbox, hroom⟩ := h
  exact ⟨hb, service, current, hmailbox, fun p hp ↦ hroom p (hsub p hp)⟩

theorem of_pushReadiness (h : HasRoom b n priorities)
    (hsub : ∀ p, priorities'.contains p = true → b.pushReadiness.contains p = true) :
    HasRoom b n priorities' := by
  obtain ⟨hb, service, current, hmailbox, -⟩ := h
  refine ⟨hb, service, current, hmailbox, fun p hp ↦ ?_⟩
  have hready := hsub p hp
  cases b with
  | response r =>
    rw [TxBuffer.mailbox] at hmailbox
    cases hmailbox
    rw [TxBuffer.pushReadiness, Response.ResponseBufferInner.Inv.pushReadiness hb,
      Option.isNone_iff_eq_none] at hready
    exact Option.map_eq_none_iff.mpr hready
  | signal r | blocking r => cases hmailbox

/-- A fetch makes room, if anything. -/
theorem tryPop {T : Type} [BufferType T] [Serialize T] [LawfulSerialize T]
    (h : HasRoom b (BufferType.bufferLength T) priorities) (mask : PrioritySet) (mtu : Mtu) :
    ∃ frame b', b.tryPop mask mtu = .ok (frame, b') ∧
      HasRoom b' (BufferType.bufferLength T) priorities := by
  obtain ⟨hb, service, current, hmailbox, hroom⟩ := h
  obtain ⟨current', frame, hfetch, hroom'⟩ : ∃ current' frame,
      (Mailbox.response service current).fetch mask mtu = (.response service current', frame) ∧
        ∀ p, priorities.contains p = true → current' p = none := by
    rw [Mailbox.fetch]
    split
    · rename_i p hp
      split
      · rename_i frame rest hnext
        refine ⟨_, _, rfl, fun q hq ↦ ?_⟩
        have hne : q ≠ p := by
          rintro rfl
          rw [hroom q hq] at hnext
          cases hnext
        rw [Function.update_of_ne hne]
        exact hroom q hq
      · exact ⟨_, _, rfl, hroom⟩
    · exact ⟨_, _, rfl, hroom⟩
  rw [← hmailbox] at hfetch
  obtain ⟨b', hpop, hb', hmailbox'⟩ := TxBuffer.tryPop_of_mailbox T hb hfetch
  exact ⟨frame, b', hpop, hb', service, current', hmailbox', hroom'⟩

/-- A poll leaves the buffer as it is, and reports priorities with room. -/
theorem poll (h : HasRoom b n priorities) (w : Waker) (mask : PrioritySet) :
    HasRoom (b.pollPushReadiness w mask).2 n priorities ∧
      ∀ ready, (b.pollPushReadiness w mask).1 = some ready →
        HasRoom (b.pollPushReadiness w mask).2 n (priorities ||| ready) := by
  have hinv := h.inv.pollPushReadiness w mask
  obtain ⟨hb, service, current, hmailbox, hroom⟩ := h
  cases b with
  | response r =>
    rw [TxBuffer.pollPushReadiness, Response.ResponseBufferInner.pollPushReadiness] at hinv ⊢
    split
    · rename_i hnonempty
      rw [if_pos hnonempty] at hinv
      refine ⟨⟨hinv, service, current, hmailbox, hroom⟩, fun ready hready ↦ ?_⟩
      cases hready
      have h' : HasRoom (.response r) n priorities := ⟨hinv, service, current, hmailbox, hroom⟩
      refine h'.of_pushReadiness fun p hp ↦ ?_
      rw [PrioritySet.contains_or, Bool.or_eq_true] at hp
      rcases hp with hp | hp
      · exact h'.pushReadiness hp
      · rw [PrioritySet.contains_and, Bool.and_eq_true] at hp
        exact hp.1
    · rename_i hempty
      rw [if_neg hempty] at hinv
      exact ⟨⟨hinv, service, current, hmailbox, hroom⟩, fun ready hready ↦ by cases hready⟩
  | signal r | blocking r => cases hmailbox

/-- **A response is accepted at a priority with room.** -/
theorem tryPush {T : Type} [BufferType T] [Serialize T] [LawfulSerialize T]
    (h : HasRoom b (BufferType.bufferLength T) priorities) {t : Endpoint.Transfer T}
    (hpriority : priorities.contains t.transferMeta.priority = true)
    (haddress : t.transferMeta.address.isSome = true) :
    ∃ b', Tx.tryPush b t = .ok (.ok (), b') ∧
      HasRoom b' (BufferType.bufferLength T) .NONE := by
  obtain ⟨hb, service, current, hmailbox, hroom⟩ := h
  have hpush := @Mailbox.push_response_ok _ _ _ t service current (hroom _ hpriority)
    (Option.isSome_iff_ne_none.mp haddress)
  rw [← hmailbox] at hpush
  obtain ⟨b', hb', hinv, hmailbox'⟩ := TxBuffer.tryPush_of_mailbox hb hpush
  refine ⟨b', hb', hinv, service, _, hmailbox', fun p hp ↦ ?_⟩
  rw [PrioritySet.contains_NONE] at hp
  cases hp

end HasRoom

/-! ## The request buffer -/

/-- The requests in the queue come from nodes, and wait at their own priority. -/
def Sourced (b : Backlog Priority Item) : Prop :=
  ∀ p, ∀ item ∈ b p, item.1.address.isSome = true ∧ item.1.priority = p

theorem Sourced.accept {b : Backlog Priority Item} (h : Sourced b) {item : Option Item}
    (hitem : ∀ i ∈ item, i.1.address.isSome = true) (TN : ℕ) :
    Sourced (RxPriorityFifoInner.accept TN b item) := by
  cases item with
  | none => exact h
  | some i =>
    intro p x hx
    rcases Backlog.mem_push hx with ⟨rfl, rfl⟩ | hx
    · exact ⟨hitem x rfl, rfl⟩
    · exact h p x hx

/-- A request that is completed by a frame with a source has one. -/
theorem address_of_handles {SN capacity : ℕ} {dataSpecifier : DataSpecifier} {timeout : Duration}
    {frame : Frame} {l l' : List Tracked} {reception : SessionTable.Reception}
    (h : SessionTable.Handles SN capacity dataSpecifier timeout frame l l' reception)
    (hsource : frame.header.source.isSome = true) :
    ∀ item ∈ reception.completed capacity frame, item.1.address.isSome = true := by
  cases h with
  | foreign | dropped =>
    intro item hitem
    cases hitem
  | anonymous hnone =>
    rw [hnone] at hsource
    cases hsource
  | regular =>
    intro item hitem
    obtain ⟨delivery, -, rfl⟩ := Option.map_eq_some_iff.mp hitem
    rfl

end Responder

end Emcyphal
