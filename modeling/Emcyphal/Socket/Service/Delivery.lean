import Emcyphal.Network.Publishers
import Emcyphal.Socket.Service.Answers
import Emcyphal.Tx.Drain

/-!
# The responses are sent

A response that the response buffer has accepted stays there until its last frame is fetched, and
there is one for each request that was handled.  At each priority they are sent one after the other,
so that the frames are those of the responses in the order of the requests: each of them goes to the
node that has sent the request, with the id of the request, and encodes the payload that the handle
has returned (`responses_sent`).
-/

set_option autoImplicit false

namespace Emcyphal

open Rust

namespace Outgoing

variable {o : Outgoing} {p : Priority} {d : DataSpecifier} {frames : List Frame} {s : Scatter}

/-- All frames of a transfer have the same header. -/
theorem Yields.header (h : o.Yields p d frames s) :
    ∀ f ∈ frames, f.header = ⟨p, d, none, o.destination⟩ := by
  induction h with
  | nil => simp
  | snoc _ _ ih =>
    intro f hf
    rcases List.mem_append.mp hf with hf | hf
    · exact ih f hf
    · rw [List.mem_singleton.mp hf]
      rfl

theorem Yields.timestamp (h : o.Yields p d frames s) : ∀ f ∈ frames, f.timestamp = o.timestamp := by
  induction h with
  | nil => simp
  | snoc _ _ ih =>
    intro f hf
    rcases List.mem_append.mp hf with hf | hf
    · exact ih f hf
    · rw [List.mem_singleton.mp hf]
      rfl

end Outgoing

/-! ## The response buffer -/

namespace TxBuffer

variable {T : Type} [BufferType T] [Serialize T] [LawfulSerialize T] {b b' : TxBuffer} {n : ℕ}
  {service : ServiceId} {current : Priority → Option Outgoing}

theorem ready_response (h : b.Inv n) (hmailbox : b.mailbox = .response service current)
    {p : Priority} {o : Outgoing} (ho : current p = some o) : o.Ready := by
  cases b with
  | signal | blocking => cases hmailbox
  | response r =>
    rw [mailbox] at hmailbox
    cases hmailbox
    obtain ⟨o', ho', rfl⟩ := Option.map_eq_some_iff.mp ho
    exact (Response.ResponseBufferInner.Inv.current h p o' ho').trim

variable (T) in
/-- A frame is of a response at one of the priorities, and the rest of it is left then. -/
theorem tryPop_response (h : b.Inv (BufferType.bufferLength T))
    (hmailbox : b.mailbox = .response service current) (mask : PrioritySet) (mtu : Mtu) :
    (∃ b', b.tryPop mask mtu = .ok (none, b') ∧ b'.Inv (BufferType.bufferLength T) ∧
      b'.mailbox = b.mailbox ∧ ∀ p, mask.contains p = true → current p = none) ∨
    ∃ p o data rest b', current p = some o ∧ o.Sends mtu data rest ∧
      b.tryPop mask mtu = .ok (some (o.frame p (.response service) data), b') ∧
      b'.Inv (BufferType.bufferLength T) ∧
      b'.mailbox = .response service (Function.update current p rest) := by
  cases hfind : Priority.all.find? fun p ↦ mask.contains p && (current p).isSome with
  | none =>
    have hfetch : b.mailbox.fetch mask mtu = (b.mailbox, none) := by
      rw [hmailbox, Mailbox.fetch, hfind]
    obtain ⟨b', hpop, hinv, hmailbox'⟩ := tryPop_of_mailbox T h hfetch
    refine .inl ⟨b', hpop, hinv, hmailbox', fun p hp ↦ ?_⟩
    simpa [hp] using List.find?_eq_none.mp hfind p p.mem_all
  | some p =>
    have hfound := List.find?_some hfind
    rw [Bool.and_eq_true] at hfound
    obtain ⟨o, ho⟩ := Option.isSome_iff_exists.mp hfound.2
    obtain ⟨data, rest, hsends⟩ := (ready_response h hmailbox ho).sends mtu
    have hfetch : b.mailbox.fetch mask mtu = (.response service (Function.update current p rest),
        some (o.frame p (.response service) data)) := by
      rw [hmailbox, Mailbox.fetch, hfind]
      dsimp only
      rw [ho, hsends.nextFrame]
    obtain ⟨b', hpop, hinv, hmailbox'⟩ := tryPop_of_mailbox T h hfetch
    exact .inr ⟨p, o, data, rest, b', ho, hsends, hpop, hinv, hmailbox'⟩

/-- A response that is accepted is the only one at its priority. -/
theorem tryPush_response (h : b.Inv (BufferType.bufferLength T))
    (hmailbox : b.mailbox = .response service current) {t : Endpoint.Transfer T}
    (hpush : Tx.tryPush b t = .ok (.ok (), b')) : current t.transferMeta.priority = none ∧
      b'.Inv (BufferType.bufferLength T) ∧
      b'.mailbox = .response service
        (Function.update current t.transferMeta.priority (some t.outgoing)) := by
  have hnot : ∀ {m : Mailbox} {e : BufferError}, b.mailbox.push t ≠ (m, .error e) := by
    intro m e herror
    obtain ⟨b₁, hpush₁, -⟩ := tryPush_of_mailbox h herror
    cases hpush.symm.trans hpush₁
  rw [hmailbox] at hnot
  by_cases hcurrent : current t.transferMeta.priority = none
  · by_cases haddress : t.transferMeta.address = none
    · exact absurd (Mailbox.push_response_address hcurrent haddress) hnot
    · have hok : b.mailbox.push t = _ :=
        hmailbox ▸ Mailbox.push_response_ok hcurrent haddress
      obtain ⟨b₁, hpush₁, hinv, hmailbox₁⟩ := tryPush_of_mailbox h hok
      cases hpush.symm.trans hpush₁
      exact ⟨hcurrent, hinv, hmailbox₁⟩
  · exact absurd (Mailbox.push_response_notReady hcurrent) hnot

omit [BufferType T] [Serialize T] [LawfulSerialize T] in
theorem mailbox_pollPushReadiness (b : TxBuffer) (w : Waker) (mask : PrioritySet) :
    (b.pollPushReadiness w mask).2.mailbox = b.mailbox := by
  cases b with
  | signal r =>
    rw [pollPushReadiness, Signal.Inner.pollPushReadiness]
    split <;> rfl
  | blocking r =>
    rw [pollPushReadiness, Blocking.Inner.pollPushReadiness]
    split
    · split <;> rfl
    · rfl
  | response r =>
    rw [pollPushReadiness, Response.ResponseBufferInner.pollPushReadiness]
    split <;> rfl

end TxBuffer

namespace Responder.Running

/-! ## What was sent -/

variable {SN TN : ℕ} {Req Resp : Type}

/-- The frame that was fetched. -/
def Event.frame : Event Req Resp → Option Frame
  | .fetched frame => frame
  | _ => none

/-- The frames of a priority that were fetched. -/
def framesAt (p : Priority) (events : List (Event Req Resp)) : List Frame :=
  (events.filterMap Event.frame).filter fun f ↦ f.header.priority = p

/-- The responses of a priority that were accepted. -/
def responsesAt (p : Priority) (events : List (Event Req Resp)) : List (Endpoint.Transfer Resp) :=
  (events.filterMap Event.response).filter fun t ↦ t.transferMeta.priority = p

theorem framesAt_append (p : Priority) (events later : List (Event Req Resp)) :
    framesAt p (events ++ later) = framesAt p events ++ framesAt p later := by
  rw [framesAt, List.filterMap_append, List.filter_append]
  rfl

theorem responsesAt_append (p : Priority) (events later : List (Event Req Resp)) :
    responsesAt p (events ++ later) = responsesAt p events ++ responsesAt p later := by
  rw [responsesAt, List.filterMap_append, List.filter_append]
  rfl

theorem framesAt_fetched (p : Priority) (frame : Frame) :
    framesAt p [(.fetched (some frame) : Event Req Resp)] =
      if frame.header.priority = p then [frame] else [] := by
  have hone : framesAt p [(.fetched (some frame) : Event Req Resp)] =
    [frame].filter fun f ↦ f.header.priority = p := rfl
  rw [hone, List.filter_cons, List.filter_nil]
  simp only [decide_eq_true_eq]

theorem responsesAt_answered (p : Priority) (t : Endpoint.Transfer Resp) :
    responsesAt p [(.answered t : Event Req Resp)] =
      if t.transferMeta.priority = p then [t] else [] := by
  have hone : responsesAt p [(.answered t : Event Req Resp)] =
    [t].filter fun t ↦ t.transferMeta.priority = p := rfl
  rw [hone, List.filter_cons, List.filter_nil]
  simp only [decide_eq_true_eq]

variable [BufferType Resp] [Serialize Resp]

/-- The frames that were fetched are those of the responses that were accepted, but for what is left
in the response buffer. -/
def Sends (service : ServiceId) (events : List (Event Req Resp)) (b : TxBuffer) : Prop :=
  ∃ current, b.mailbox = .response service current ∧ ∀ p, InTurn p (.response service)
    ((responsesAt p events).map Endpoint.Transfer.outgoing) (framesAt p events) (current p)

variable {service : ServiceId} {events : List (Event Req Resp)} {event : Event Req Resp}
  {b b' : TxBuffer}

theorem Sends.silent (h : Sends service events b) (hframe : event.frame = none)
    (hresponse : event.response = none) (hb : b'.mailbox = b.mailbox) :
    Sends service (events ++ [event]) b' := by
  obtain ⟨current, hmailbox, hturn⟩ := h
  refine ⟨current, hb.trans hmailbox, fun p ↦ ?_⟩
  have hframes : framesAt p [event] = [] := by
    rw [framesAt, List.filterMap_cons_none hframe]
    rfl
  have hresponses : responsesAt p [event] = [] := by
    rw [responsesAt, List.filterMap_cons_none hresponse]
    rfl
  rw [framesAt_append, responsesAt_append, hframes, hresponses, List.append_nil, List.append_nil]
  exact hturn p

variable [LawfulSerialize Resp]

/-- A frame is fetched, and one of all priorities leaves less to send. -/
theorem Sends.fetched (h : Sends service events b) (hb : b.Inv (BufferType.bufferLength Resp))
    (mask : PrioritySet) (mtu : Mtu) : ∃ frame b', b.tryPop mask mtu = .ok (frame, b') ∧
      b'.Inv (BufferType.bufferLength Resp) ∧ Sends service (events ++ [.fetched frame]) b' ∧
      (mask = .ALL → b'.mailbox.remaining ≤ b.mailbox.remaining - 1) := by
  obtain ⟨current, hmailbox, hturn⟩ := h
  rcases TxBuffer.tryPop_response Resp hb hmailbox mask mtu with
    ⟨b', hpop, hinv, hmailbox', hnone⟩ | ⟨p, o, data, rest, b', ho, hsends, hpop, hinv, hmailbox'⟩
  · refine ⟨none, b', hpop, hinv, Sends.silent ⟨current, hmailbox, hturn⟩ rfl rfl hmailbox', ?_⟩
    rintro rfl
    have hzero : b'.mailbox.remaining = 0 := by
      rw [hmailbox', hmailbox, Mailbox.remaining, List.sum_eq_zero_iff]
      intro x hx
      obtain ⟨p, -, rfl⟩ := List.mem_map.mp hx
      rw [hnone p (by cases p <;> decide)]
      rfl
    omega
  · refine ⟨_, b', hpop, hinv, ⟨_, hmailbox', fun q ↦ ?_⟩, fun _ ↦ ?_⟩
    · have hresponses : responsesAt q
          [(.fetched (some (o.frame p (.response service) data)) : Event Req Resp)] = [] := rfl
      rw [framesAt_append, responsesAt_append, hresponses, List.append_nil, framesAt_fetched]
      have hq := hturn q
      have hpriority : (o.frame p (.response service) data).header.priority = p := rfl
      rw [hpriority]
      by_cases hqp : p = q
      · subst hqp
        rw [if_pos rfl, Function.update_self]
        rw [ho] at hq
        exact hq.send hsends
      · rwa [if_neg hqp, List.append_nil, Function.update_of_ne (Ne.symm hqp)]
    · have hlt : (Mailbox.response service (Function.update current p rest)).remaining <
          (Mailbox.response service current).remaining :=
        Mailbox.remaining_update_lt ho hsends.remaining_lt
      rw [hmailbox, hmailbox']
      omega

/-- A response is accepted. -/
theorem Sends.answered (h : Sends service events b) (hb : b.Inv (BufferType.bufferLength Resp))
    {t : Endpoint.Transfer Resp} (hpush : Tx.tryPush b t = .ok (.ok (), b')) :
    Sends service (events ++ [.answered t]) b' := by
  obtain ⟨current, hmailbox, hturn⟩ := h
  obtain ⟨hnone, -, hmailbox'⟩ := TxBuffer.tryPush_response hb hmailbox hpush
  refine ⟨_, hmailbox', fun q ↦ ?_⟩
  have hframes : framesAt q [(.answered t : Event Req Resp)] = [] := rfl
  rw [framesAt_append, responsesAt_append, hframes, List.append_nil, responsesAt_answered]
  have hq := hturn q
  by_cases hqp : t.transferMeta.priority = q
  · subst hqp
    rw [if_pos rfl, List.map_append, List.map_singleton, Function.update_self]
    rw [hnone] at hq
    exact hq.push _
  · rwa [if_neg hqp, List.append_nil, Function.update_of_ne (Ne.symm hqp)]

/-! ## Runs -/

variable [Deserialize Req] {respTimeout : Duration} {capacity : ℕ} {s s' : Running SN TN Req}

/-- What a step of the responder does to the responses. -/
theorem Sends.step (h : Sends service events s.resp)
    (hb : s.resp.Inv (BufferType.bufferLength Resp)) {op : Op Resp}
    (hstep : s.step op = .ok (s', event)) : Sends service (events ++ [event]) s'.resp := by
  cases op with
  | pushFrame frame =>
    obtain ⟨req, -, hreturn⟩ := bind_eq_ok.mp hstep
    cases hreturn
    exact h.silent rfl rfl rfl
  | fetchFrame mask mtu =>
    obtain ⟨frame, b', hpop, -, hsends, -⟩ := h.fetched hb mask mtu
    rw [Running.step, hpop] at hstep
    cases hstep
    exact hsends
  | poll w handled =>
    rw [Running.step, Running.pollTask] at hstep
    split at hstep
    · cases hstep
      exact h.silent rfl rfl rfl
    · cases hstep
      exact h.silent rfl rfl (TxBuffer.mailbox_pollPushReadiness _ _ _)
    · cases hstep
      exact h.silent rfl rfl rfl
    · cases hstep
      exact h.silent rfl rfl (TxBuffer.mailbox_pollPushReadiness _ _ _)
    · obtain ⟨⟨item, req⟩, -, hreturn⟩ := bind_eq_ok.mp hstep
      dsimp only at hreturn
      split at hreturn
      · cases hreturn
        exact h.silent rfl rfl rfl
      · cases hreturn
        exact h.silent rfl rfl rfl
    · rename_i request htask
      split at hstep
      · rename_i payload
        obtain ⟨x, hpush, hreturn⟩ := bind_eq_ok.mp hstep
        obtain ⟨result, resp⟩ := x
        cases result with
        | error e => cases hreturn
        | ok u =>
          cases hreturn
          exact h.answered hb hpush
      · cases hstep
        exact h.silent rfl rfl rfl

/-- These frames carry the response to a request, with a padding. -/
structure Answers (service : ServiceId) (respTimeout : Duration) (request : Endpoint.Transfer Req)
    (payload : Resp) (frames : List Frame) : Prop where
  header : ∀ f ∈ frames, f.header =
    ⟨request.transferMeta.priority, .response service, none, request.transferMeta.address⟩
  timestamp : ∀ f ∈ frames,
    f.timestamp = Instant.saturatingAdd request.transferMeta.timestamp respTimeout
  encodes : ∃ pad, pad ≤ 15 ∧ Encodes request.transferMeta.transferId
    (frames.map fun f ↦ f.data.bytes) (Serialize.payload payload ++ List.replicate pad PAD_VALUE)

/-- The response to a request. -/
def responseTo (respTimeout : Duration) (request : Endpoint.Transfer Req) (payload : Resp) :
    Endpoint.Transfer Resp :=
  ⟨responseMeta respTimeout request.transferMeta, payload⟩

omit [Deserialize Req] in
theorem answers_of_complete {request : Endpoint.Transfer Req} {payload : Resp} {frames : List Frame}
    (h : (responseTo respTimeout request payload).outgoing.Complete request.transferMeta.priority
      (.response service) frames) : Answers service respTimeout request payload frames := by
  obtain ⟨pad, hpad, hencodes⟩ :=
    h.encodes (responseTo respTimeout request payload).whole_outgoing
  obtain ⟨s, hyields, -⟩ := h
  exact ⟨hyields.header, hyields.timestamp, pad, hpad, hencodes⟩

omit [BufferType Resp] [Serialize Resp] [LawfulSerialize Resp] in
/-- The responses are those to the requests that were handled. -/
theorem Exchange.exchanged {task : Task Req} (h : Exchange respTimeout events task) :
    ∃ exchanged : List (Endpoint.Transfer Req × Resp),
      events.filterMap Event.call = exchanged.map Prod.fst ++ task.request.toList ∧
      events.filterMap Event.response = exchanged.map fun x ↦ responseTo respTimeout x.1 x.2 := by
  obtain ⟨answered, hcalls, hresponses⟩ := h.responses
  rw [hcalls]
  clear hcalls
  generalize events.filterMap Event.response = responses at hresponses
  induction answered generalizing responses with
  | nil =>
    rw [List.map_nil, List.map_eq_nil_iff] at hresponses
    exact ⟨[], rfl, hresponses⟩
  | cons request answered ih =>
    cases responses with
    | nil => cases hresponses
    | cons response responses =>
      obtain ⟨hmeta, hrest⟩ := List.cons.inj hresponses
      obtain ⟨exchanged, hfirst, rfl⟩ := ih responses hrest
      refine ⟨(request, response.payload) :: exchanged, ?_, ?_⟩
      · rw [List.cons_append, hfirst]
        rfl
      · have hresponse : response = responseTo respTimeout request response.payload :=
          congrArg (fun m ↦ (⟨m, response.payload⟩ : Endpoint.Transfer Resp)) hmeta
        rw [List.map_cons, ← hresponse]

omit [Deserialize Req] [LawfulSerialize Resp] in
theorem create_sends {reqBuffers respBuffers : List (List Byte)} {s : Running SN TN Req}
    (hcount : respBuffers.length = Response.BUFFER_COUNT)
    (hlength : ∀ buffer ∈ respBuffers, buffer.length = BufferType.bufferLength Resp)
    {service : ServiceId} {reqTimeout respTimeout : Duration}
    (hcreate : create SN TN Req service reqTimeout respTimeout reqBuffers respBuffers = .ok s) :
    Sends service ([] : List (Event Req Resp)) s.resp := by
  obtain ⟨req, -, hcreate⟩ := bind_eq_ok.mp hcreate
  obtain ⟨resp, hresp, hcreate⟩ := bind_eq_ok.mp hcreate
  cases hcreate
  obtain ⟨r, hnew, -, hservice, hcurrent, -⟩ :=
    Response.ResponseBufferInner.inv_new hcount hlength
  rw [TxBuffer.new, hnew] at hresp
  cases hresp
  refine ⟨fun _ ↦ none, ?_, fun p ↦ .idle .nil⟩
  rw [TxBuffer.mailbox, hservice, hcurrent]
  rfl

/-- Each fetch leaves less to send. -/
theorem Sends.fetchFrame (h : Sends service events s.resp)
    (hb : s.resp.Inv (BufferType.bufferLength Resp)) (mtu : Mtu) : ∃ s' event,
      s.step (.fetchFrame .ALL mtu : Op Resp) = .ok (s', event) ∧
        (s'.resp.Inv (BufferType.bufferLength Resp) ∧ Sends service (events ++ [event]) s'.resp ∧
          event.response = none) ∧
        s'.resp.mailbox.remaining ≤ s.resp.mailbox.remaining - 1 := by
  obtain ⟨frame, b', hpop, hinv, hsends, hless⟩ := h.fetched hb .ALL mtu
  exact ⟨{ s with resp := b' }, .fetched frame, by rw [Running.step, hpop]; rfl,
    ⟨hinv, hsends, rfl⟩, hless rfl⟩

omit [LawfulSerialize Resp] [Deserialize Req] in
/-- When nothing is left to send, all responses were sent. -/
theorem Sends.complete (h : Sends service events b) (hb : b.Inv (BufferType.bufferLength Resp))
    (hzero : b.mailbox.remaining = 0) (p : Priority) : ∃ parts, framesAt p events = parts.flatten ∧
      List.Forall₂ (fun t frames ↦ (Endpoint.Transfer.outgoing t).Complete p (.response service)
        frames) (responsesAt p events) parts := by
  obtain ⟨current, hmailbox, hturn⟩ := h
  have hnone : current p = none := by
    by_contra hsome
    obtain ⟨o, ho⟩ := Option.ne_none_iff_exists'.mp hsome
    rw [hmailbox, Mailbox.remaining, List.sum_eq_zero_iff] at hzero
    have hleft := hzero _ (List.mem_map_of_mem p.mem_all)
    obtain ⟨data, rest, hsends⟩ := (TxBuffer.ready_response hb hmailbox ho).sends .classic
    have hlt := hsends.remaining_lt
    rw [ho, Option.map_some, Option.getD_some] at hleft
    omega
  have hp := hturn p
  rw [hnone] at hp
  generalize hframes : framesAt p events = frames at hp
  generalize hpushed : (responsesAt p events).map Endpoint.Transfer.outgoing = pushed at hp
  cases hp with
  | idle hparts =>
    rw [← hpushed, List.forall₂_map_left_iff] at hparts
    exact ⟨_, rfl, hparts⟩

/-- What the handle returns when it is polled, and the task has gone on with. -/
def returned : Op Resp × Event Req Resp → Option Resp
  | (.poll _ handled, .answered _) => handled
  | _ => none

omit [BufferType Resp] [LawfulSerialize Resp] in
/-- The response carries what the handle has returned. -/
theorem payload_of_step {op : Op Resp} (hstep : s.step op = .ok (s', event)) :
    event.response.map Endpoint.Transfer.payload = returned (op, event) := by
  cases op with
  | pushFrame frame =>
    obtain ⟨req, -, hreturn⟩ := bind_eq_ok.mp hstep
    cases hreturn
    rfl
  | fetchFrame mask mtu =>
    obtain ⟨⟨frame, resp⟩, -, hreturn⟩ := bind_eq_ok.mp hstep
    cases hreturn
    rfl
  | poll w handled =>
    rw [Running.step, Running.pollTask] at hstep
    split at hstep
    · cases hstep
      rfl
    · cases hstep
      rfl
    · cases hstep
      rfl
    · cases hstep
      rfl
    · obtain ⟨⟨item, req⟩, -, hreturn⟩ := bind_eq_ok.mp hstep
      dsimp only at hreturn
      split at hreturn
      · cases hreturn
        rfl
      · cases hreturn
        rfl
    · split at hstep
      · obtain ⟨⟨result, resp⟩, -, hreturn⟩ := bind_eq_ok.mp hstep
        cases result with
        | error e => cases hreturn
        | ok u =>
          cases hreturn
          rfl
      · cases hstep
        rfl

omit [BufferType Resp] [LawfulSerialize Resp] in
/-- The responses carry what the handle has returned, in this order. -/
theorem payloads_of_run {ops : List (Op Resp)} {s s' : Running SN TN Req}
    (hrun : run Running.step s ops = .ok (s', events)) :
    (events.filterMap Event.response).map Endpoint.Transfer.payload =
      (ops.zip events).filterMap returned := by
  have hsteps : List.Forall₂ (fun op event ↦ event.response.map Endpoint.Transfer.payload =
      returned (op, event)) ops events := by
    refine forall₂_of_run (fun s op s' event hstep ↦ ?_) hrun
    exact payload_of_step hstep
  clear hrun
  induction hsteps with
  | nil => rfl
  | @cons op event ops events hpayload _ ih =>
    rw [List.zip_cons_cons, List.filterMap_cons, List.filterMap_cons]
    cases hresponse : event.response with
    | none =>
      rw [hresponse] at hpayload
      rw [← hpayload]
      exact ih
    | some response =>
      rw [hresponse] at hpayload
      rw [← hpayload]
      exact congrArg (response.payload :: ·) ih

/-- **Each response is sent, completely and to the node that waits for it.**  Whatever the driver
and the task do, each request that was handled is followed by one response, with what the handle has
returned, and when the driver has fetched often enough, the frames of each priority are those of the
responses, in the order of the requests and nothing in between. -/
theorem responses_sent {reqBuffers respBuffers : List (List Byte)}
    (hreq : RxPriorityFifoInner.Sized SN TN capacity reqBuffers)
    (hcount : respBuffers.length = Response.BUFFER_COUNT)
    (hlength : ∀ buffer ∈ respBuffers, buffer.length = BufferType.bufferLength Resp)
    (service : ServiceId) (reqTimeout respTimeout : Duration) : ∃ s₀ : Running SN TN Req,
      create SN TN Req service reqTimeout respTimeout reqBuffers respBuffers = .ok s₀ ∧
        ∀ ops : List (Op Resp), Admissible Running.step Valid s₀ ops → ∃ s events,
          run Running.step s₀ ops = .ok (s, events) ∧
          ∃ exchanged : List (Endpoint.Transfer Req × Resp),
            events.filterMap Event.call = exchanged.map Prod.fst ++ s.task.request.toList ∧
            (ops.zip events).filterMap returned = exchanged.map Prod.snd ∧
            events.filterMap Event.response =
              exchanged.map (fun x ↦ responseTo respTimeout x.1 x.2) ∧
            ∀ mtu n, s.resp.mailbox.remaining ≤ n → ∃ s' events',
              run Running.step s (List.replicate n (.fetchFrame .ALL mtu)) = .ok (s', events') ∧
              ∀ p, ∃ parts, framesAt p (events ++ events') = parts.flatten ∧
                List.Forall₂ (fun x frames ↦ Answers service respTimeout x.1 x.2 frames)
                  (exchanged.filter fun x ↦ x.1.transferMeta.priority = p) parts := by
  obtain ⟨s₀, hcreate, hs₀⟩ : ∃ s₀ : Running SN TN Req,
      create SN TN Req service reqTimeout respTimeout reqBuffers respBuffers = .ok s₀ ∧
        Inv capacity respTimeout ([] : List (Event Req Resp)) s₀ :=
    create_inv hreq hcount hlength service reqTimeout respTimeout
  have hsends₀ : Sends service ([] : List (Event Req Resp)) s₀.resp :=
    create_sends hcount hlength hcreate
  refine ⟨s₀, hcreate, fun ops hops ↦ ?_⟩
  obtain ⟨s, events, hrun, hs, hsends⟩ := run_of_outputs
    (fun events s op (hs : Inv capacity respTimeout events s ∧ Sends service events s.resp) hop ↦ by
      obtain ⟨s', event, hstep, hs'⟩ := hs.1.step hreq.le_noEntry hreq.transfers.1 hop
      exact ⟨s', event, hstep, hs', hs.2.step hs.1.resp.inv hstep⟩) ⟨hs₀, hsends₀⟩ hops
  obtain ⟨exchanged, hcalls, hresponses⟩ := hs.exchange.exchanged
  have hreturned : (ops.zip events).filterMap returned = exchanged.map Prod.snd := by
    rw [← payloads_of_run hrun, hresponses, List.map_map]
    rfl
  refine ⟨s, events, hrun, exchanged, hcalls, hreturned, hresponses, fun mtu n hn ↦ ?_⟩
  -- The fetches leave the responses that were accepted as they are.
  have hfetch : ∀ (later : List (Event Req Resp)) (s : Running SN TN Req),
      (s.resp.Inv (BufferType.bufferLength Resp) ∧ Sends service later s.resp ∧
        later.filterMap Event.response = events.filterMap Event.response) →
      ∃ s' event, s.step (.fetchFrame .ALL mtu : Op Resp) = .ok (s', event) ∧
        (s'.resp.Inv (BufferType.bufferLength Resp) ∧ Sends service (later ++ [event]) s'.resp ∧
          (later ++ [event]).filterMap Event.response = events.filterMap Event.response) ∧
        s'.resp.mailbox.remaining ≤ s.resp.mailbox.remaining - 1 := by
    rintro later s ⟨hb, hsends, hsame⟩
    obtain ⟨s', event, hstep, ⟨hb', hsends', hnone⟩, hless⟩ := hsends.fetchFrame hb mtu
    refine ⟨s', event, hstep, ⟨hb', hsends', ?_⟩, hless⟩
    rw [List.filterMap_append, List.filterMap_cons_none hnone, List.filterMap_nil, List.append_nil,
      hsame]
  obtain ⟨s', events', hrun', ⟨hb, hsends', hsame⟩, hzero⟩ :=
    run_replicate hfetch events ⟨hs.resp.inv, hsends, rfl⟩ hn
  refine ⟨s', events', hrun', fun p ↦ ?_⟩
  obtain ⟨parts, hframes, hparts⟩ := hsends'.complete hb hzero p
  refine ⟨parts, hframes, ?_⟩
  rw [responsesAt, hsame, hresponses, List.filter_map, List.forall₂_map_left_iff] at hparts
  have hpriority : ∀ x ∈ exchanged.filter fun x ↦ x.1.transferMeta.priority = p,
      x.1.transferMeta.priority = p := fun x hx ↦ of_decide_eq_true (List.mem_filter.mp hx).2
  refine ((List.forall₂_and_left _ _).mpr ⟨hpriority, hparts⟩).imp ?_
  rintro x frames ⟨rfl, hcomplete⟩
  exact answers_of_complete hcomplete

/-- The longer response takes two frames. -/
def tenBytes : DataTypes.ByteArray := ⟨[1, 2, 3, 4, 5, 6, 7, 8, 9, 10], by decide⟩
def threeBytes : DataTypes.ByteArray := ⟨[41, 42, 43], by decide⟩

/-- Two nodes send a request, and the response to the second one has to wait for the first one. -/
def handleRequests : List (Op DataTypes.ByteArray) :=
  [.pushFrame (requestFrame (.fromU16Truncating 5) (.fromU8Truncating 1)),
    .pushFrame (requestFrame (.fromU16Truncating 5) (.fromU8Truncating 2))] ++
  .replicate 5 (.poll 7 none) ++ [.poll 7 (some tenBytes)] ++
  .replicate 2 (.fetchFrame .ALL .classic) ++ .replicate 6 (.poll 7 none) ++
  [.poll 7 (some threeBytes)]

set_option maxRecDepth 10000 in
/-- Both requests are handled, and their responses are fetched. -/
theorem responses_sent_two_nodes : ∃ s₀ : Running 2 2 DataTypes.Empty,
    create 2 2 DataTypes.Empty (.fromU16Truncating 5) 2000 3000 (.replicate 5 [])
      (.replicate 8 (.replicate 258 0)) = .ok s₀ ∧
    ∃ (s s' : Running 2 2 DataTypes.Empty)
      (events events' : List (Event DataTypes.Empty DataTypes.ByteArray))
      (exchanged : List (Endpoint.Transfer DataTypes.Empty × DataTypes.ByteArray))
      (parts : List (List Frame)),
      run step s₀ handleRequests = .ok (s, events) ∧
      exchanged.map (fun x ↦ x.2.bytes) = [tenBytes.bytes, threeBytes.bytes] ∧
      events.filterMap Event.call = exchanged.map Prod.fst ∧
      run step s (List.replicate 7 (.fetchFrame .ALL .classic)) = .ok (s', events') ∧
      framesAt .nominal (events ++ events') = parts.flatten ∧
      (framesAt .nominal (events ++ events')).length = 3 ∧
      List.Forall₂ (fun x frames ↦ Answers (.fromU16Truncating 5) 3000 x.1 x.2 frames)
        exchanged parts := by
  obtain ⟨s₀, hcreate, h⟩ := @responses_sent 2 2 DataTypes.Empty DataTypes.ByteArray _ _ _ _ 0
    (.replicate 5 []) (.replicate 8 (.replicate 258 0)) ⟨by decide, by decide, rfl, by decide⟩ rfl
    (fun buffer hbuffer ↦ by rw [List.eq_of_mem_replicate hbuffer]; rfl)
    (.fromU16Truncating 5) 2000 3000
  have hcheck : (do
      let s₀ ← create 2 2 DataTypes.Empty (.fromU16Truncating 5) 2000 3000 (.replicate 5 [])
        (.replicate 8 (.replicate 258 0))
      let x ← run step s₀ handleRequests
      let y ← run step x.1 (List.replicate 7 (.fetchFrame .ALL .classic))
      pure (decide (Admissible step Valid s₀ handleRequests ∧ x.1.resp.mailbox.remaining = 7 ∧
        ((handleRequests.zip x.2).filterMap returned).map DataTypes.ByteArray.bytes =
          [tenBytes.bytes, threeBytes.bytes] ∧
        (x.2.filterMap Event.call).map (fun request ↦ request.transferMeta.priority) =
          [.nominal, .nominal] ∧ (framesAt .nominal (x.2 ++ y.2)).length = 3)) : Exec Bool) =
            .ok true := by
    decide +kernel
  rw [hcreate, ok_bind] at hcheck
  obtain ⟨x, hx, hcheck⟩ := bind_eq_ok.mp hcheck
  obtain ⟨y, hy, hall⟩ := bind_eq_ok.mp hcheck
  obtain ⟨hops, hseven, hpayloads, hpriorities, hthree⟩ :=
    of_decide_eq_true (Except.ok.inj hall)
  obtain ⟨s, events, hrun, exchanged, hcalls, hreturned, -, hfetch⟩ := h handleRequests hops
  cases hx.symm.trans hrun
  obtain ⟨s', events', hrun', hparts⟩ := hfetch .classic 7 hseven.le
  cases hy.symm.trans hrun'
  obtain ⟨parts, hframes, hanswers⟩ := hparts .nominal
  rw [hreturned, List.map_map] at hpayloads
  -- Both requests are nominal, and both were handled.
  have htwo : exchanged.length = 2 := by
    simpa using congrArg List.length hpayloads
  have hlength := congrArg List.length hpriorities
  rw [List.length_map, hcalls, List.length_append, List.length_map, htwo] at hlength
  have hnone : s.task.request.toList = [] := by
    rw [← List.length_eq_zero_iff]
    simp only [List.length_cons, List.length_nil] at hlength
    omega
  rw [hnone, List.append_nil] at hcalls
  have hnominal : ∀ x ∈ exchanged, decide (x.1.transferMeta.priority = .nominal) = true := by
    intro x hx
    have hmem : x.1.transferMeta.priority ∈ [Priority.nominal, .nominal] := by
      rw [← hpriorities, hcalls, List.map_map]
      exact List.mem_map_of_mem (f := fun x ↦ x.1.transferMeta.priority) hx
    simpa using hmem
  rw [List.filter_eq_self.mpr hnominal] at hanswers
  exact ⟨s₀, hcreate, s, s', events, events', exchanged, parts, hrun, hpayloads, hcalls, hrun',
    hframes, hthree, hanswers⟩

end Responder.Running

end Emcyphal
