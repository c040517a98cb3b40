import Emcyphal.Socket.Service

/-!
# The history of a responder

`Exchange` says of a history that each request was answered, up to the one that is being handled.
`Running.Inv` adds what it takes to go on: the requests in the queue have an address to respond to,
and there is room for a response at each priority that the task has gathered (`HasRoom`), which a
request that is handled was popped at.
-/

set_option autoImplicit false

namespace Emcyphal

open Rust

namespace Responder

/-! ## Requests and responses -/

namespace Running

variable {SN TN : ℕ} {Req Resp : Type}

/-- The request that the handle was called with. -/
def Event.call : Event Req Resp → Option (Endpoint.Transfer Req)
  | .popped _ _ call => call
  | _ => none

/-- The response that was accepted. -/
def Event.response : Event Req Resp → Option (Endpoint.Transfer Resp)
  | .answered response => some response
  | _ => none

/-- The request that was popped, if it is valid. -/
def Event.request [Deserialize Req] : Event Req Resp → Option (Endpoint.Transfer Req)
  | .popped _ (some item) _ => (Rx.deserialize item).toOption
  | _ => none

/-- The priority of the request that was popped was free, if there was one. -/
def Event.IsFree : Event Req Resp → Prop
  | .popped free (some item) _ => free.contains item.1.priority = true
  | _ => True

end Running

/-- The request that is being handled. -/
def Task.request {Req : Type} : Task Req → Option (Endpoint.Transfer Req)
  | .handle request => some request
  | _ => none

/-- The priorities that the task has found to be free. -/
def Task.respPriorities {Req : Type} : Task Req → PrioritySet
  | .wait (.select _ respPriorities _) => respPriorities
  | .wait (.fetch respPriorities) => respPriorities
  | .second _ respPriorities => respPriorities
  | .handle request => .newEq request.transferMeta.priority
  | .wait .waitReq => .NONE
  | .wait (.waitResp _) => .NONE

theorem respPriorities_loop {Req : Type} (req resp : PrioritySet) :
    (Task.wait (.loop req resp) : Task Req).respPriorities = resp := by
  rw [Phase.loop]
  split <;> rfl

namespace Running

variable {SN TN : ℕ} {Req Resp : Type} [Deserialize Req] {respTimeout : Duration}
  {events : List (Event Req Resp)} {event : Event Req Resp} {task task' : Task Req}

/-- **The history of a responder**: the handle was called once for each request that was popped and
is valid, and each call but the one that has not returned has led to one response. -/
structure Exchange (respTimeout : Duration) (events : List (Event Req Resp)) (task : Task Req) :
    Prop where
  calls : events.filterMap Event.call = events.filterMap Event.request
  responses : ∃ answered, events.filterMap Event.call = answered ++ task.request.toList ∧
    (events.filterMap Event.response).map (fun response ↦ response.transferMeta) =
      answered.map fun request ↦ responseMeta respTimeout request.transferMeta
  /-- The response can be addressed. -/
  addressed : ∀ request ∈ events.filterMap Event.call, request.transferMeta.address.isSome = true
  /-- A request is popped only if a response to it can be pushed. -/
  free : ∀ event ∈ events, event.IsFree

theorem exchange_nil (h : task.request = none) :
    Exchange respTimeout ([] : List (Event Req Resp)) task where
  calls := rfl
  responses := ⟨[], by rw [h]; rfl, rfl⟩
  addressed request hrequest := by cases hrequest
  free event hevent := by cases hevent

/-- Nothing happens to the requests. -/
theorem Exchange.silent (h : Exchange respTimeout events task) (hcall : event.call = none)
    (hrequest : event.request = none) (hresponse : event.response = none) (hfree : event.IsFree)
    (htask : task'.request = task.request) : Exchange respTimeout (events ++ [event]) task' := by
  have hcalls : (events ++ [event]).filterMap Event.call = events.filterMap Event.call := by
    rw [List.filterMap_append, List.filterMap_cons_none hcall, List.filterMap_nil, List.append_nil]
  refine ⟨?_, ?_, ?_, ?_⟩
  · rw [hcalls, List.filterMap_append, List.filterMap_cons_none hrequest, List.filterMap_nil,
      List.append_nil, h.calls]
  · rw [hcalls, htask, List.filterMap_append, List.filterMap_cons_none hresponse,
      List.filterMap_nil, List.append_nil]
    exact h.responses
  · rw [hcalls]
    exact h.addressed
  · exact List.forall_mem_append.mpr ⟨h.free, List.forall_mem_singleton.mpr hfree⟩

/-- A request is popped, and the handle is called. -/
theorem Exchange.handle (h : Exchange respTimeout events task) (htask : task.request = none)
    {request : Endpoint.Transfer Req} (hcall : event.call = some request)
    (hrequest : event.request = some request) (hresponse : event.response = none)
    (hfree : event.IsFree) (haddress : request.transferMeta.address.isSome = true) :
    Exchange respTimeout (events ++ [event]) (.handle request) := by
  have hcalls : (events ++ [event]).filterMap Event.call =
      events.filterMap Event.call ++ [request] := by
    rw [List.filterMap_append, List.filterMap_cons_some hcall, List.filterMap_nil]
  refine ⟨?_, ?_, ?_, ?_⟩
  · rw [hcalls, List.filterMap_append, List.filterMap_cons_some hrequest, List.filterMap_nil,
      h.calls]
  · obtain ⟨answered, hanswered, hresponses⟩ := h.responses
    rw [htask, Option.toList_none, List.append_nil] at hanswered
    refine ⟨answered, by rw [hcalls, hanswered]; rfl, ?_⟩
    rw [List.filterMap_append, List.filterMap_cons_none hresponse, List.filterMap_nil,
      List.append_nil, hresponses]
  · intro r hr
    rw [hcalls] at hr
    rcases List.mem_append.mp hr with hr | hr
    · exact h.addressed r hr
    · rwa [List.mem_singleton.mp hr]
  · exact List.forall_mem_append.mpr ⟨h.free, List.forall_mem_singleton.mpr hfree⟩

/-- The response to the request that was handled is accepted. -/
theorem Exchange.answer {request : Endpoint.Transfer Req}
    (h : Exchange respTimeout events (.handle request)) {response : Endpoint.Transfer Resp}
    (hresponse : response.transferMeta = responseMeta respTimeout request.transferMeta)
    (htask : task'.request = none) :
    Exchange respTimeout (events ++ [.answered response]) task' := by
  have hcalls : (events ++ [Event.answered response]).filterMap Event.call =
      events.filterMap Event.call := by
    rw [List.filterMap_append, List.filterMap_cons_none rfl, List.filterMap_nil, List.append_nil]
  refine ⟨?_, ?_, ?_, ?_⟩
  · rw [hcalls, List.filterMap_append, List.filterMap_cons_none rfl, List.filterMap_nil,
      List.append_nil, h.calls]
  · obtain ⟨answered, hanswered, hresponses⟩ := h.responses
    refine ⟨answered ++ [request], ?_, ?_⟩
    · rw [hcalls, hanswered, htask, Option.toList_none, List.append_nil]
      rfl
    · have hsome : (Event.answered response : Event Req Resp).response = some response := rfl
      rw [List.filterMap_append, List.filterMap_cons_some hsome, List.filterMap_nil,
        List.map_append, List.map_append, hresponses, List.map_singleton, List.map_singleton,
        hresponse]
  · rw [hcalls]
    exact h.addressed
  · exact List.forall_mem_append.mpr ⟨h.free, List.forall_mem_singleton.mpr trivial⟩

/-! ## One step -/

/-- What holds after a history. -/
structure Inv [BufferType Resp] (capacity : ℕ) (respTimeout : Duration)
    (events : List (Event Req Resp)) (s : Running SN TN Req) : Prop where
  req : ∃ l b, s.req.Represents capacity l b ∧ Sourced (s.req.contents b)
  resp : HasRoom s.resp (BufferType.bufferLength Resp) s.task.respPriorities
  timeout : s.respTimeout = respTimeout
  exchange : Exchange respTimeout events s.task

/-- Requests come from nodes, and there are slots for their sessions if any is needed. -/
def Valid (s : Running SN TN Req) : Op Resp → Prop
  | .pushFrame frame => frame.header.source.isSome = true ∧
    (1 ≤ SN ∨ ¬ SessionTable.NeedsSession s.req.dataSpecifier frame)
  | .fetchFrame _ _ | .poll _ _ => True

instance (s : Running SN TN Req) : (op : Op Resp) → Decidable (s.Valid op)
  | .pushFrame _ => inferInstanceAs (Decidable (_ ∧ _))
  | .fetchFrame _ _ | .poll _ _ => isTrue trivial

omit [Deserialize Req] in
/-- A poll leaves the request buffer as it is. -/
theorem represents_poll {r : RxPriorityFifoInner SN TN} {capacity : ℕ} {l : List Tracked}
    {b : Backlog Priority TransferEntry} (h : r.Represents capacity l b) (w : Waker)
    (mask : PrioritySet) : (r.pollPopReadiness w mask).2.Represents capacity l b ∧
      (r.pollPopReadiness w mask).2.contents b = r.contents b := by
  rw [RxPriorityFifoInner.pollPopReadiness]
  split
  · exact ⟨h, rfl⟩
  · exact ⟨⟨h.shares, h.queue, h.fits⟩, rfl⟩

variable [BufferType Resp] {capacity : ℕ} {s : Running SN TN Req}

/-- The request buffer is polled while no request is handled. -/
theorem Inv.pollReq (h : Inv capacity respTimeout events s) (hidle : s.task.request = none)
    (w : Waker) (mask : PrioritySet) {next : Option PrioritySet → Task Req}
    (hnext : ∀ ready, (next ready).respPriorities = s.task.respPriorities ∧
      (next ready).request = none) :
    Inv capacity respTimeout (events ++ [.waited]) (s.pollReq w mask next) := by
  obtain ⟨l, b, hreq, hsourced⟩ := h.req
  obtain ⟨hreq', hcontents⟩ := represents_poll hreq w mask
  refine ⟨⟨l, b, hreq', ?_⟩, ?_, h.timeout, ?_⟩
  · rwa [Running.pollReq, hcontents]
  · rw [Running.pollReq]
    dsimp only
    rw [(hnext _).1]
    exact h.resp
  · refine h.exchange.silent rfl rfl rfl trivial ?_
    rw [hidle]
    exact (hnext _).2

/-- The response buffer is polled while no request is handled. -/
theorem Inv.pollResp (h : Inv capacity respTimeout events s) (hidle : s.task.request = none)
    (w : Waker) (mask : PrioritySet) {next : Option PrioritySet → Task Req}
    (hpending : ∀ p, (next none).respPriorities.contains p = true →
      s.task.respPriorities.contains p = true)
    (hready : ∀ ready p, (next (some ready)).respPriorities.contains p = true →
      (s.task.respPriorities ||| ready).contains p = true)
    (hrequest : ∀ ready, (next ready).request = none) :
    Inv capacity respTimeout (events ++ [.waited]) (s.pollResp w mask next) := by
  obtain ⟨hroom, hroom'⟩ := h.resp.poll w mask
  refine ⟨h.req, ?_, h.timeout, h.exchange.silent rfl rfl rfl trivial ?_⟩
  · rw [Running.pollResp]
    dsimp only
    cases hpoll : (s.resp.pollPushReadiness w mask).1 with
    | none => exact hroom.mono hpending
    | some ready => exact (hroom' ready hpoll).mono (hready ready)
  · rw [hidle]
    exact hrequest _

/-- A request is popped at a priority that is free. -/
theorem Inv.fetch (h : Inv capacity respTimeout events s) {respPriorities : PrioritySet}
    (htask : s.task = .wait (.fetch respPriorities)) : ∃ s' event,
      s.fetch respPriorities = .ok (s', event) ∧
        Inv capacity respTimeout (events ++ [event]) s' := by
  obtain ⟨l, b, hreq, hsourced⟩ := h.req
  have hroom : HasRoom s.resp (BufferType.bufferLength Resp) respPriorities := by
    have hresp := h.resp
    rwa [htask] at hresp
  have hidle : s.task.request = none := by rw [htask]; rfl
  obtain ⟨req, b', hpop, hreq', hcontents, -⟩ :=
    RxPriorityFifoInner.tryPop_represents hreq respPriorities
  have hsourced' : Sourced (req.contents b') := by
    intro p x hx
    rw [hcontents] at hx
    exact hsourced p x (Backlog.mem_of_pop_snd hx)
  have hwait : HasRoom s.resp (BufferType.bufferLength Resp) .NONE := hroom.mono fun p hp ↦ by
    rw [PrioritySet.contains_NONE] at hp
    cases hp
  rw [Running.fetch, hpop, ok_bind]
  cases hitem : ((s.req.contents b).pop respPriorities.contains).1 with
  | none =>
    exact ⟨_, _, rfl, ⟨l, b', hreq', hsourced'⟩, hwait, h.timeout,
      h.exchange.silent rfl rfl rfl trivial hidle.symm⟩
  | some x =>
    obtain ⟨p, item⟩ := x
    obtain ⟨hmask, hmem⟩ := Backlog.mem_of_pop_fst hitem
    obtain ⟨haddress, rfl⟩ := hsourced p item hmem
    have hfree : s.resp.pushReadiness.contains item.1.priority = true := hroom.pushReadiness hmask
    cases hrequest : (Rx.deserialize item : Except _ (Endpoint.Transfer Req)) with
    | error e =>
      have hevent : (Event.popped s.resp.pushReadiness (some item) none :
          Event Req Resp).request = none := by
        rw [Event.request, hrequest]
        rfl
      rw [Option.map_some]
      dsimp only
      rw [Option.map_some, hrequest]
      exact ⟨_, _, rfl, ⟨l, b', hreq', hsourced'⟩, hwait, h.timeout,
        h.exchange.silent rfl hevent rfl hfree hidle.symm⟩
    | ok request =>
      have hmeta : request.transferMeta = item.1 := by
        rw [Rx.deserialize] at hrequest
        cases hpayload : (Deserialize.deserializeFromBytes item.2 : Except _ Req) with
        | error e =>
          rw [hpayload] at hrequest
          cases hrequest
        | ok payload =>
          rw [hpayload] at hrequest
          cases hrequest
          rfl
      have hevent : (Event.popped s.resp.pushReadiness (some item) (some request) :
          Event Req Resp).request = some request := by
        rw [Event.request, hrequest]
        rfl
      rw [Option.map_some]
      dsimp only
      rw [Option.map_some, hrequest]
      refine ⟨_, _, rfl, ⟨l, b', hreq', hsourced'⟩, ?_, h.timeout,
        h.exchange.handle hidle rfl hevent rfl hfree (by rwa [hmeta])⟩
      refine hroom.mono fun q hq ↦ ?_
      rw [Task.respPriorities, hmeta, PrioritySet.contains_newEq, decide_eq_true_iff] at hq
      rwa [← hq]

variable [Serialize Resp] [LawfulSerialize Resp]

/-- **The response to the request is accepted.** -/
theorem Inv.answer (h : Inv capacity respTimeout events s) {request : Endpoint.Transfer Req}
    (htask : s.task = .handle request) (payload : Resp) : ∃ s' event,
      s.answer request payload = .ok (s', event) ∧
        Inv capacity respTimeout (events ++ [event]) s' := by
  have hroom := h.resp
  have hexchange := h.exchange
  rw [htask] at hroom hexchange
  have haddress : request.transferMeta.address.isSome = true := by
    obtain ⟨answered, hanswered, -⟩ := hexchange.responses
    refine hexchange.addressed request ?_
    rw [hanswered]
    exact List.mem_append_right _ List.mem_cons_self
  obtain ⟨resp, hpush, hresp⟩ := hroom.tryPush
    (t := ⟨responseMeta s.respTimeout request.transferMeta, payload⟩)
    (by simp [Task.respPriorities, responseMeta]) haddress
  rw [Running.answer, hpush]
  refine ⟨_, _, rfl, h.req, hresp, h.timeout, hexchange.answer ?_ rfl⟩
  rw [h.timeout]

theorem Inv.pollTask (h : Inv capacity respTimeout events s) (w : Waker) (handled : Option Resp) :
    ∃ s' event, s.pollTask w handled = .ok (s', event) ∧
      Inv capacity respTimeout (events ++ [event]) s' := by
  rw [Running.pollTask]
  split
  · rename_i htask
    refine ⟨_, _, rfl, h.pollReq (by rw [htask]; rfl) w .ALL fun ready ↦ ⟨?_, rfl⟩⟩
    rw [htask]
    cases ready <;> rfl
  · rename_i reqPriorities htask
    refine ⟨_, _, rfl, h.pollResp (by rw [htask]; rfl) w .ALL (fun p hp ↦ ?_)
      (fun ready p hp ↦ ?_) fun ready ↦ rfl⟩
    · rwa [htask]
    · rw [Option.elim_some, respPriorities_loop] at hp
      rw [PrioritySet.contains_or, hp, Bool.or_true]
  · rename_i reqPriorities respPriorities suspended htask
    refine ⟨_, _, rfl, h.pollReq (by rw [htask]; rfl) w reqPriorities fun ready ↦ ?_⟩
    rw [htask]
    cases ready with
    | none => exact ⟨rfl, rfl⟩
    | some ready => exact ⟨respPriorities_loop _ _, rfl⟩
  · rename_i reqPriorities respPriorities htask
    refine ⟨_, _, rfl, h.pollResp (by rw [htask]; rfl) w respPriorities (fun p hp ↦ ?_)
      (fun ready p hp ↦ ?_) fun ready ↦ rfl⟩
    · rwa [htask]
    · rw [Option.elim_some, respPriorities_loop] at hp
      rwa [htask]
  · rename_i respPriorities htask
    exact h.fetch htask
  · rename_i request htask
    split
    · rename_i payload
      exact h.answer htask payload
    · exact ⟨_, _, rfl, h.req, h.resp, h.timeout, h.exchange.silent rfl rfl rfl trivial rfl⟩

/-- **No step panics.** -/
theorem Inv.step (hSN : SN ≤ IndexQueue.NO_ENTRY) (hTN : 1 ≤ TN)
    (h : Inv capacity respTimeout events s) {op : Op Resp} (hop : s.Valid op) :
    ∃ s' event, s.step op = .ok (s', event) ∧
      Inv capacity respTimeout (events ++ [event]) s' := by
  cases op with
  | pushFrame frame =>
    obtain ⟨l, b, hreq, hsourced⟩ := h.req
    obtain ⟨req, l', b', reception, -, hpush, hpushed⟩ :=
      RxPriorityFifoInner.pushFrame_represents hSN hTN hreq frame hop.2
    refine ⟨{ s with req := req }, .pushed, by rw [Running.step, hpush]; rfl,
      ⟨l', b', hpushed.represents, ?_⟩, h.resp, h.timeout,
      h.exchange.silent rfl rfl rfl trivial rfl⟩
    rw [hpushed.contents]
    exact hsourced.accept (address_of_handles hpushed.handles hop.1) TN
  | fetchFrame mask mtu =>
    obtain ⟨frame, resp, hpop, hresp⟩ := h.resp.tryPop mask mtu
    exact ⟨{ s with resp := resp }, .fetched frame, by rw [Running.step, hpop]; rfl, h.req, hresp,
      h.timeout, h.exchange.silent rfl rfl rfl trivial rfl⟩
  | poll w handled => exact h.pollTask w handled

omit [BufferType Resp] [LawfulSerialize Resp] in
/-- The accesses of a poll of the task, with nothing in between, are a poll of the wait loop. -/
theorem pollTask_phase {r : Response.ResponseBufferInner} (hresp : s.resp = .response r)
    {phase : Phase} (htask : s.task = .wait phase) (hphase : ∀ p, phase ≠ .fetch p) (w : Waker)
    (handled : Option Resp) : ∃ s', s.pollTask w handled = .ok (s', .waited) ∧
      (s'.task = .wait (phase.poll ⟨s.req.popReadiness, r.pushReadiness⟩).1 ∨
        ∃ s'', s'.pollTask w handled = .ok (s'', .waited) ∧
          s''.task = .wait (phase.poll ⟨s.req.popReadiness, r.pushReadiness⟩).1) := by
  rw [Running.pollTask, htask]
  cases phase with
  | waitReq =>
    refine ⟨_, rfl, .inl ?_⟩
    rw [Running.pollReq, Phase.poll]
    dsimp only
    rw [pollPopReadiness_eq]
    cases pollReadiness s.req.popReadiness .ALL <;> rfl
  | waitResp reqPriorities =>
    refine ⟨_, rfl, .inl ?_⟩
    rw [Running.pollResp, Phase.poll, hresp]
    dsimp only [TxBuffer.pollPushReadiness, Prod.map_fst, id_eq]
    rw [pollPushReadiness_eq]
    cases pollReadiness r.pushReadiness .ALL <;> rfl
  | select reqPriorities respPriorities suspended =>
    refine ⟨_, rfl, ?_⟩
    rw [Running.pollReq, Phase.poll]
    dsimp only
    rw [pollPopReadiness_eq]
    cases pollReadiness s.req.popReadiness reqPriorities with
    | some priority => exact .inl rfl
    | none =>
      refine .inr ⟨_, rfl, ?_⟩
      rw [Running.pollResp, hresp]
      dsimp only [TxBuffer.pollPushReadiness, Prod.map_fst, id_eq]
      rw [pollPushReadiness_eq]
      cases pollReadiness r.pushReadiness respPriorities <;> rfl
  | fetch p => exact absurd rfl (hphase p)

/-! ## Runs -/

omit [Serialize Resp] [LawfulSerialize Resp] in
theorem create_inv {reqBuffers respBuffers : List (List Byte)}
    (hreq : RxPriorityFifoInner.Sized SN TN capacity reqBuffers)
    (hcount : respBuffers.length = Response.BUFFER_COUNT)
    (hlength : ∀ buffer ∈ respBuffers, buffer.length = BufferType.bufferLength Resp)
    (service : ServiceId) (reqTimeout respTimeout : Duration) : ∃ s : Running SN TN Req,
      create SN TN Req service reqTimeout respTimeout reqBuffers respBuffers = .ok s ∧
        Inv capacity respTimeout ([] : List (Event Req Resp)) s := by
  obtain ⟨req, hnewReq, hr⟩ := hreq.new_reaches (.request service) reqTimeout
  obtain ⟨resp, hnewResp, hinv, hservice, hcurrent, -⟩ :=
    Response.ResponseBufferInner.inv_new hcount hlength
  refine ⟨⟨req, .response resp, respTimeout, .wait .waitReq⟩, ?_, ⟨[], _, hr.represents, ?_⟩,
    ⟨hinv, service, fun _ ↦ none, ?_, fun _ _ ↦ rfl⟩, rfl, exchange_nil rfl⟩
  · rw [create, hnewReq, TxBuffer.new, hnewResp]
    rfl
  · rw [hr.contents]
    intro p item hitem
    cases hitem
  · rw [TxBuffer.mailbox, hservice, hcurrent]
    rfl

/-- **The responder answers each request exactly once and never panics**, and a request is popped
only at a priority that is free then and until the response is pushed. -/
theorem requests_answered {reqBuffers respBuffers : List (List Byte)}
    (hreq : RxPriorityFifoInner.Sized SN TN capacity reqBuffers)
    (hcount : respBuffers.length = Response.BUFFER_COUNT)
    (hlength : ∀ buffer ∈ respBuffers, buffer.length = BufferType.bufferLength Resp)
    (service : ServiceId) (reqTimeout respTimeout : Duration) : ∃ s₀ : Running SN TN Req,
      create SN TN Req service reqTimeout respTimeout reqBuffers respBuffers = .ok s₀ ∧
        ∀ ops : List (Op Resp), Admissible step Valid s₀ ops → ∃ s events,
          run step s₀ ops = .ok (s, events) ∧ Exchange respTimeout events s.task ∧
            ∀ request, s.task = .handle request →
              s.resp.pushReadiness.contains request.transferMeta.priority = true := by
  obtain ⟨s₀, hcreate, hs₀⟩ : ∃ s₀ : Running SN TN Req,
      create SN TN Req service reqTimeout respTimeout reqBuffers respBuffers = .ok s₀ ∧
        Inv capacity respTimeout ([] : List (Event Req Resp)) s₀ :=
    create_inv hreq hcount hlength service reqTimeout respTimeout
  refine ⟨s₀, hcreate, fun ops hops ↦ ?_⟩
  obtain ⟨s, events, hrun, hs⟩ := run_of_outputs
    (fun events s op (hs : Inv capacity respTimeout events s) hop ↦
      hs.step hreq.le_noEntry hreq.transfers.1 hop) hs₀ hops
  refine ⟨s, events, hrun, hs.exchange, fun request htask ↦ hs.resp.pushReadiness ?_⟩
  rw [htask, Task.respPriorities, PrioritySet.contains_newEq, decide_eq_true_iff]

/-- A request of one frame. -/
def requestFrame (service : ServiceId) (source : NodeId) : Frame where
  header := ⟨.nominal, .request service, some source, none⟩
  data := ⟨[0xE0], by decide⟩
  timestamp := Instant.MIN
  loopBack := false

set_option maxRecDepth 2000 in
/-- A request is answered, and the response is fetched. -/
theorem requests_answered_example : ∃ (s₀ s : Running 1 1 DataTypes.Empty)
    (events : List (Event DataTypes.Empty DataTypes.Empty)),
    create 1 1 DataTypes.Empty ⟨5, by decide⟩ 2000 3000 [[], [], []] (.replicate 8 []) = .ok s₀ ∧
      run step s₀ [.pushFrame (requestFrame ⟨5, by decide⟩ 1), .poll 7 none, .poll 7 none,
        .poll 7 none, .poll 7 none, .poll 7 (some ⟨⟩), .fetchFrame .ALL .classic] =
          .ok (s, events) ∧
      Exchange 3000 events s.task ∧
      events.filterMap Event.response = [⟨⟨.nominal, some 1, 0, 3000, false⟩, ⟨⟩⟩] := by
  obtain ⟨s₀, hcreate, h⟩ := @requests_answered 1 1 DataTypes.Empty DataTypes.Empty _ _ 0 _ _
    [[], [], []] (.replicate 8 []) ⟨by decide, by decide, rfl, by decide⟩ rfl (by decide)
    ⟨5, by decide⟩ 2000 3000
  have hcreate' := hcreate
  cases hcreate
  obtain ⟨s, events, hrun, hexchange, -⟩ := h [.pushFrame (requestFrame ⟨5, by decide⟩ 1),
    .poll 7 none, .poll 7 none, .poll 7 none, .poll 7 none, .poll 7 (some ⟨⟩),
    .fetchFrame .ALL .classic] (by decide)
  have hrun' := hrun
  cases hrun
  exact ⟨_, _, _, hcreate', hrun', hexchange, rfl⟩

end Running

end Responder

end Emcyphal
