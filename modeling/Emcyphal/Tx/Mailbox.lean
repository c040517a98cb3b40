import Emcyphal.Tx.Endpoint

/-!
# What a transmit buffer does for its endpoint

`Mailbox` is a transmit buffer without its data buffers.  It keeps the transfers that were pushed
and not sent yet, each with the data that is its own, and has two operations: the endpoint pushes a
transfer, and the driver fetches a frame.  Each kind of buffer is such a mailbox (`simulates`), so
what the driver and the endpoint see of a buffer depends on its mailbox only.
-/

set_option autoImplicit false

namespace Emcyphal

open Rust

namespace Outgoing

/-- The transfer with the data that is sent of it. -/
def trim (o : Outgoing) : Outgoing := { o with buffer := o.buffer.take o.scatter.dataLength }

/-- A frame is fetched, and this is what is left. -/
def send (o : Outgoing) (mtu : Mtu) : Option (Data × Option Outgoing) :=
  match o.scatter.fetchFrameData o.buffer mtu with
  | .ok (some data, s) => some (data, if s.isExhausted then none else some { o with scatter := s })
  | _ => none

/-- The next frame of a priority. -/
def nextFrame (next : Option Outgoing) (p : Priority) (d : DataSpecifier) (mtu : Mtu) :
    Option (Frame × Option Outgoing) := do
  let o ← next
  let (data, rest) ← o.send mtu
  return (o.frame p d data, rest)

theorem Sends.send {o : Outgoing} {mtu : Mtu} {data : Data} {rest : Option Outgoing}
    (h : o.Sends mtu data rest) : o.send mtu = some (data, rest) := by
  rw [Outgoing.send]
  rcases h with ⟨hfetched, hleft⟩ | ⟨hfetched, hleft⟩ <;> rw [hfetched.eq] <;> simp [hleft]

/-- Only the data is sent. -/
theorem Sends.send_trim {o : Outgoing} (ho : o.Ready) {mtu : Mtu} {data : Data}
    {rest : Option Outgoing} (h : o.Sends mtu data rest) : o.trim.send mtu =
    some (data, rest.map trim) := by
  have htake := o.scatter.fetchFrameData_take ho.fits mtu
  rw [Outgoing.send, trim]
  dsimp only
  rw [htake]
  rcases h with ⟨hfetched, hleft⟩ | ⟨hfetched, hleft⟩
  · rw [hfetched.eq]
    simp [hleft, trim, hfetched.dataLength]
  · rw [hfetched.eq]
    simp [hleft]

theorem Sends.nextFrame {o : Outgoing} {mtu : Mtu} {data : Data} {rest : Option Outgoing}
    (h : o.Sends mtu data rest) (p : Priority) (d : DataSpecifier) :
    Outgoing.nextFrame (some o) p d mtu = some (o.frame p d data, rest) := by
  rw [Outgoing.nextFrame, Option.bind_eq_bind, Option.bind_some, h.send]
  rfl

theorem Sends.nextFrame_trim {o : Outgoing} (ho : o.Ready) {mtu : Mtu} {data : Data}
    {rest : Option Outgoing} (h : o.Sends mtu data rest) (p : Priority) (d : DataSpecifier) :
    Outgoing.nextFrame (some o.trim) p d mtu = some (o.frame p d data, rest.map trim) := by
  rw [Outgoing.nextFrame, Option.bind_eq_bind, Option.bind_some, h.send_trim ho]
  rfl

theorem Ready.trim {o : Outgoing} (h : o.Ready) : o.trim.Ready := by
  refine ⟨?_, h.left⟩
  rw [Outgoing.trim, List.length_take]
  exact le_min le_rfl h.fits

end Outgoing

/-- What a buffer has to send. -/
inductive Mailbox
  | signal (subject : SubjectId) (priority : Priority) (current pending : Option Outgoing)
  | blocking (subject : SubjectId) (priority : Priority) (current : Option Outgoing)
  | response (service : ServiceId) (current : Priority → Option Outgoing)

variable {T : Type} [BufferType T] [Serialize T]

/-- The transfer as it is sent. -/
def Endpoint.Transfer.outgoing (t : Endpoint.Transfer T) : Outgoing :=
  let length := Serialize.dataLength t.payload
  let buffer := List.replicate (BufferType.bufferLength T) (0 : Byte)
  let data := (Serialize.serializeToBytes t.payload buffer).take length
  .new t.transferMeta length (TransferCrc.default.addBytes data) data

namespace Mailbox

def fetch (m : Mailbox) (mask : PrioritySet) (mtu : Mtu) : Mailbox × Option Frame :=
  match m with
  | signal subject p current pending =>
    match (if mask.contains p then Outgoing.nextFrame (current.or pending) p (.message subject) mtu
      else none) with
    | some (frame, rest) => (signal subject p rest (if current.isSome then pending else none),
      some frame)
    | none => (m, none)
  | blocking subject p current =>
    match (if mask.contains p then Outgoing.nextFrame current p (.message subject) mtu
      else none) with
    | some (frame, rest) => (blocking subject p rest, some frame)
    | none => (m, none)
  | response service current =>
    match Priority.all.find? fun p ↦ mask.contains p && (current p).isSome with
    | some p =>
      match Outgoing.nextFrame (current p) p (.response service) mtu with
      | some (frame, rest) => (response service (Function.update current p rest), some frame)
      | none => (m, none)
    | none => (m, none)

/-- The endpoint takes the scratchpad first, for which a signal that is full gives up the transfer
that is pending. -/
def push (m : Mailbox) (t : Endpoint.Transfer T) : Mailbox × Except BufferError Unit :=
  match m with
  | signal subject p current pending =>
    let taken := signal subject p current (if current.isSome then none else pending)
    if t.transferMeta.priority ≠ p then (taken, .error .priorityNotReady)
    else if t.transferMeta.address.isSome then (taken, .error .messageAddressSpecified)
    else (signal subject p current (some t.outgoing), .ok ())
  | blocking subject p current =>
    if current.isSome ∨ t.transferMeta.priority ≠ p then (m, .error .priorityNotReady)
    else if t.transferMeta.address.isSome then (m, .error .messageAddressSpecified)
    else (blocking subject p (some t.outgoing), .ok ())
  | response service current =>
    if (current t.transferMeta.priority).isSome then (m, .error .priorityNotReady)
    else if t.transferMeta.address.isNone then (m, .error .serviceAddressNotSpecified)
    else (response service (Function.update current t.transferMeta.priority (some t.outgoing)),
      .ok ())

omit [BufferType T] [Serialize T] in
theorem nextFrame_masked {next : Option Outgoing} {mask : PrioritySet} {p : Priority}
    (h : mask.contains p = false ∨ next = none) (d : DataSpecifier) (mtu : Mtu) :
    (if mask.contains p then Outgoing.nextFrame next p d mtu else none) = none := by
  rcases h with hmask | hnext
  · exact if_neg (by simp [hmask])
  · rw [hnext]
    exact ite_self none

section Push

variable {t : Endpoint.Transfer T} {subject : SubjectId} {service : ServiceId} {p : Priority}
  {current pending : Option Outgoing} {currents : Priority → Option Outgoing}

theorem push_signal_notReady (h : t.transferMeta.priority ≠ p) :
    (signal subject p current pending).push t =
    (signal subject p current (if current.isSome then none else pending),
    .error .priorityNotReady) :=
  if_pos h

theorem push_signal_address (h : t.transferMeta.priority = p)
    (haddress : t.transferMeta.address ≠ none) :
    (signal subject p current pending).push t =
      (signal subject p current (if current.isSome then none else pending),
        .error .messageAddressSpecified) :=
  (if_neg (not_not.mpr h)).trans (if_pos (Option.isSome_iff_ne_none.mpr haddress))

theorem push_signal_ok (h : t.transferMeta.priority = p)
    (haddress : t.transferMeta.address = none) :
    (signal subject p current pending).push t =
      (signal subject p current (some t.outgoing), .ok ()) :=
  (if_neg (not_not.mpr h)).trans (if_neg (by rw [haddress]; exact Bool.false_ne_true))

theorem push_blocking_notReady (h : current.isSome = true ∨ t.transferMeta.priority ≠ p) :
    (blocking subject p current).push t = (blocking subject p current, .error .priorityNotReady) :=
  if_pos h

theorem push_blocking_address (hcurrent : current = none) (h : t.transferMeta.priority = p)
    (haddress : t.transferMeta.address ≠ none) : (blocking subject p current).push t =
      (blocking subject p current, .error .messageAddressSpecified) :=
  (if_neg (by simp [hcurrent, h])).trans (if_pos (Option.isSome_iff_ne_none.mpr haddress))

theorem push_blocking_ok (hcurrent : current = none) (h : t.transferMeta.priority = p)
    (haddress : t.transferMeta.address = none) : (blocking subject p current).push t =
      (blocking subject p (some t.outgoing), .ok ()) :=
  (if_neg (by simp [hcurrent, h])).trans (if_neg (by rw [haddress]; exact Bool.false_ne_true))

theorem push_response_notReady (h : currents t.transferMeta.priority ≠ none) :
    (response service currents).push t = (response service currents, .error .priorityNotReady) :=
  if_pos (Option.isSome_iff_ne_none.mpr h)

theorem push_response_address (h : currents t.transferMeta.priority = none)
    (haddress : t.transferMeta.address = none) : (response service currents).push t =
      (response service currents, .error .serviceAddressNotSpecified) :=
  (if_neg (by rw [h]; exact Bool.false_ne_true)).trans
    (if_pos (Option.isNone_iff_eq_none.mpr haddress))

theorem push_response_ok (h : currents t.transferMeta.priority = none)
    (haddress : t.transferMeta.address ≠ none) : (response service currents).push t =
      (response service (Function.update currents t.transferMeta.priority (some t.outgoing)),
      .ok ()) :=
  (if_neg (by rw [h]; exact Bool.false_ne_true)).trans (if_neg (by simpa using haddress))

end Push

def step (m : Mailbox) : TxBuffer.Call T → Mailbox × TxBuffer.Reply
  | .fetch mask mtu => ((m.fetch mask mtu).1, .fetched (m.fetch mask mtu).2)
  | .push t => ((m.push t).1, .pushed (m.push t).2)

end Mailbox

/-- What is written to the scratchpad becomes the transfer. -/
theorem Endpoint.Transfer.trim_new [LawfulSerialize T] (t : Endpoint.Transfer T)
    {buffer : List Byte} (hbuffer : buffer.length = BufferType.bufferLength T) :
    (Outgoing.new t.transferMeta (Serialize.dataLength t.payload)
      (TransferCrc.default.addBytes
        ((Serialize.serializeToBytes t.payload buffer).take (Serialize.dataLength t.payload)))
      (Serialize.serializeToBytes t.payload buffer)).trim = t.outgoing := by
  rw [Endpoint.Transfer.outgoing, ← LawfulSerialize.determined t.payload buffer _ hbuffer
    (List.length_replicate)]
  rfl

/-- The mailbox of an outbox. -/
def Signal.Outbox.mailbox (b : Signal.Outbox) : Mailbox :=
  .signal b.subject b.priority (b.current.map Outgoing.trim) (b.pending.map Outgoing.trim)

namespace TxBuffer

def mailbox : TxBuffer → Mailbox
  | signal r => r.outbox.mailbox
  | blocking r => .blocking r.subject r.priority (r.current.map Outgoing.trim)
  | response r => .response r.service fun p ↦ (r.current p).map Outgoing.trim

/-- What a call does: it does not panic, and returns and leaves what the mailbox says. -/
def Refines (n : ℕ) (call : Exec (TxBuffer × Reply)) (m : Mailbox × Reply) : Prop :=
  ∃ b, call = .ok (b, m.2) ∧ b.Inv n ∧ b.mailbox = m.1

variable {n : ℕ}

/-! ## Fetches -/

theorem fetch_signal {r : Signal.Inner} (h : r.Inv n) (mask : PrioritySet) (mtu : Mtu) :
    Refines n ((signal r).call (.fetch mask mtu : Call T))
      ((signal r).mailbox.step (.fetch mask mtu : Call T)) := by
  rw [mailbox, Signal.Outbox.mailbox, Mailbox.step, Mailbox.fetch, ← Option.map_or]
  by_cases hnone : mask.contains r.priority = false ∨ r.outbox.next = none
  · have hskip := Mailbox.nextFrame_masked (p := r.priority)
      (hnone.imp_right fun hnext ↦ congrArg (Option.map Outgoing.trim) hnext)
        (.message r.subject) mtu
    rw [show r.outbox.priority = r.priority from rfl, show r.outbox.subject = r.subject from rfl]
    rw [Signal.Outbox.next] at hskip
    rw [hskip]
    refine ⟨signal r, ?_, h, rfl⟩
    rw [call, tryPop, h.tryPop_none hnone]
    rfl
  · push Not at hnone
    obtain ⟨hmask, hnext⟩ := hnone
    replace hmask : mask.contains r.priority = true := by simpa using hmask
    obtain ⟨o, ho⟩ := Option.ne_none_iff_exists'.mp hnext
    have hready : o.Ready := Inv.ready (b := signal r) h (p := r.priority)
      (by rw [next, if_pos rfl, ho])
    obtain ⟨data, rest, hsends⟩ := hready.sends mtu
    obtain ⟨r', hpop, hinv, houtbox⟩ := h.tryPop hmask ho hsends
    rw [Signal.Outbox.next] at ho
    rw [if_pos (by exact hmask), ho, Option.map_some, hsends.nextFrame_trim hready]
    refine ⟨signal r', ?_, hinv, ?_⟩
    · rw [call, tryPop, hpop]
      rfl
    · rw [mailbox, houtbox, Signal.Outbox.mailbox, Signal.Outbox.sent]
      cases r.outbox.current <;> rfl

theorem fetch_blocking {r : Blocking.Inner} (h : r.Inv n) (mask : PrioritySet) (mtu : Mtu) :
    Refines n ((blocking r).call (.fetch mask mtu : Call T))
      ((blocking r).mailbox.step (.fetch mask mtu : Call T)) := by
  rw [mailbox, Mailbox.step, Mailbox.fetch]
  by_cases hnone : mask.contains r.priority = false ∨ r.current = none
  · have hskip := Mailbox.nextFrame_masked (p := r.priority)
      (hnone.imp_right fun hcurrent ↦ congrArg (Option.map Outgoing.trim) hcurrent)
        (.message r.subject) mtu
    rw [hskip]
    refine ⟨blocking r, ?_, h, rfl⟩
    rw [call, tryPop, Blocking.Inner.Inv.tryPop_none hnone]
    rfl
  · push Not at hnone
    obtain ⟨hmask, hcurrent⟩ := hnone
    replace hmask : mask.contains r.priority = true := by simpa using hmask
    obtain ⟨o, ho⟩ := Option.ne_none_iff_exists'.mp hcurrent
    have hready := h.current o ho
    obtain ⟨data, rest, hsends⟩ := hready.sends mtu
    obtain ⟨r', hpop, hinv, hcurrent', hheader, -⟩ := h.tryPop hmask ho hsends
    rw [if_pos hmask, ho, Option.map_some, hsends.nextFrame_trim hready]
    refine ⟨blocking r', ?_, hinv, ?_⟩
    · rw [call, tryPop, hpop]
      rfl
    · rw [mailbox, hcurrent', show r'.subject = r.subject from congrArg Prod.fst hheader,
        show r'.priority = r.priority from congrArg Prod.snd hheader]

/-- The transfers of the other priorities stay. -/
theorem map_update (current : Priority → Option Outgoing) (p : Priority) (rest : Option Outgoing) :
    (fun q ↦ (Function.update current p rest q).map Outgoing.trim) =
      Function.update (fun q ↦ (current q).map Outgoing.trim) p (rest.map Outgoing.trim) := by
  funext q
  by_cases hq : q = p
  · subst hq
    rw [Function.update_self, Function.update_self]
  · rw [Function.update_of_ne hq, Function.update_of_ne hq]

theorem fetch_response {r : Response.ResponseBufferInner} (h : r.Inv n) (mask : PrioritySet)
    (mtu : Mtu) :
    Refines n ((response r).call (.fetch mask mtu : Call T))
      ((response r).mailbox.step (.fetch mask mtu : Call T)) := by
  have hfind : (Priority.all.find? fun p ↦ mask.contains p && ((r.current p).map
    Outgoing.trim).isSome) =
      (r.popReadiness &&& mask).first := by
    rw [PrioritySet.first_eq_find?]
    congr 1
    funext p
    rw [PrioritySet.contains_and, h.popReadiness, Option.isSome_map, Bool.and_comm]
  rw [mailbox, Mailbox.step, Mailbox.fetch, hfind]
  cases hfirst : (r.popReadiness &&& mask).first with
  | none =>
    refine ⟨response r, ?_, h, rfl⟩
    rw [call, tryPop, Response.ResponseBufferInner.Inv.tryPop_none hfirst]
    rfl
  | some p =>
    have hcurrent : (r.current p).isSome = true := by
      have hcontains := (PrioritySet.first_eq_some_iff.mp hfirst).1
      rw [PrioritySet.contains_and, h.popReadiness, Bool.and_eq_true] at hcontains
      exact hcontains.1
    obtain ⟨o, ho⟩ := Option.isSome_iff_exists.mp hcurrent
    have hready := h.current p o ho
    obtain ⟨data, rest, hsends⟩ := hready.sends mtu
    obtain ⟨r', hpop, hinv, hcurrent', hservice, -⟩ := h.tryPop hfirst ho hsends
    dsimp only
    rw [ho, Option.map_some, hsends.nextFrame_trim hready]
    refine ⟨response r', ?_, hinv, ?_⟩
    · rw [call, tryPop, hpop]
      rfl
    · rw [mailbox, hcurrent', hservice, map_update]

/-! ## Pushes -/

omit [BufferType T] in
/-- The endpoint refuses a priority that the scratchpad is not offered for. -/
theorem tryPush_notReady {b b₁ : TxBuffer} {t : Endpoint.Transfer T}
    {scratchpad : Option (PrioritySet × List Byte)} (hget : b.getScratchpad = .ok (scratchpad, b₁))
    (hready : ∀ s ∈ scratchpad, s.1.contains t.transferMeta.priority = false) :
    Tx.tryPush b t = .ok (.error .priorityNotReady, b₁) := by
  rw [Tx.tryPush, hget, ok_bind]
  cases scratchpad with
  | none => rfl
  | some s =>
    dsimp only
    rw [hready s rfl]
    rfl

variable [LawfulSerialize T]

/-- What the endpoint does with a scratchpad of priorities that include the one of the transfer. -/
theorem tryPush_eq {b b₁ : TxBuffer} {t : Endpoint.Transfer T} {priorities : PrioritySet}
    {buffer : List Byte} (hget : b.getScratchpad = .ok (some (priorities, buffer), b₁))
    (hready : priorities.contains t.transferMeta.priority = true)
    (hbuffer : buffer.length = BufferType.bufferLength T) :
    Tx.tryPush b t = (b₁.writeScratchpad (Serialize.serializeToBytes t.payload buffer)).tryPush
      t.transferMeta (Serialize.dataLength t.payload) (TransferCrc.default.addBytes
        ((Serialize.serializeToBytes t.payload buffer).take (Serialize.dataLength t.payload))) := by
  have hlen : Serialize.dataLength t.payload ≤
    (Serialize.serializeToBytes t.payload buffer).length := by
    rw [LawfulSerialize.length t.payload buffer hbuffer, hbuffer]
    exact LawfulSerialize.fits t.payload
  rw [Tx.tryPush, hget, ok_bind]
  dsimp only
  rw [hready, sliceTo_of_le hlen]
  rfl

/-- The scratchpad of a signal, and the same signal after something was written to it. -/
theorem scratchpad_signal {r : Signal.Inner} (h : r.Inv n) : ∃ buffer r₁,
    (signal r).getScratchpad = .ok (some (.newEq r.priority, buffer), signal r₁) ∧
    buffer.length = n ∧
    r₁.Inv n ∧ (signal r₁).mailbox = .signal r.subject r.priority
      (r.outbox.current.map Outgoing.trim) (if (r.outbox.current.map Outgoing.trim).isSome then none
        else r.outbox.pending.map Outgoing.trim) ∧
    ∀ bytes : List Byte, bytes.length = n → (r₁.writeScratchpad bytes).Inv n ∧
      (signal (r₁.writeScratchpad bytes)).mailbox = (signal r₁).mailbox ∧
      (r₁.writeScratchpad bytes).priority = r.priority ∧
      (r₁.writeScratchpad bytes).outbox.scratchpad = some bytes := by
  obtain ⟨buffer, r₁, hget, hlen, hinv, houtbox, hscratchpad⟩ := h.getScratchpad
  refine ⟨buffer, r₁, by rw [getScratchpad, hget]; rfl, hlen, hinv, ?_, fun bytes hbytes ↦ ?_⟩
  · rw [mailbox, houtbox, Signal.Outbox.mailbox, Signal.Outbox.subject_taken,
      Signal.Outbox.priority_taken, Signal.Outbox.current_taken, h.pending_taken]
    cases r.outbox.current <;> rfl
  · obtain ⟨hinv', houtbox'⟩ := hinv.writeScratchpad hbytes
    have hpriority : r₁.priority = r.priority :=
      (congrArg Signal.Outbox.priority houtbox).trans (Signal.Outbox.priority_taken ..)
    refine ⟨hinv', by rw [mailbox, houtbox']; rfl,
      (congrArg Signal.Outbox.priority houtbox').trans hpriority, ?_⟩
    rw [houtbox', Signal.Outbox.written, hscratchpad]
    rfl

theorem push_signal {r : Signal.Inner} (h : r.Inv (BufferType.bufferLength T))
    (t : Endpoint.Transfer T) :
    Refines (BufferType.bufferLength T) ((signal r).call (.push t))
      ((signal r).mailbox.step (.push t)) := by
  obtain ⟨buffer, r₁, hget, hlen, hinv, htaken, hwritten⟩ := scratchpad_signal h
  obtain ⟨hinv₂, hmailbox₂, hpriority₂, hscratchpad₂⟩ :=
    hwritten _ ((LawfulSerialize.length t.payload buffer hlen).trans hlen)
  rw [Mailbox.step]
  by_cases hpriority : t.transferMeta.priority = r.priority
  · have heq := tryPush_eq hget (t := t) (by simp [hpriority]) hlen
    by_cases haddress : t.transferMeta.address = none
    · have hpush : (signal r).mailbox.push t = _ := Mailbox.push_signal_ok hpriority haddress
      obtain ⟨r₃, hpush₃, hinv₃, houtbox₃⟩ :=
        hinv₂.tryPush haddress (hpriority.trans hpriority₂.symm)
        hscratchpad₂ (LawfulSerialize.fits t.payload) _
      rw [hpush]
      refine ⟨signal r₃, ?_, hinv₃, ?_⟩
      · rw [call, heq, writeScratchpad, tryPush, hpush₃]
        rfl
      · rw [htaken, mailbox, Signal.Outbox.mailbox] at hmailbox₂
        injection hmailbox₂ with hsubject hpriority' hcurrent
        rw [mailbox, houtbox₃, ← t.trim_new hlen, Signal.Outbox.mailbox, Signal.Outbox.pushed,
          hsubject, hpriority', hcurrent]
        rfl
    · have hpush : (signal r).mailbox.push t = _ := Mailbox.push_signal_address hpriority haddress
      rw [hpush]
      refine ⟨signal (r₁.writeScratchpad _), ?_, hinv₂, hmailbox₂.trans htaken⟩
      rw [call, heq, writeScratchpad, tryPush, Signal.Inner.tryPush,
        if_pos (Option.isSome_iff_ne_none.mpr haddress)]
      rfl
  · have hpush : (signal r).mailbox.push t = _ := Mailbox.push_signal_notReady hpriority
    rw [hpush]
    refine ⟨signal r₁, ?_, hinv, htaken⟩
    rw [call, tryPush_notReady hget]
    · rfl
    · intro s hs
      cases hs
      simpa using Ne.symm hpriority

omit [BufferType T] [Serialize T] [LawfulSerialize T] in
theorem mailbox_blocking {r r' : Blocking.Inner} (hcurrent : r'.current = r.current)
    (hheader : r'.header = r.header) : (blocking r').mailbox = (blocking r).mailbox := by
  rw [mailbox, mailbox, hcurrent, show r'.subject = r.subject from congrArg Prod.fst hheader,
    show r'.priority = r.priority from congrArg Prod.snd hheader]

theorem push_blocking {r : Blocking.Inner} (h : r.Inv (BufferType.bufferLength T))
    (t : Endpoint.Transfer T) : Refines (BufferType.bufferLength T) ((blocking r).call (.push t))
      ((blocking r).mailbox.step (.push t)) := by
  obtain ⟨r₁, hget, hinv, hcurrent, hheader, hbuffer, hprovided⟩ := h.getScratchpad
  have hget' : (blocking r).getScratchpad =
      .ok (if r.current.isNone then some (.newEq r.priority, r.buffer) else none, blocking r₁) := by
    rw [getScratchpad, hget]
    rfl
  rw [Mailbox.step]
  by_cases hready : r.current = none ∧ t.transferMeta.priority = r.priority
  · obtain ⟨hnone, hpriority⟩ := hready
    have hlen := h.length
    rw [hnone] at hget' hprovided
    have heq := tryPush_eq hget' (t := t) (by simp [hpriority]) hlen
    obtain ⟨hinv₂, hcurrent₂, hheader₂, hprovided₂, hbuffer₂⟩ :=
      hinv.writeScratchpad ((LawfulSerialize.length t.payload r.buffer hlen).trans hlen)
    rw [hprovided, Option.isNone_none, Bool.or_true] at hprovided₂ hbuffer₂
    have hheader' := hheader₂.trans hheader
    by_cases haddress : t.transferMeta.address = none
    · have hpush : (blocking r).mailbox.push t = _ :=
        Mailbox.push_blocking_ok (Option.map_eq_none_iff.mpr hnone) hpriority haddress
      obtain ⟨r₃, hpush₃, hinv₃, hcurrent₃, hheader₃, -⟩ := hinv₂.tryPush haddress
        (hpriority.trans (congrArg Prod.snd hheader').symm) hprovided₂
          (LawfulSerialize.fits t.payload) _
      rw [hpush]
      refine ⟨blocking r₃, ?_, hinv₃, ?_⟩
      · rw [call, heq, writeScratchpad, tryPush, hpush₃]
        rfl
      · have hheader'' := hheader₃.trans hheader'
        rw [if_pos rfl] at hbuffer₂
        rw [mailbox, hcurrent₃, hbuffer₂, Option.map_some, t.trim_new hlen,
          show r₃.subject = r.subject from congrArg Prod.fst hheader'',
          show r₃.priority = r.priority from congrArg Prod.snd hheader'']
    · have hpush : (blocking r).mailbox.push t = _ :=
        Mailbox.push_blocking_address (Option.map_eq_none_iff.mpr hnone) hpriority haddress
      rw [hpush]
      refine ⟨blocking (r₁.writeScratchpad _), ?_, hinv₂,
        mailbox_blocking (hcurrent₂.trans hcurrent) hheader'⟩
      rw [call, heq, writeScratchpad, tryPush, Blocking.Inner.tryPush,
        if_pos (Option.isSome_iff_ne_none.mpr haddress)]
      rfl
  · have hpush : (blocking r).mailbox.push t = _ := Mailbox.push_blocking_notReady (by
      rw [Option.isSome_map, Option.isSome_iff_ne_none]
      tauto)
    rw [hpush]
    refine ⟨blocking r₁, ?_, hinv, mailbox_blocking hcurrent hheader⟩
    rw [call, tryPush_notReady hget']
    · rfl
    · intro s hs
      split at hs
      · rename_i hnone
        cases hs
        simpa using fun hp ↦ hready ⟨Option.isNone_iff_eq_none.mp hnone, Eq.symm hp⟩
      · cases hs

omit [BufferType T] [Serialize T] [LawfulSerialize T] in
theorem mailbox_response {r r' : Response.ResponseBufferInner} (hcurrent : r'.current = r.current)
    (hservice : r'.service = r.service) : (response r').mailbox = (response r).mailbox := by
  rw [mailbox, mailbox, hcurrent, hservice]

theorem push_response {r : Response.ResponseBufferInner} (h : r.Inv (BufferType.bufferLength T))
    (t : Endpoint.Transfer T) : Refines (BufferType.bufferLength T) ((response r).call (.push t))
      ((response r).mailbox.step (.push t)) := by
  rw [Mailbox.step]
  by_cases hready : r.current t.transferMeta.priority = none
  · obtain ⟨buffer, r₁, hget, hlen, hinv, hcurrent, hservice, hscratchpad⟩ := h.getScratchpad hready
    have hget' : (response r).getScratchpad =
      .ok (some (r.pushReadiness, buffer), response r₁) := by
      rw [getScratchpad, hget]
      rfl
    have heq := tryPush_eq hget' (t := t) (by rw [h.pushReadiness, hready]; rfl) hlen
    obtain ⟨hinv₂, hcurrent₂, hservice₂, hscratchpad₂⟩ :=
      hinv.writeScratchpad ((LawfulSerialize.length t.payload buffer hlen).trans hlen)
    have hcurrent' := hcurrent₂.trans hcurrent
    have hservice' := hservice₂.trans hservice
    rw [hscratchpad] at hscratchpad₂
    by_cases haddress : t.transferMeta.address = none
    · have hpush : (response r).mailbox.push t = _ :=
        Mailbox.push_response_address (Option.map_eq_none_iff.mpr hready) haddress
      rw [hpush]
      refine ⟨response (r₁.writeScratchpad _), ?_, hinv₂, mailbox_response hcurrent' hservice'⟩
      rw [call, heq, writeScratchpad, tryPush, Response.ResponseBufferInner.tryPush, haddress]
      rfl
    · have hpush : (response r).mailbox.push t = _ :=
        Mailbox.push_response_ok (Option.map_eq_none_iff.mpr hready) haddress
      obtain ⟨r₃, hpush₃, hinv₃, hcurrent₃, hservice₃, -⟩ := hinv₂.tryPush haddress
        (by rw [hcurrent', hready]) hscratchpad₂ (LawfulSerialize.fits t.payload) _
      rw [hpush]
      refine ⟨response r₃, ?_, hinv₃, ?_⟩
      · rw [call, heq, writeScratchpad, tryPush, hpush₃]
        rfl
      · rw [mailbox, hcurrent₃, map_update, hcurrent', hservice₃.trans hservice', Option.map_some,
          t.trim_new hlen]
  · have hpush : (response r).mailbox.push t = _ :=
      Mailbox.push_response_notReady (by simpa using hready)
    rw [hpush]
    by_cases hfull : ∀ p, r.current p ≠ none
    · refine ⟨response r, ?_, h, rfl⟩
      have hget : (response r).getScratchpad = .ok (none, response r) := by
        rw [getScratchpad, h.getScratchpad_none hfull]
        rfl
      rw [call, tryPush_notReady hget (by simp)]
      rfl
    · push Not at hfull
      obtain ⟨p, hp⟩ := hfull
      obtain ⟨buffer, r₁, hget, -, hinv, hcurrent, hservice, -⟩ := h.getScratchpad hp
      have hget' : (response r).getScratchpad =
        .ok (some (r.pushReadiness, buffer), response r₁) := by
        rw [getScratchpad, hget]
        rfl
      refine ⟨response r₁, ?_, hinv, mailbox_response hcurrent hservice⟩
      rw [call, tryPush_notReady hget']
      · rfl
      · intro s hs
        cases hs
        rw [h.pushReadiness, ← Option.not_isSome, Option.isSome_iff_ne_none.mpr hready]
        rfl

/-- **A buffer is a mailbox.** -/
theorem simulates : Simulates (call (T := T)) Mailbox.step (fun _ ↦ True)
    (fun b m ↦ b.Inv (BufferType.bufferLength T) ∧ b.mailbox = m) id := by
  rintro b m i ⟨h, rfl⟩
  have hstep : Refines (BufferType.bufferLength T) (b.call i) (b.mailbox.step i) := by
    cases i with
    | fetch mask mtu =>
      cases b with
      | signal r => exact fetch_signal h mask mtu
      | blocking r => exact fetch_blocking h mask mtu
      | response r => exact fetch_response h mask mtu
    | push t =>
      cases b with
      | signal r => exact push_signal h t
      | blocking r => exact push_blocking h t
      | response r => exact push_response h t
  obtain ⟨b', hb', hinv, hmailbox⟩ := hstep
  exact .inl ⟨b', hb', hinv, hmailbox⟩

theorem tryPush_of_mailbox {b : TxBuffer} (h : b.Inv (BufferType.bufferLength T))
    {t : Endpoint.Transfer T} {m : Mailbox} {result : Except BufferError Unit}
    (hpush : b.mailbox.push t = (m, result)) :
    ∃ b', Tx.tryPush b t = .ok (result, b') ∧ b'.Inv (BufferType.bufferLength T) ∧ b'.mailbox =
      m := by
  rcases simulates b b.mailbox (.push t) ⟨h, rfl⟩ with ⟨b', hcall, hinv, hmailbox⟩ | ⟨hnot, -⟩
  · rw [Mailbox.step, hpush] at hcall hmailbox
    rw [call] at hcall
    obtain ⟨⟨result', b''⟩, htryPush, hreturn⟩ := bind_eq_ok.mp hcall
    cases hreturn
    exact ⟨b', htryPush, hinv, hmailbox⟩
  · exact absurd trivial hnot

variable (T) in
theorem tryPop_of_mailbox {b : TxBuffer} (h : b.Inv (BufferType.bufferLength T))
    {mask : PrioritySet} {mtu : Mtu} {m : Mailbox} {frame : Option Frame}
    (hfetch : b.mailbox.fetch mask mtu = (m, frame)) :
    ∃ b', b.tryPop mask mtu = .ok (frame, b') ∧ b'.Inv (BufferType.bufferLength T) ∧ b'.mailbox =
      m := by
  rcases simulates b b.mailbox (.fetch mask mtu : Call T) ⟨h, rfl⟩ with
    ⟨b', hcall, hinv, hmailbox⟩ | ⟨hnot, -⟩
  · rw [Mailbox.step, hfetch] at hcall hmailbox
    rw [call] at hcall
    obtain ⟨⟨frame', b''⟩, htryPop, hreturn⟩ := bind_eq_ok.mp hcall
    cases hreturn
    exact ⟨b', htryPop, hinv, hmailbox⟩
  · exact absurd trivial hnot

end TxBuffer

end Emcyphal
