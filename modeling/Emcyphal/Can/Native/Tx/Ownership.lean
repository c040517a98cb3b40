import Emcyphal.Can.Native.Tx

/-!
# Who has a frame

A frame that was fetched waits in the runner, is in a mailbox that the runner has recorded for its
priority, is sent, or is dropped.  The peripheral and the runner do not agree on this at any moment:
a mailbox may be sent, or cancelled, before the runner knows.  `Carries` is what holds of the
mailboxes and the events, and `Owns` adds what holds of the variables of the runner.

The runner finds out in the right order (`Tracked`).  When it takes a mailbox for free because it
was not pending, and had no event afterwards, the frame was not sent, and may be put in a mailbox
again.
-/

set_option autoImplicit false

namespace Emcyphal.Can.Native

open Rust BitField

/-! ## Markers -/

namespace TxMailboxIdx

@[simp] theorem new_intoU8 (idx : TxMailboxIdx) : new idx.intoU8 = some idx := by
  revert idx
  decide

theorem intoU8_injective {idx idx' : TxMailboxIdx} (h : idx.intoU8 = idx'.intoU8) : idx = idx' := by
  have hnew := congrArg new h
  rw [new_intoU8, new_intoU8] at hnew
  exact Option.some.inj hnew

theorem toNat_intoU8_lt (idx : TxMailboxIdx) : idx.intoU8.toNat < 128 := by
  revert idx
  decide

end TxMailboxIdx

/-! ## Mailboxes and events -/

namespace Peripheral

/-- A mailbox was requested, and has not been sent. -/
def Requested (h : Peripheral) (m : TxMailboxIdx) : Prop :=
  h.pending.contains m = true ∧ h.sent.contains m = false

/-- The event of a mailbox is in the FIFO. -/
def HasEvent (h : Peripheral) (m : TxMailboxIdx) : Prop := m.intoU8 ∈ h.events.map TxEvent.marker

theorem pending_unpend {h : Peripheral} {m m' : TxMailboxIdx}
    (hm' : (h.unpend m).pending.contains m' = true) : h.pending.contains m' = true ∧ m ≠ m' := by
  simpa [unpend] using hm'

theorem requested_unpend {h : Peripheral} {m m' : TxMailboxIdx} (hm' : (h.unpend m).Requested m') :
    h.Requested m' := by
  obtain ⟨hpending, hsent⟩ := hm'
  obtain ⟨hpending, hne⟩ := pending_unpend hpending
  simp only [unpend, TxMailboxSet.contains_remove, hne, ne_eq, not_false_eq_true, decide_true,
    Bool.and_true] at hsent
  exact ⟨hpending, hsent⟩

/-- A mailbox is written and requested if it was not in use. -/
theorem add_eq_ok {h h' : Peripheral} {m : TxMailboxIdx} {frame : Frame} {frameFormat : FrameFormat}
    (hadd : h.add m frame frameFormat m.intoU8 = .ok (some h')) :
    h.pending.contains m = false ∧
      ∃ elem, (load elem.header.word1 0xFF#32 24).setWidth 8 = m.intoU8 ∧ h' = { h with
        elements := Function.update h.elements m elem
        pending := h.pending.insert m } := by
  rw [add] at hadd
  split at hadd
  · cases hadd
  · rename_i hpending
    obtain ⟨elem, hstore, hadd⟩ := bind_eq_ok.mp hadd
    cases hadd
    obtain ⟨canId, dlc, hheader⟩ := header_storeTxBuffer hstore
    refine ⟨Bool.eq_false_iff.mpr hpending, elem, ?_, rfl⟩
    rw [hheader]
    exact marker_txHeader m.toNat_intoU8_lt

end Peripheral

/-- What the mailboxes and the events are, of the frames in a log. -/
structure Carries (h : Peripheral) (log : Log) : Prop where
  sent : ∀ m, h.sent.contains m = true → h.pending.contains m = true
  marker : ∀ m, h.pending.contains m = true → h.marker m = m.intoU8
  events : ∀ e ∈ h.events, ∃ m : TxMailboxIdx, e.marker = m.intoU8
  nodup_events : (h.events.map TxEvent.marker).Nodup
  hasEvent : ∀ m, h.HasEvent m → ¬ h.Requested m ∧ log.mailbox m ∈ log.bus
  nodup_bus : log.bus.Nodup
  requested : ∀ m, h.Requested m → log.mailbox m ∉ log.bus
  distinct : ∀ m m', h.pending.contains m = true → h.pending.contains m' = true →
    log.mailbox m = log.mailbox m' → m = m'
  bus_lt : ∀ n ∈ log.bus, n < log.fetched.length
  mailbox_lt : ∀ m, h.pending.contains m = true → log.mailbox m < log.fetched.length

namespace Carries

open Peripheral

variable {h : Peripheral} {log : Log} {m : TxMailboxIdx}

theorem new : Carries .new ⟨[], fun _ ↦ 0, fun _ ↦ 0, [], []⟩ := by
  constructor <;> simp [Peripheral.new, HasEvent, Requested]

theorem cancel (hc : Carries h log) (mailboxes : TxMailboxSet) :
    Carries (h.cancel mailboxes) log where
  __ := hc

theorem send (hc : Carries h log) (hm : h.Requested m) (timestamp : BitVec 16) :
    Carries (h.send m timestamp) { log with bus := log.bus ++ [log.mailbox m] } := by
  have hmarker := hc.marker m hm.1
  have hevent : ¬ h.HasEvent m := fun hcontra ↦ (hc.hasEvent m hcontra).1 hm
  have hevents : (h.send m timestamp).events.map TxEvent.marker =
      h.events.map TxEvent.marker ++ [m.intoU8] := by
    simp [Peripheral.send, hmarker]
  have hrequested : ∀ m', (h.send m timestamp).Requested m' ↔ h.Requested m' ∧ m ≠ m' := by
    intro m'
    simp [Peripheral.send, Requested, and_assoc]
  constructor
  · intro m' hm'
    simp only [Peripheral.send, TxMailboxSet.contains_insert, Bool.or_eq_true,
      decide_eq_true_eq] at hm'
    rcases hm' with hm' | rfl
    · exact hc.sent m' hm'
    · exact hm.1
  · exact hc.marker
  · intro e he
    rcases List.mem_append.mp he with he | he
    · exact hc.events e he
    · rw [List.mem_singleton.mp he]
      exact ⟨m, hmarker⟩
  · rw [hevents]
    exact hc.nodup_events.append (List.nodup_singleton _) (List.disjoint_singleton.mpr hevent)
  · intro m' hm'
    rw [HasEvent, hevents, List.mem_append, List.mem_singleton] at hm'
    rw [hrequested]
    rcases hm' with hm' | hm'
    · obtain ⟨hnot, hbus⟩ := hc.hasEvent m' hm'
      exact ⟨fun hcontra ↦ hnot hcontra.1, List.mem_append_left _ hbus⟩
    · obtain rfl := TxMailboxIdx.intoU8_injective hm'
      exact ⟨fun hcontra ↦ hcontra.2 rfl, by simp⟩
  · exact hc.nodup_bus.append (List.nodup_singleton _)
      (List.disjoint_singleton.mpr (hc.requested m hm))
  · intro m' hm'
    obtain ⟨hm', hne⟩ := (hrequested m').mp hm'
    have hdistinct : log.mailbox m' ≠ log.mailbox m := fun hsame ↦
      hne (hc.distinct m' m hm'.1 hm.1 hsame).symm
    simp [hc.requested m' hm', hdistinct]
  · exact hc.distinct
  · intro n hn
    rcases List.mem_append.mp hn with hn | hn
    · exact hc.bus_lt n hn
    · rw [List.mem_singleton.mp hn]
      exact hc.mailbox_lt m hm.1
  · exact hc.mailbox_lt

theorem unpend (hc : Carries h log) (m : TxMailboxIdx) : Carries (h.unpend m) log := by
  have hpending : ∀ m', (h.unpend m).pending.contains m' = true → h.pending.contains m' = true :=
    fun _ hm' ↦ (pending_unpend hm').1
  constructor
  · intro m' hm'
    simp only [Peripheral.unpend, TxMailboxSet.contains_remove, Bool.and_eq_true,
      decide_eq_true_eq] at hm' ⊢
    exact ⟨hc.sent m' hm'.1, hm'.2⟩
  · exact fun m' hm' ↦ hc.marker m' (hpending m' hm')
  · exact hc.events
  · exact hc.nodup_events
  · intro m' hm'
    obtain ⟨hnot, hbus⟩ := hc.hasEvent m' hm'
    exact ⟨fun hcontra ↦ hnot (requested_unpend hcontra), hbus⟩
  · exact hc.nodup_bus
  · exact fun m' hm' ↦ hc.requested m' (requested_unpend hm')
  · exact fun m' m'' hm' hm'' ↦ hc.distinct m' m'' (hpending m' hm') (hpending m'' hm'')
  · exact hc.bus_lt
  · exact fun m' hm' ↦ hc.mailbox_lt m' (hpending m' hm')

/-- The oldest event is taken. -/
theorem pop {event : TxEvent} {events : List TxEvent} (hc : Carries h log)
    (hevents : h.events = event :: events) :
    ∃ m, event.marker = m.intoU8 ∧ h.HasEvent m ∧
      ¬ Peripheral.HasEvent { h with events := events } m ∧
      Carries { h with events := events } log := by
  have hmarkers : h.events.map TxEvent.marker = event.marker :: events.map TxEvent.marker := by
    rw [hevents, List.map_cons]
  have hnodup := hc.nodup_events
  rw [hmarkers, List.nodup_cons] at hnodup
  obtain ⟨m, hm⟩ := hc.events event (hevents ▸ List.mem_cons_self)
  refine ⟨m, hm, ?_, fun hcontra ↦ hnodup.1 (hm ▸ hcontra), ?_⟩
  · rw [HasEvent, hmarkers, hm]
    exact List.mem_cons_self
  · exact { hc with
      events := fun e he ↦ hc.events e (hevents ▸ List.mem_cons_of_mem event he)
      nodup_events := hnodup.2
      hasEvent := fun m' hm' ↦ hc.hasEvent m' <| by
        rw [HasEvent, hmarkers]
        exact List.mem_cons_of_mem _ hm' }

/-- A frame that was not sent, and is in no other mailbox, is put in one that is free. -/
theorem add {elem : TxBufferElement} {n : ℕ} (hc : Carries h log)
    (hpending : h.pending.contains m = false) (hevent : ¬ h.HasEvent m)
    (hmarker : (load elem.header.word1 0xFF#32 24).setWidth 8 = m.intoU8)
    (hbus : n ∉ log.bus) (hmailbox : ∀ m', h.pending.contains m' = true → log.mailbox m' ≠ n)
    (hlt : n < log.fetched.length) :
    Carries { h with
        elements := Function.update h.elements m elem
        pending := h.pending.insert m }
      { log with mailbox := Function.update log.mailbox m n } := by
  have hself : Function.update log.mailbox m n m = n := Function.update_self ..
  have hother : ∀ m', m' ≠ m → Function.update log.mailbox m n m' = log.mailbox m' :=
    fun m' hne ↦ Function.update_of_ne hne ..
  have hcases : ∀ m', (h.pending.insert m).contains m' = true →
      m' = m ∨ m' ≠ m ∧ h.pending.contains m' = true := by
    intro m' hm'
    by_cases heq : m' = m
    · exact .inl heq
    · exact .inr ⟨heq, by simpa [Ne.symm heq] using hm'⟩
  constructor
  · intro m' hm'
    simp [hc.sent m' hm']
  · intro m' hm'
    rw [Peripheral.marker]
    dsimp only
    rcases hcases m' hm' with rfl | ⟨hne, hm'⟩
    · rwa [Function.update_self]
    · rw [Function.update_of_ne hne]
      exact hc.marker m' hm'
  · exact hc.events
  · exact hc.nodup_events
  · intro m' hm'
    have hne : m' ≠ m := fun heq ↦ hevent (heq ▸ hm')
    obtain ⟨hnot, hm'⟩ := hc.hasEvent m' hm'
    refine ⟨fun hcontra ↦ ?_, ?_⟩
    · rcases hcases m' hcontra.1 with heq | ⟨-, hpending'⟩
      · exact hne heq
      · exact hnot ⟨hpending', hcontra.2⟩
    · dsimp only
      rwa [hother m' hne]
  · exact hc.nodup_bus
  · rintro m' ⟨hm', hsent⟩
    dsimp only at hm' ⊢
    rcases hcases m' hm' with rfl | ⟨hne, hm'⟩
    · rwa [hself]
    · rw [hother m' hne]
      exact hc.requested m' ⟨hm', hsent⟩
  · intro m' m'' hin' hin'' hsame
    dsimp only at hsame
    rcases hcases m' hin' with rfl | ⟨hne', hm'⟩ <;>
      rcases hcases m'' hin'' with rfl | ⟨hne'', hm''⟩
    · rfl
    · rw [hself, hother m'' hne''] at hsame
      exact absurd hsame.symm (hmailbox m'' hm'')
    · rw [hself, hother m' hne'] at hsame
      exact absurd hsame (hmailbox m' hm')
    · rw [hother m' hne', hother m'' hne''] at hsame
      exact hc.distinct m' m'' hm' hm'' hsame
  · exact hc.bus_lt
  · intro m' hm'
    dsimp only
    rcases hcases m' hm' with rfl | ⟨hne, hm'⟩
    · rwa [hself]
    · rw [hother m' hne]
      exact hc.mailbox_lt m' hm'

theorem fetch (hc : Carries h log) (frame : Frame) (number : Priority → ℕ) :
    Carries h { log with fetched := log.fetched ++ [frame], number := number } := by
  have hle : log.fetched.length ≤ (log.fetched ++ [frame]).length := by simp
  exact { hc with
    bus_lt := fun n hn ↦ (hc.bus_lt n hn).trans_le hle
    mailbox_lt := fun m hm ↦ (hc.mailbox_lt m hm).trans_le hle }

end Carries

/-! ## Frames -/

/-- The frame of a priority is in a mailbox, and in no other one.  If it was sent, the event was not
yet taken. -/
structure InMailbox (h : Peripheral) (log : Log) (m : TxMailboxIdx) (p : Priority) : Prop where
  number : log.mailbox m = log.number p
  alone : ∀ m', h.pending.contains m' = true → log.mailbox m' = log.number p → m' = m
  hasEvent : log.number p ∈ log.bus → h.HasEvent m

/-- The frame of a priority was not sent, and is in no mailbox. -/
structure Waits (h : Peripheral) (log : Log) (p : Priority) : Prop where
  unsent : log.number p ∉ log.bus
  absent : ∀ m, h.pending.contains m = true → log.mailbox m ≠ log.number p

/-- A frame is held by the runner, or was sent, or was dropped after its deadline. -/
def Accounted (frames : PriorityMap Frame) (log : Log) (n : ℕ) (frame : Frame) : Prop :=
  (∃ p, (frames.values p).isSome = true ∧ log.number p = n) ∨ n ∈ log.bus ∨
    ∃ now, (n, now) ∈ log.dropped ∧ frame.timestamp ≤ now

/-- What the variables of the runner say of the frames in a log. -/
structure Owns (recorded : MailboxPriorityMap) (frames : PriorityMap Frame)
    (loopBack : PrioritySet) (h : Peripheral) (log : Log) : Prop extends Carries h log where
  bijective : recorded.Bijective
  consistent : frames.Consistent
  forward : ∀ m p, recorded.forward m = some p → (frames.values p).isSome = true ∧
    loopBack.contains p = false ∧ InMailbox h log m p
  looped : ∀ p, loopBack.contains p = true → (frames.values p).isSome = true ∧
    log.number p ∈ log.bus
  waits : ∀ p, (frames.values p).isSome = true → loopBack.contains p = false →
    recorded.backward p = none → Waits h log p
  number_lt : ∀ p, (frames.values p).isSome = true → log.number p < log.fetched.length
  number_inj : ∀ p q, (frames.values p).isSome = true → (frames.values q).isSome = true →
    log.number p = log.number q → p = q
  held : ∀ p frame, frames.values p = some frame → loopBack.contains p = false →
    log.fetched[log.number p]? = some frame
  accounted : ∀ n frame, log.fetched[n]? = some frame → Accounted frames log n frame

namespace Owns

open Peripheral

variable {recorded : MailboxPriorityMap} {frames frames' : PriorityMap Frame}
  {loopBack loopBack' : PrioritySet} {h : Peripheral} {log : Log} {m : TxMailboxIdx} {p : Priority}

theorem new : Owns .new (.new Frame) .NONE .new ⟨[], fun _ ↦ 0, fun _ ↦ 0, [], []⟩ where
  toCarries := .new
  bijective := MailboxPriorityMap.bijective_new
  consistent := PriorityMap.consistent_new
  forward := by simp [MailboxPriorityMap.new]
  looped := by simp
  waits := by simp [PriorityMap.new]
  number_lt := by simp [PriorityMap.new]
  number_inj := by simp [PriorityMap.new]
  held := by simp [PriorityMap.new]
  accounted := by simp

theorem cancel (ho : Owns recorded frames loopBack h log) (mailboxes : TxMailboxSet) :
    Owns recorded frames loopBack (h.cancel mailboxes) log where
  __ := ho
  toCarries := ho.toCarries.cancel mailboxes
  forward := fun m p hm ↦
    have hforward := ho.forward m p hm
    ⟨hforward.1, hforward.2.1, { hforward.2.2 with }⟩
  waits := fun p hp hl hb ↦ { ho.waits p hp hl hb with }

theorem send (ho : Owns recorded frames loopBack h log) (hm : h.Requested m)
    (timestamp : BitVec 16) :
    Owns recorded frames loopBack (h.send m timestamp)
      { log with bus := log.bus ++ [log.mailbox m] } := by
  have hbus : ∀ n ∈ log.bus, n ∈ log.bus ++ [log.mailbox m] := fun n ↦ List.mem_append_left _
  have hevent : ∀ m', h.HasEvent m' → (h.send m timestamp).HasEvent m' := by
    intro m' hm'
    rw [HasEvent, Peripheral.send, List.map_append]
    exact List.mem_append_left _ hm'
  have hself : (h.send m timestamp).HasEvent m := by
    simp [HasEvent, Peripheral.send, ho.marker m hm.1]
  exact { ho with
    toCarries := ho.toCarries.send hm timestamp
    forward := fun m' p hm' ↦ by
      obtain ⟨hp, hl, hin⟩ := ho.forward m' p hm'
      refine ⟨hp, hl, hin.number, hin.alone, fun hn ↦ ?_⟩
      rcases List.mem_append.mp hn with hn | hn
      · exact hevent m' (hin.hasEvent hn)
      · rw [← hin.alone m hm.1 (List.mem_singleton.mp hn).symm]
        exact hself
    looped := fun p hl ↦ (ho.looped p hl).imp_right (hbus _)
    waits := fun p hp hl hb ↦ by
      have hwaits := ho.waits p hp hl hb
      refine ⟨fun hn ↦ ?_, hwaits.absent⟩
      rcases List.mem_append.mp hn with hn | hn
      · exact hwaits.unsent hn
      · exact hwaits.absent m hm.1 (List.mem_singleton.mp hn).symm
    accounted := fun n frame hn ↦ (ho.accounted n frame hn).imp_right (Or.imp_left (hbus n)) }

theorem unpend (ho : Owns recorded frames loopBack h log) (m : TxMailboxIdx) :
    Owns recorded frames loopBack (h.unpend m) log := by
  have hpending : ∀ m', (h.unpend m).pending.contains m' = true → h.pending.contains m' = true :=
    fun _ hm' ↦ (pending_unpend hm').1
  exact { ho with
    toCarries := ho.toCarries.unpend m
    forward := fun m' p hm' ↦ by
      obtain ⟨hp, hl, hin⟩ := ho.forward m' p hm'
      exact ⟨hp, hl, hin.number, fun m'' hm'' ↦ hin.alone m'' (hpending m'' hm''), hin.hasEvent⟩
    waits := fun p hp hl hb ↦
      have hwaits := ho.waits p hp hl hb
      ⟨hwaits.unsent, fun m' hm' ↦ hwaits.absent m' (hpending m' hm')⟩ }

/-- The event of a mailbox that is not recorded is taken. -/
theorem pop {event : TxEvent} {events : List TxEvent} (ho : Owns recorded frames loopBack h log)
    (hevents : h.events = event :: events) (hmarker : event.marker = m.intoU8)
    (hm : recorded.forward m = none) :
    Owns recorded frames loopBack { h with events := events } log := by
  obtain ⟨-, -, -, -, hcarries⟩ := ho.toCarries.pop hevents
  exact { ho with
    toCarries := hcarries
    forward := fun m' p hm' ↦ by
      obtain ⟨hp, hl, hin⟩ := ho.forward m' p hm'
      refine ⟨hp, hl, hin.number, hin.alone, fun hn ↦ ?_⟩
      have hevent := hin.hasEvent hn
      rw [HasEvent, hevents, List.map_cons, List.mem_cons, hmarker] at hevent
      refine hevent.resolve_left fun heq ↦ ?_
      rw [TxMailboxIdx.intoU8_injective heq, hm] at hm'
      cases hm'
    waits := fun p hp hl hb ↦ { ho.waits p hp hl hb with } }

/-- A mailbox that is not pending, and has no event, has not sent its frame. -/
theorem release (ho : Owns recorded frames loopBack h log) (hpending : h.pending.contains m = false)
    (hevent : ¬ h.HasEvent m) :
    Owns (recorded.removeByMailbox m).2 frames loopBack h log := by
  cases hentry : recorded.forward m with
  | none => rwa [MailboxPriorityMap.removeByMailbox_of_none hentry]
  | some p =>
    rw [ho.bijective.removeByMailbox_of_some hentry]
    exact { ho with
      bijective := ho.bijective.removeByPriority p
      forward := fun m' q hm' ↦ ho.forward m' q (ho.bijective.removeByPriority_forward.mp hm').1
      waits := fun q hq hl hb ↦ by
        rw [MailboxPriorityMap.removeByPriority_backward] at hb
        split at hb
        · rename_i hqp
          subst hqp
          obtain ⟨-, -, hin⟩ := ho.forward m q hentry
          refine ⟨fun hn ↦ hevent (hin.hasEvent hn), fun m' hm' hn ↦ ?_⟩
          rw [hin.alone m' hm' hn, hpending] at hm'
          cases hm'
        · exact ho.waits q hq hl hb }

/-- A frame that waits is put in a mailbox that is free. -/
theorem add {elem : TxBufferElement} (ho : Owns recorded frames loopBack h log)
    (hpending : h.pending.contains m = false) (hevent : ¬ h.HasEvent m)
    (hforward : recorded.forward m = none)
    (hmarker : (load elem.header.word1 0xFF#32 24).setWidth 8 = m.intoU8)
    (hp : (frames.values p).isSome = true) (hl : loopBack.contains p = false)
    (hbackward : recorded.backward p = none) :
    Owns (recorded.extend m p) frames loopBack
      { h with
        elements := Function.update h.elements m elem
        pending := h.pending.insert m }
      { log with mailbox := Function.update log.mailbox m (log.number p) } := by
  have hwaits := ho.waits p hp hl hbackward
  have hself : Function.update log.mailbox m (log.number p) m = log.number p :=
    Function.update_self ..
  have hother : ∀ m', m' ≠ m → Function.update log.mailbox m (log.number p) m' = log.mailbox m' :=
    fun m' hne ↦ Function.update_of_ne hne ..
  have hcases : ∀ m', (h.pending.insert m).contains m' = true →
      m' = m ∨ m' ≠ m ∧ h.pending.contains m' = true := by
    intro m' hm'
    by_cases heq : m' = m
    · exact .inl heq
    · exact .inr ⟨heq, by simpa [Ne.symm heq] using hm'⟩
  exact { ho with
    toCarries := ho.toCarries.add hpending hevent hmarker hwaits.unsent hwaits.absent
      (ho.number_lt p hp)
    bijective := ho.bijective.extend hforward hbackward
    forward := fun m' q hm' ↦ by
      rw [MailboxPriorityMap.extend_forward] at hm'
      split at hm'
      · rename_i hsame
        subst hsame
        cases hm'
        refine ⟨hp, hl, hself, fun m'' hm'' hn ↦ ?_, fun hn ↦ absurd hn hwaits.unsent⟩
        dsimp only at hm'' hn
        rcases hcases m'' hm'' with heq | ⟨hne, hm''⟩
        · exact heq
        · rw [hother m'' hne] at hn
          exact absurd hn (hwaits.absent m'' hm'')
      · rename_i hne
        obtain ⟨hq, hlq, hin⟩ := ho.forward m' q hm'
        refine ⟨hq, hlq, (hother m' hne).trans hin.number, fun m'' hm'' hn ↦ ?_, hin.hasEvent⟩
        dsimp only at hm'' hn
        rcases hcases m'' hm'' with rfl | ⟨hne', hm''⟩
        · rw [hself] at hn
          have hpq := ho.number_inj p q hp hq hn
          rw [hpq, (ho.bijective m' q).mp hm'] at hbackward
          cases hbackward
        · rw [hother m'' hne'] at hn
          exact hin.alone m'' hm'' hn
    waits := fun q hq hlq hb ↦ by
      rw [MailboxPriorityMap.extend_backward] at hb
      split at hb
      · cases hb
      · rename_i hne
        have hwaits' := ho.waits q hq hlq hb
        refine ⟨hwaits'.unsent, fun m' hm' hn ↦ ?_⟩
        dsimp only at hm' hn
        rcases hcases m' hm' with rfl | ⟨hne', hm'⟩
        · rw [hself] at hn
          exact hne (ho.number_inj p q hp hq hn).symm
        · rw [hother m' hne'] at hn
          exact hwaits'.absent m' hm' hn }

/-- A frame that was sent, or is dropped, does not wait any more. -/
theorem settle (ho : Owns recorded frames loopBack h log) (hp : (frames.values p).isSome = true)
    (hconsistent : frames'.Consistent) (hframes : ∀ q, q ≠ p → frames'.values q = frames.values q)
    (hloopBack : ∀ q, q ≠ p → loopBack'.contains q = loopBack.contains q)
    (hout : loopBack'.contains p = true ∧ (frames'.values p).isSome = true ∧
        log.number p ∈ log.bus ∨
      loopBack'.contains p = false ∧ frames'.values p = none)
    (hsettled : log.number p ∈ log.bus ∨ ∀ frame, log.fetched[log.number p]? = some frame →
      ∃ now, (log.number p, now) ∈ log.dropped ∧ frame.timestamp ≤ now) :
    Owns (recorded.removeByPriority p).2 frames' loopBack' h log := by
  have hsome : ∀ q, (frames'.values q).isSome = true → (frames.values q).isSome = true := by
    intro q hq
    by_cases heq : q = p
    · exact heq ▸ hp
    · rwa [hframes q heq] at hq
  have hloop : ∀ q, (frames'.values q).isSome = true → loopBack'.contains q = false → q ≠ p := by
    rintro q hq hl rfl
    rcases hout with ⟨hl', -, -⟩ | ⟨-, hnone⟩
    · rw [hl] at hl'
      cases hl'
    · rw [hnone] at hq
      cases hq
  exact {
    toCarries := ho.toCarries
    bijective := ho.bijective.removeByPriority p
    consistent := hconsistent
    forward := fun m q hm ↦ by
      obtain ⟨hm, hne⟩ := ho.bijective.removeByPriority_forward.mp hm
      obtain ⟨hq, hl, hin⟩ := ho.forward m q hm
      exact ⟨by rwa [hframes q hne], by rwa [hloopBack q hne], hin⟩
    looped := fun q hl ↦ by
      by_cases heq : q = p
      · subst heq
        rcases hout with ⟨-, hlooped⟩ | ⟨hl', -⟩
        · exact hlooped
        · rw [hl] at hl'
          cases hl'
      · rw [hloopBack q heq] at hl
        rw [hframes q heq]
        exact ho.looped q hl
    waits := fun q hq hl hb ↦ by
      have hne := hloop q hq hl
      rw [MailboxPriorityMap.removeByPriority_backward, if_neg hne] at hb
      rw [hframes q hne] at hq
      rw [hloopBack q hne] at hl
      exact ho.waits q hq hl hb
    number_lt := fun q hq ↦ ho.number_lt q (hsome q hq)
    number_inj := fun q q' hq hq' ↦ ho.number_inj q q' (hsome q hq) (hsome q' hq')
    held := fun q frame hq hl ↦ by
      have hne := hloop q (by rw [hq]; rfl) hl
      rw [hframes q hne] at hq
      rw [hloopBack q hne] at hl
      exact ho.held q frame hq hl
    accounted := fun n frame hn ↦ by
      rcases ho.accounted n frame hn with ⟨q, hq, hqn⟩ | hother
      · by_cases heq : q = p
        · subst heq hqn
          exact .inr (hsettled.imp_right fun hdropped ↦ hdropped frame hn)
        · exact .inl ⟨q, by rwa [hframes q heq], hqn⟩
      · exact .inr hother }

theorem drop (ho : Owns recorded frames loopBack h log) (entry : ℕ × Instant) :
    Owns recorded frames loopBack h { log with dropped := log.dropped ++ [entry] } where
  __ := ho
  toCarries := { ho.toCarries with }
  forward := fun m p hm ↦
    have hforward := ho.forward m p hm
    ⟨hforward.1, hforward.2.1, { hforward.2.2 with }⟩
  waits := fun p hp hl hb ↦ { ho.waits p hp hl hb with }
  accounted := fun n frame hn ↦ (ho.accounted n frame hn).imp_right
    (Or.imp_right fun ⟨now, hmem, hle⟩ ↦ ⟨now, List.mem_append_left _ hmem, hle⟩)

theorem fetch {frame : Frame} (ho : Owns recorded frames loopBack h log)
    (hfree : frames.values p = none) :
    Owns recorded (frames.insert p frame).2 loopBack h { log with
      fetched := log.fetched ++ [frame]
      number := Function.update log.number p log.fetched.length } := by
  have hself : Function.update log.number p log.fetched.length p = log.fetched.length :=
    Function.update_self ..
  have hother : ∀ q, q ≠ p → Function.update log.number p log.fetched.length q = log.number q :=
    fun q hne ↦ Function.update_of_ne hne ..
  have hvalues : ∀ q, q ≠ p → (frames.insert p frame).2.values q = frames.values q :=
    fun q hne ↦ Function.update_of_ne hne ..
  have hcases : ∀ q, ((frames.insert p frame).2.values q).isSome = true →
      q = p ∨ q ≠ p ∧ (frames.values q).isSome = true := by
    intro q hq
    by_cases heq : q = p
    · exact .inl heq
    · exact .inr ⟨heq, by rwa [hvalues q heq] at hq⟩
  have hne : ∀ q, (frames.values q).isSome = true → q ≠ p := by
    rintro q hq rfl
    rw [hfree] at hq
    cases hq
  have hfetched : ∀ n < log.fetched.length, (log.fetched ++ [frame])[n]? = log.fetched[n]? :=
    fun n hn ↦ List.getElem?_append_left hn
  exact {
    toCarries := ho.toCarries.fetch frame _
    bijective := ho.bijective
    consistent := ho.consistent.insert p frame
    forward := fun m q hm ↦ by
      obtain ⟨hq, hl, hin⟩ := ho.forward m q hm
      have hsame := hother q (hne q hq)
      refine ⟨by rwa [hvalues q (hne q hq)], hl, ?_⟩
      exact ⟨hin.number.trans hsame.symm, fun m' hm' hn ↦ hin.alone m' hm' (hn.trans hsame),
        fun hn ↦ hin.hasEvent (hsame ▸ hn)⟩
    looped := fun q hl ↦ by
      obtain ⟨hq, hn⟩ := ho.looped q hl
      refine ⟨by rwa [hvalues q (hne q hq)], ?_⟩
      dsimp only
      rwa [hother q (hne q hq)]
    waits := fun q hq hl hb ↦ by
      rcases hcases q hq with rfl | ⟨hqp, hq⟩
      · refine ⟨fun hn ↦ ?_, fun m hm hn ↦ ?_⟩
        · exact absurd (ho.bus_lt _ (hself ▸ hn)) (lt_irrefl _)
        · exact absurd (ho.mailbox_lt m hm) (hn.trans hself).ge.not_gt
      · have hwaits := ho.waits q hq hl hb
        have hsame := hother q hqp
        exact ⟨fun hn ↦ hwaits.unsent (hsame ▸ hn), fun m hm hn ↦
          hwaits.absent m hm (hn.trans hsame)⟩
    number_lt := fun q hq ↦ by
      dsimp only
      rw [List.length_append, List.length_singleton]
      rcases hcases q hq with rfl | ⟨hqp, hq⟩
      · rw [hself]
        exact Nat.lt_succ_self _
      · rw [hother q hqp]
        exact (ho.number_lt q hq).trans (Nat.lt_succ_self _)
    number_inj := fun q q' hq hq' hn ↦ by
      dsimp only at hn
      rcases hcases q hq with rfl | ⟨hqp, hin⟩ <;> rcases hcases q' hq' with rfl | ⟨hqp', hin'⟩
      · rfl
      · rw [hself, hother q' hqp'] at hn
        exact absurd (ho.number_lt q' hin') hn.le.not_gt
      · rw [hself, hother q hqp] at hn
        exact absurd (ho.number_lt q hin) hn.ge.not_gt
      · rw [hother q hqp, hother q' hqp'] at hn
        exact ho.number_inj q q' hin hin' hn
    held := fun q frame' hq hl ↦ by
      dsimp only
      by_cases heq : q = p
      · subst heq
        rw [PriorityMap.insert] at hq
        dsimp only at hq
        rw [Function.update_self] at hq
        rw [hself, ← hq]
        exact List.getElem?_concat_length
      · rw [hvalues q heq] at hq
        have hsome : (frames.values q).isSome = true := by rw [hq]; rfl
        rw [hother q heq, hfetched _ (ho.number_lt q hsome)]
        exact ho.held q frame' hq hl
    accounted := fun n frame' hn ↦ by
      dsimp only at hn
      by_cases hlt : n < log.fetched.length
      · rw [hfetched n hlt] at hn
        rcases ho.accounted n frame' hn with ⟨q, hq, hqn⟩ | hsettled
        · refine .inl ⟨q, by rwa [hvalues q (hne q hq)], ?_⟩
          exact (hother q (hne q hq)).trans hqn
        · exact .inr hsettled
      · have hlt' := (List.getElem?_eq_some_iff.mp hn).1
        rw [List.length_append, List.length_singleton] at hlt'
        refine .inl ⟨p, ?_, ?_⟩
        · rw [PriorityMap.insert]
          dsimp only
          rw [Function.update_self]
          rfl
        · dsimp only
          rw [hself]
          omega }

end Owns

end Emcyphal.Can.Native
