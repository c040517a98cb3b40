import Emcyphal.Rx.Fifo

/-!
# One reassembler for each node

A bounded session table behaves as if each node had a `Gather` of its own, as long as frames are
received in the order of their timestamps.  Two facts make that work.  The session queue is sorted
by the last start of transfer, so the session that is given up is one that is given up last.  And a
session is given up only when it has expired: from then on no frame continues its reassembly, so a
reassembly that starts anew is told apart by nobody (`Alike`).
-/

set_option autoImplicit false

namespace Emcyphal

open Rust

/-! ## Reassemblies that cannot be told apart -/

namespace Reassembly

variable {timeout : Duration} {now now' : Instant} {a b : Reassembly} {call : Call}

theorem Expired.mono (h : a.Expired timeout now) (hle : now ≤ now') : a.Expired timeout now' :=
  fun sof hsof ↦ (h sof hsof).trans_le hle

theorem expired_idle (timeout : Duration) (now : Instant) :
    Reassembly.Expired .idle timeout now := fun sof hsof ↦ by cases hsof

theorem expired_stop (h : a.Expired timeout now) : Reassembly.Expired a.stop timeout now := by
  rwa [Expired, Phase.sof?_stop]

theorem isCurrent_of_expired (h : a.Expired timeout now) (tid : TransferId) :
    a.isCurrent timeout tid now = false := by
  cases a with
  | idle | idleLast => rfl
  | running _ sof | assembled sof =>
    exact Bool.and_eq_false_iff.mpr (.inr (decide_eq_false (not_le.mpr (h sof rfl))))

/-- From `now` on nobody can tell them apart: they are the same, or both have expired. -/
def Alike (timeout : Duration) (now : Instant) (a b : Reassembly) : Prop :=
  a = b ∨ a.Expired timeout now ∧ b.Expired timeout now

theorem Alike.mono (h : Alike timeout now a b) (hle : now ≤ now') : Alike timeout now' a b :=
  h.imp_right fun ⟨ha, hb⟩ ↦ ⟨ha.mono hle, hb.mono hle⟩

/-- A frame that does not belong to the reassembly. -/
theorem push_of_not_current {tail : TailByte} {segment : Segment}
    (h : a.isCurrent timeout segment.transferId segment.timestamp = false) :
    a.push timeout tail segment =
      if tail.sot then
        if tail.toggle = SOT_TOGGLE_BIT then
          if tail.eot then
            (some (⟨segment.transferId, segment.priority, segment.timestamp,
              segment.payload.length⟩, segment.payload),
              .assembled segment.timestamp segment.transferId)
          else (none, start a segment)
        else (none, a.stop)
      else (none, a.stop) := by
  unfold push
  simp only [h, Bool.and_false, Bool.false_eq_true, if_false]

/-- A frame tells nobody apart either. -/
theorem pushCall_alike (h : Alike timeout call.timestamp a b) :
    (a.pushCall timeout call).2 = (b.pushCall timeout call).2 ∧
      Alike timeout call.timestamp (a.pushCall timeout call).1 (b.pushCall timeout call).1 := by
  rcases h with rfl | ⟨ha, hb⟩
  · exact ⟨rfl, .inl rfl⟩
  · have hstop : Alike timeout call.timestamp a.stop b.stop :=
      .inr ⟨expired_stop ha, expired_stop hb⟩
    rw [pushCall, pushCall]
    cases call.tail? with
    | none => exact ⟨rfl, .inr ⟨ha, hb⟩⟩
    | some tail =>
      dsimp only
      rw [push_of_not_current (isCurrent_of_expired ha _), push_of_not_current
        (isCurrent_of_expired hb _)]
      split
      · split
        · split
          · exact ⟨rfl, .inl rfl⟩
          · rw [start, start]
            split
            · exact ⟨rfl, hstop⟩
            · exact ⟨rfl, .inl rfl⟩
        · exact ⟨rfl, hstop⟩
      · exact ⟨rfl, hstop⟩

end Reassembly

/-! ## The order of the sessions -/

namespace Tracked

/-- The last start of transfer, if any, was not after that of the other. -/
def NotAfter (e e' : Tracked) : Prop :=
  ∀ sof, e.state.sof? = some sof → ∃ sof', e'.state.sof? = some sof' ∧ sof ≤ sof'

end Tracked

open SessionTable

/-- Each session is that of a reassembly that sees all frames of the node, up to what nobody can
tell; and a node without a session has nothing to lose. -/
structure PerNode (timeout : Duration) (now : Instant) (l : List Tracked)
    (reassemblies : NodeId → Reassembly) : Prop where
  sorted : l.Pairwise Tracked.NotAfter
  notLater : ∀ e ∈ l, ∀ sof, e.state.sof? = some sof → sof ≤ now
  tracked : ∀ e ∈ l, Reassembly.Alike timeout now e.state (reassemblies e.node)
  untracked : ∀ k, k ∉ l.map Tracked.node → (reassemblies k).Expired timeout now

variable {SN capacity : ℕ} {timeout : Duration} {now now' : Instant} {l l' as bs : List Tracked}
  {e e' : Tracked} {reassemblies : NodeId → Reassembly} {source : NodeId} {sot : Bool}

theorem perNode_nil (timeout : Duration) (now : Instant) :
    PerNode timeout now [] fun _ ↦ .idle where
  sorted := .nil
  notLater := by simp
  tracked := by simp
  untracked _ _ := Reassembly.expired_idle timeout now

theorem PerNode.mono (h : PerNode timeout now l reassemblies) (hle : now ≤ now') :
    PerNode timeout now' l reassemblies where
  sorted := h.sorted
  notLater e he sof hsof := (h.notLater e he sof hsof).trans hle
  tracked e he := (h.tracked e he).mono hle
  untracked k hk := (h.untracked k hk).mono hle

/-- A new session in front. -/
theorem PerNode.cons_new (h : PerNode timeout now l reassemblies)
    (hsource : (reassemblies source).Expired timeout now) (idx : ℕ) :
    PerNode timeout now (.new source idx :: l) reassemblies where
  sorted := List.pairwise_cons.mpr ⟨fun _ _ sof hsof ↦ (by cases hsof), h.sorted⟩
  notLater := List.forall_mem_cons.mpr ⟨fun sof hsof ↦ (by cases hsof), h.notLater⟩
  tracked := List.forall_mem_cons.mpr ⟨.inr ⟨Reassembly.expired_idle timeout now, hsource⟩,
    h.tracked⟩
  untracked k hk := h.untracked k fun hmem ↦ hk (List.mem_cons_of_mem _ hmem)

/-- An expired session can be given up. -/
theorem PerNode.of_cons (h : PerNode timeout now (e :: l) reassemblies)
    (hexpired : e.state.Expired timeout now) : PerNode timeout now l reassemblies where
  sorted := (List.pairwise_cons.mp h.sorted).2
  notLater e' he' := h.notLater e' (List.mem_cons_of_mem e he')
  tracked e' he' := h.tracked e' (List.mem_cons_of_mem e he')
  untracked k hk := by
    by_cases hke : k = e.node
    · subst hke
      rcases h.tracked e List.mem_cons_self with heq | ⟨-, hother⟩
      · exact heq ▸ hexpired
      · exact hother
    · exact h.untracked k fun hmem ↦ (List.mem_cons.mp hmem).elim hke hk

/-- A frame finds its session in order. -/
theorem Admits.perNode (ha : Admits SN timeout source sot now l l')
    (h : PerNode timeout now l reassemblies) : PerNode timeout now l' reassemblies := by
  cases ha with
  | tracked | notStart => exact h
  | start hnew _ hs =>
    cases hs with
    | fresh => exact h.cons_new (h.untracked source hnew) _
    | evict _ hexpired =>
      exact (h.of_cons hexpired).cons_new (h.untracked source hnew) _
    | refuse => exact h

/-- A session that has not expired is kept. -/
theorem Admits.mem (ha : Admits SN timeout source sot now l l') (he : e ∈ l)
    (hexpired : ¬ e.state.Expired timeout now) : e ∈ l' := by
  cases ha with
  | tracked | notStart => exact he
  | start _ _ hs =>
    cases hs with
    | fresh => exact List.mem_cons_of_mem _ he
    | evict _ hexpired' =>
      refine List.mem_cons_of_mem _ ((List.mem_cons.mp he).resolve_left fun heq ↦ ?_)
      exact hexpired (heq ▸ hexpired')
    | refuse => exact he

/-- A session that is started anew goes to the end of the queue, where it belongs. -/
theorem sorted_requeue (h : (as ++ e :: bs).Pairwise Tracked.NotAfter)
    (hlater : ∀ e'' ∈ as ++ e :: bs, ∀ sof, e''.state.sof? = some sof → sof ≤ now)
    (he' : e'.state.sof? = e.state.sof? ∨ e'.state.sof? = some now) :
    (requeue now as bs e').Pairwise Tracked.NotAfter := by
  obtain ⟨has, hbs, hab⟩ := List.pairwise_append.mp h
  obtain ⟨heb, hbs⟩ := List.pairwise_cons.mp hbs
  rw [requeue]
  split
  · rename_i hsof
    refine List.pairwise_append.mpr ⟨List.pairwise_append.mpr ⟨has, hbs, fun x hx y hy ↦
      hab x hx y (List.mem_cons_of_mem e hy)⟩, List.pairwise_singleton _ _, fun x hx y hy ↦ ?_⟩
    rw [List.mem_singleton.mp hy]
    have hx' : x ∈ as ++ e :: bs := by
      rw [List.mem_append, List.mem_cons]
      exact (List.mem_append.mp hx).imp_right .inr
    exact fun sof hx ↦ ⟨now, hsof, hlater x hx' sof hx⟩
  · rename_i hsof
    have hsame := he'.resolve_right hsof
    refine List.pairwise_append.mpr ⟨has, List.pairwise_cons.mpr ⟨fun y hy sof hx ↦ ?_, hbs⟩,
      fun x hx y hy ↦ ?_⟩
    · exact heb y hy sof (hsame ▸ hx)
    · rcases List.mem_cons.mp hy with rfl | hy
      · intro sof hx'
        rw [hsame]
        exact hab x hx e List.mem_cons_self sof hx'
      · exact hab x hx y (List.mem_cons_of_mem e hy)

/-- A frame is a step of the session and of the reassembly that sees all frames, with the same
delivery. -/
theorem PerNode.push (h : PerNode timeout now (as ++ e :: bs) reassemblies)
    (hnodup : ((as ++ e :: bs).map Tracked.node).Nodup) {call : Call} (hcall : call.timestamp = now)
    (hnode : e'.node = e.node) (hstate : e'.state = (e.state.pushCall timeout call).1) :
    (e.state.pushCall timeout call).2 = ((reassemblies e.node).pushCall timeout call).2 ∧
      PerNode timeout now (requeue now as bs e')
        (Function.update reassemblies e.node ((reassemblies e.node).pushCall timeout call).1) := by
  subst hcall
  obtain ⟨hout, halike⟩ := Reassembly.pushCall_alike (h.tracked e (by simp))
  have hsof := hstate ▸ Reassembly.sof?_pushCall timeout e.state call
  have hmem : ∀ x, x ∈ requeue call.timestamp as bs e' → x = e' ∨ x ∈ as ++ bs := fun x hx ↦
    List.mem_cons.mp (List.perm_middle.mem_iff.mp ((requeue_perm _ as bs e').mem_iff.mp hx))
  have hother : ∀ x, x ∈ as ++ bs → x ∈ as ++ e :: bs := fun x hx ↦
    List.perm_middle.mem_iff.mpr (List.mem_cons_of_mem e hx)
  rw [List.map_append, List.map_cons, List.nodup_middle, ← List.map_append,
    List.nodup_cons] at hnodup
  refine ⟨hout, sorted_requeue h.sorted h.notLater hsof, fun x hx sof hx' ↦ ?_, fun x hx ↦ ?_,
    fun k hk ↦ ?_⟩
  · rcases hmem x hx with rfl | hx
    · rcases hsof with hsame | hnew
      · exact h.notLater e (by simp) sof (hsame ▸ hx')
      · rw [hnew] at hx'
        exact (Option.some.inj hx').ge
    · exact h.notLater x (hother x hx) sof hx'
  · rcases hmem x hx with rfl | hx
    · rw [hnode, Function.update_self, hstate]
      exact halike
    · have hne : x.node ≠ e.node := fun heq ↦ hnodup.1 (heq ▸ List.mem_map_of_mem hx)
      rw [Function.update_of_ne hne]
      exact h.tracked x (hother x hx)
  · have hk' : k ∉ (as ++ e :: bs).map Tracked.node := by
      rw [((requeue_perm call.timestamp as bs e').map _).mem_iff] at hk
      simpa [hnode] using hk
    have hne : k ≠ e.node := fun heq ↦ hk' (heq ▸ List.mem_map_of_mem (by simp))
    rw [Function.update_of_ne hne]
    exact h.untracked k hk'

/-! ## Histories of a node -/

/-- The frames of a node that were given to its session, and what they completed. -/
def receivedFrom (source : NodeId) (events : List Event) : List (Call × Option Delivery) :=
  events.filterMap fun
    | .pushed _ (.regular node call delivery) => if node = source then some (call, delivery) else
      none
    | _ => none

/-- When the frame of an operation is received. -/
def Op.stamp? : Op → Option Instant
  | .pushFrame frame => some frame.timestamp
  | _ => none

def Event.stamp? : Event → Option Instant
  | .pushed frame _ => some frame.timestamp
  | _ => none

/-- When the frames of a history were received. -/
def stamps (events : List Event) : List Instant := events.filterMap Event.stamp?

/-- A reassembly of its own has delivered the same, as far as the buffers have room for it. -/
structure Replays (timeout : Duration) (capacity : ℕ) (history : List (Call × Option Delivery))
    (r : Reassembly) : Prop where
  reaches : (runTotal (Reassembly.pushCall timeout) .idle (history.map Prod.fst)).1 = r
  delivers : history.map Prod.snd =
    (runTotal (Reassembly.pushCall timeout) .idle (history.map Prod.fst)).2.map
      (Option.map (Reassembly.truncate capacity))
  short : ∀ p ∈ history, p.1.payload.length < 2 ^ 32

theorem Replays.concat {history : List (Call × Option Delivery)} {r : Reassembly}
    (h : Replays timeout capacity history r) {call : Call} (hshort : call.payload.length < 2 ^ 32) :
    Replays timeout capacity
      (history ++ [(call, (r.pushCall timeout call).2.map (Reassembly.truncate capacity))])
      (r.pushCall timeout call).1 where
  reaches := by rw [List.map_append, List.map_singleton, runTotal_concat, h.reaches]
  delivers := by
    rw [List.map_append, List.map_append, List.map_singleton, List.map_singleton, runTotal_concat,
      List.map_append, h.delivers, h.reaches]
    rfl
  short p hp := (List.mem_append.mp hp).elim (h.short p) fun hp ↦ List.mem_singleton.mp hp ▸ hshort

/-- The same run of the code, with a buffer of its own. -/
theorem Replays.run_eq {history : List (Call × Option Delivery)} {r : Reassembly}
    (h : Replays timeout capacity history r) {buffer : List Byte}
    (hbuffer : buffer.length = capacity) :
    ∃ s, run (Gather.step timeout) (Gather.default, buffer) (history.map Prod.fst) =
      .ok (s, history.map Prod.snd) := by
  subst hbuffer
  obtain ⟨s, hrun, -⟩ := (Reassembly.step_represents timeout buffer.length).run_ok
    (Reassembly.represents_default buffer) (List.forall_mem_map.mpr h.short)
  exact ⟨s, by rw [hrun, ← h.delivers]⟩

theorem stamps_pushed (events : List Event) (frame : Frame) (reception : Reception) :
    stamps (events ++ [.pushed frame reception]) = stamps events ++ [frame.timestamp] := by
  rw [stamps, List.filterMap_append]
  rfl

theorem receivedFrom_regular (events : List Event) (frame : Frame) (node source : NodeId)
    (call : Call) (delivery : Option Delivery) :
    receivedFrom source (events ++ [.pushed frame (.regular node call delivery)]) =
      if node = source then receivedFrom source events ++ [(call, delivery)]
      else receivedFrom source events := by
  rw [receivedFrom, List.filterMap_append]
  split <;> simp_all [receivedFrom]

theorem receivedFrom_of_not_regular (events : List Event) {event : Event}
    (h : ∀ frame node call delivery, event ≠ .pushed frame (.regular node call delivery))
    (source : NodeId) : receivedFrom source (events ++ [event]) = receivedFrom source events := by
  rw [receivedFrom, List.filterMap_append, receivedFrom]
  cases event with
  | pushed frame reception =>
    cases reception with
    | regular node call delivery => exact absurd rfl (h frame node call delivery)
    | ignored | anonymous => simp
  | popped | polled => simp

/-- After this history, there is a reassembly for each node that the sessions cannot be told apart
from, whatever the time is. -/
def Independent (timeout : Duration) (capacity : ℕ) (events : List Event) (l : List Tracked) :
    Prop :=
  ∃ reassemblies : NodeId → Reassembly,
    (∀ k, Replays timeout capacity (receivedFrom k events) (reassemblies k)) ∧
      ∀ now, (∀ t ∈ stamps events, t ≤ now) → PerNode timeout now l reassemblies

theorem independent_nil (timeout : Duration) (capacity : ℕ) : Independent timeout capacity [] [] :=
  ⟨fun _ ↦ .idle, fun _ ↦ ⟨rfl, rfl, by simp [receivedFrom]⟩, fun now _ ↦ perNode_nil timeout now⟩

/-- A frame keeps the reassemblies of all nodes apart. -/
theorem Independent.handles {dataSpecifier : DataSpecifier} {frame : Frame} {reception : Reception}
    {events : List Event} (h : Independent timeout capacity events l)
    (hh : Handles SN capacity dataSpecifier timeout frame l l' reception)
    (hnodup : (l'.map Tracked.node).Nodup)
    (hnow : ∀ t ∈ stamps events, t ≤ frame.timestamp) :
    Independent timeout capacity (events ++ [.pushed frame reception]) l' := by
  obtain ⟨reassemblies, hreplays, hper⟩ := h
  have hper₁ := hper frame.timestamp hnow
  have hle : ∀ now, (∀ t ∈ stamps (events ++ [.pushed frame reception]), t ≤ now) →
      frame.timestamp ≤ now := fun now h ↦ h _ (by rw [stamps_pushed]; simp)
  cases hh with
  | foreign =>
    refine ⟨reassemblies, fun k ↦ ?_, fun now h ↦ hper₁.mono (hle now h)⟩
    rw [receivedFrom_of_not_regular events (by simp)]
    exact hreplays k
  | anonymous _ hreception =>
    refine ⟨reassemblies, fun k ↦ ?_, fun now h ↦ hper₁.mono (hle now h)⟩
    rw [receivedFrom_of_not_regular events fun _ node call delivery heq ↦
      hreception node call delivery (Event.pushed.inj heq).2]
    exact hreplays k
  | dropped _ hadmits =>
    refine ⟨reassemblies, fun k ↦ ?_, fun now h ↦ (hadmits.perNode hper₁).mono (hle now h)⟩
    rw [receivedFrom_of_not_regular events (by simp)]
    exact hreplays k
  | @regular as bs e e' source _ hadmits he he' hstate =>
    subst he
    have hnodup' : ((as ++ e :: bs).map Tracked.node).Nodup := by
      have hperm := (requeue_perm frame.timestamp as bs e').map Tracked.node
      rw [hperm.nodup_iff] at hnodup
      simpa [he'] using hnodup
    obtain ⟨hout, hper'⟩ := (hadmits.perNode hper₁).push hnodup' rfl he' hstate
    refine ⟨_, fun k ↦ ?_, fun now h ↦ hper'.mono (hle now h)⟩
    have hshort : (callOf frame).payload.length < 2 ^ 32 := by
      have hdata := frame.data.length_le
      rw [Call.payload, List.length_dropLast]
      simp only [callOf]
      omega
    rw [receivedFrom_regular, hout]
    split
    · rename_i hk
      subst hk
      rw [Function.update_self]
      exact (hreplays e.node).concat hshort
    · rename_i hk
      rw [Function.update_of_ne (Ne.symm hk)]
      exact hreplays k

/-- The frames of a history were received in the order of their timestamps. -/
def Ordered (events : List Event) : Prop := (stamps events).Pairwise (· ≤ ·)

theorem Independent.handlesEvent {dataSpecifier : DataSpecifier} {events : List Event}
    {event : Event} (h : Ordered events → Independent timeout capacity events l)
    (hh : HandlesEvent SN capacity dataSpecifier timeout l l' event)
    (hnodup : (l'.map Tracked.node).Nodup) (hordered : Ordered (events ++ [event])) :
    Independent timeout capacity (events ++ [event]) l' := by
  have hinit : Ordered events := by
    rw [Ordered, stamps, List.filterMap_append] at hordered
    exact (List.pairwise_append.mp hordered).1
  cases event with
  | pushed frame reception =>
    refine (h hinit).handles hh hnodup fun t ht ↦ ?_
    rw [Ordered, stamps_pushed] at hordered
    exact (List.pairwise_append.mp hordered).2.2 t ht _ (List.mem_singleton_self _)
  | popped | polled =>
    obtain ⟨reassemblies, hreplays, hper⟩ := h hinit
    obtain rfl := hh
    refine ⟨reassemblies, fun k ↦ ?_, fun now hnow ↦ hper now fun t ht ↦ hnow t ?_⟩
    · rw [receivedFrom_of_not_regular events (by simp)]
      exact hreplays k
    · rw [stamps, List.filterMap_append]
      exact List.mem_append_left _ ht

/-! ## Who has a session -/

/-- The node owns a session. -/
def HasSession (t : SessionTable SN) (node : NodeId) : Prop :=
  ∃ session, t.sessions.get node = .ok (some session)

/-- The node owns a session, and its last transfer was started at `sof`. -/
def StartedAt (t : SessionTable SN) (node : NodeId) (sof : Instant) : Prop :=
  ∃ session, t.sessions.get node = .ok (some session) ∧
    session.gather.lastTransferTimestamp = .ok (some sof)

theorem hasSession_iff {t : SessionTable SN} (hSN : SN ≤ IndexQueue.NO_ENTRY)
    (h : t.Tracks capacity l) (node : NodeId) : HasSession t node ↔ node ∈ l.map Tracked.node := by
  constructor
  · rintro ⟨session, hget⟩
    by_contra hnot
    cases hget.symm.trans (h.lists.get_eq_none hSN hnot)
  · intro hmem
    obtain ⟨e, he, rfl⟩ := List.mem_map.mp hmem
    exact ⟨e.session, h.lists.get_eq hSN he⟩

theorem startedAt_iff {t : SessionTable SN} (hSN : SN ≤ IndexQueue.NO_ENTRY)
    (h : t.Tracks capacity l) (node : NodeId) (sof : Instant) :
    StartedAt t node sof ↔ ∃ e ∈ l, e.node = node ∧ e.state.sof? = some sof := by
  constructor
  · rintro ⟨session, hget, hlast⟩
    obtain ⟨e, he, rfl⟩ := List.mem_map.mp ((hasSession_iff hSN h node).mp ⟨session, hget⟩)
    rw [h.lists.get_eq hSN he] at hget
    cases hget
    exact ⟨e, he, rfl, Except.ok.inj ((lastTransferTimestamp_session e).symm.trans hlast)⟩
  · rintro ⟨e, he, rfl, hsof⟩
    exact ⟨e.session, h.lists.get_eq hSN he, by rw [lastTransferTimestamp_session, hsof]⟩

/-- What a frame does to the sessions. -/
structure FairSessions (dataSpecifier : DataSpecifier) (timeout : Duration) (frame : Frame)
    (reception : Reception) (t t' : SessionTable SN) : Prop where
  /-- The frames given to a `Gather` are those of the nodes with a session. -/
  received : ∀ source, frame.header.dataSpec = dataSpecifier → frame.header.source = some source →
    ((HasSession t source ∨ HasSession t' source) ↔
      ∃ delivery, reception = .regular source (callOf frame) delivery)
  /-- A start of transfer gets a session unless all are taken by nodes within their timeout. -/
  admitted : ∀ source, frame.header.dataSpec = dataSpecifier → frame.header.source = some source →
    SessionTable.sot frame.data = true → ¬ HasSession t source →
    HasSession t' source ∨ ∃ nodes : List NodeId, nodes.Nodup ∧ nodes.length = SN ∧
      (∀ node, HasSession t node ↔ node ∈ nodes) ∧
      ∀ node ∈ nodes, ∃ sof, StartedAt t node sof ∧
        frame.timestamp ≤ Instant.saturatingAdd sof timeout
  /-- No node within its timeout loses its session. -/
  kept : ∀ node sof, StartedAt t node sof → frame.timestamp ≤ Instant.saturatingAdd sof timeout →
    HasSession t' node

/-- The nodes with a session after a frame of `source` was admitted. -/
theorem Admits.source_mem (ha : Admits SN timeout source sot now l l')
    (hsource : source ∈ l.map Tracked.node) : l' = l := by
  cases ha with
  | tracked | notStart => rfl
  | start hnew => exact absurd hsource hnew

/-- A start of transfer is refused only if all sessions are taken and none has expired. -/
theorem Admits.refused (ha : Admits SN timeout source sot now l l')
    (h : PerNode timeout now l reassemblies) (hsot : sot = true)
    (hnew : source ∉ l.map Tracked.node) (hrefused : source ∉ l'.map Tracked.node) :
    l.length = SN ∧
      ∀ e ∈ l, ∃ sof, e.state.sof? = some sof ∧ now ≤ Instant.saturatingAdd sof timeout := by
  cases ha with
  | tracked hmem => exact absurd hmem hnew
  | notStart hnot => exact absurd (hsot.symm.trans hnot) (by simp)
  | start _ _ hs =>
    cases hs with
    | fresh | evict => exact absurd List.mem_cons_self hrefused
    | @refuse e l hlen hexpired =>
      rw [Reassembly.Expired] at hexpired
      push Not at hexpired
      obtain ⟨sof, hsof, hle⟩ := hexpired
      refine ⟨hlen, List.forall_mem_cons.mpr ⟨⟨sof, hsof, hle⟩, fun e' he' ↦ ?_⟩⟩
      -- the oldest session has not expired, so the others have not
      obtain ⟨sof', hsof', hle'⟩ := (List.pairwise_cons.mp h.sorted).1 e' he' sof hsof
      exact ⟨sof', hsof', hle.trans (Instant.saturatingAdd_mono hle' timeout)⟩

section Handles

variable {dataSpecifier : DataSpecifier} {frame : Frame} {reception : Reception}

theorem mem_requeue : source ∈ (requeue now as bs e).map Tracked.node ↔
    source ∈ (as ++ e :: bs).map Tracked.node :=
  ((requeue_perm now as bs e).map Tracked.node).mem_iff

/-- A session that has not expired is kept. -/
theorem SessionTable.Handles.keeps (hh : Handles SN capacity dataSpecifier timeout frame
    l l' reception)
    (he : e ∈ l) (hexpired : ¬ e.state.Expired timeout frame.timestamp) :
    e.node ∈ l'.map Tracked.node := by
  cases hh with
  | foreign | anonymous => exact List.mem_map_of_mem he
  | dropped _ hadmits => exact List.mem_map_of_mem (hadmits.mem he hexpired)
  | regular _ hadmits hnode hnode' =>
    rw [mem_requeue]
    have hmem := List.mem_map_of_mem (f := Tracked.node) (hadmits.mem he hexpired)
    simpa [hnode, hnode'] using hmem

/-- The frames given to a session are those of the nodes that have one or get one. -/
theorem SessionTable.Handles.regular_iff (hh : Handles SN capacity dataSpecifier timeout frame
    l l' reception)
    (hspec : frame.header.dataSpec = dataSpecifier) (hsource : frame.header.source = some source) :
    (source ∈ l.map Tracked.node ∨ source ∈ l'.map Tracked.node) ↔
      ∃ delivery, reception = .regular source (callOf frame) delivery := by
  cases hh with
  | foreign hforeign => exact absurd hspec hforeign
  | anonymous hnone => exact absurd (hsource.symm.trans hnone) (by simp)
  | dropped hsource' hadmits hnot =>
    obtain rfl := Option.some.inj (hsource.symm.trans hsource')
    refine ⟨fun hmem ↦ ?_, fun ⟨_, heq⟩ ↦ by cases heq⟩
    have hold : source ∉ l.map Tracked.node := fun hold ↦
      hnot (hadmits.source_mem hold ▸ hold)
    exact absurd hmem (not_or.mpr ⟨hold, hnot⟩)
  | regular hsource' hadmits hnode hnode' =>
    obtain rfl := Option.some.inj (hsource.symm.trans hsource')
    refine ⟨fun _ ↦ ⟨_, rfl⟩, fun _ ↦ .inr ?_⟩
    rw [mem_requeue]
    simp [hnode']

/-- A start of transfer is refused only if all sessions are taken and none has expired. -/
theorem SessionTable.Handles.refused (hh : Handles SN capacity dataSpecifier timeout frame
    l l' reception)
    (h : PerNode timeout frame.timestamp l reassemblies)
    (hspec : frame.header.dataSpec = dataSpecifier) (hsource : frame.header.source = some source)
    (hsot : SessionTable.sot frame.data = true) (hnew : source ∉ l.map Tracked.node)
    (hrefused : source ∉ l'.map Tracked.node) :
    l.length = SN ∧ ∀ e ∈ l, ∃ sof, e.state.sof? = some sof ∧
      frame.timestamp ≤ Instant.saturatingAdd sof timeout := by
  cases hh with
  | foreign hforeign => exact absurd hspec hforeign
  | anonymous hnone => exact absurd (hsource.symm.trans hnone) (by simp)
  | dropped hsource' hadmits hnot =>
    obtain rfl := Option.some.inj (hsource.symm.trans hsource')
    exact hadmits.refused h hsot hnew hrefused
  | regular hsource' hadmits hnode hnode' =>
    obtain rfl := Option.some.inj (hsource.symm.trans hsource')
    rw [mem_requeue] at hrefused
    exact absurd (by simp [hnode']) hrefused

end Handles

namespace RxPriorityFifoInner

variable {SN TN : ℕ} {r : RxPriorityFifoInner SN TN} {capacity : ℕ} {l : List Tracked}
  {b : Backlog Priority TransferEntry} {buffers : List (List Byte)}

theorem stamp_of_step {op : Op} {r' : RxPriorityFifoInner SN TN} {event : Event}
    (hstep : r.step op = .ok (r', event)) : event.stamp? = op.stamp? := by
  cases op with
  | pushFrame frame =>
    obtain ⟨reception, -, hstep⟩ := bind_eq_ok.mp hstep
    obtain ⟨r₁, -, heq⟩ := bind_eq_ok.mp hstep
    cases heq
    rfl
  | tryPop mask =>
    obtain ⟨⟨item, r₁⟩, -, heq⟩ := bind_eq_ok.mp hstep
    cases heq
    rfl
  | pollPopReadiness waker mask =>
    cases hstep
    rfl

/-- The frames of a history are those of the operations. -/
theorem stamps_of_run {ops : List Op} {r' : RxPriorityFifoInner SN TN} {events : List Event}
    (hrun : run step r ops = .ok (r', events)) : stamps events = ops.filterMap Op.stamp? := by
  induction ops generalizing r events with
  | nil =>
    cases hrun
    rfl
  | cons op ops ih =>
    obtain ⟨r₁, event, events', hstep, hrest, rfl⟩ := run_cons_eq_ok.mp hrun
    have htail : events'.filterMap Event.stamp? = ops.filterMap Op.stamp? := ih hrest
    rw [stamps, List.filterMap_cons, List.filterMap_cons, stamp_of_step hstep, htail]

/-- The invariant of a run, with a reassembly for each node. -/
theorem independent_of_run (h : Sized SN TN capacity buffers) {dataSpecifier : DataSpecifier}
    {timeout : Duration} (hr : r.Reaches capacity dataSpecifier timeout [] [] fun _ ↦ [])
    {ops : List Op} {r' : RxPriorityFifoInner SN TN} {events : List Event}
    (hrun : run step r ops = .ok (r', events)) :
    ∃ l b, r'.Reaches capacity dataSpecifier timeout events l b ∧
      (Ordered events → Independent timeout capacity events l) := by
  have htraces : Traces step fun events (r : RxPriorityFifoInner SN TN) ↦
      ∃ l b, r.Reaches capacity dataSpecifier timeout events l b ∧
        (Ordered events → Independent timeout capacity events l) := by
    rintro events r op r' event ⟨l, b, hr, hi⟩ hstep
    obtain ⟨l', b', hs⟩ := stepped_of_ok h.le_noEntry h.transfers.1 hr.represents hstep
    have hhandles := hs.handles
    rw [hr.timeout] at hhandles
    exact ⟨l', b', hs.reaches hr, .handlesEvent hi hhandles hs.represents.shares.tracks.lists.nodup⟩
  exact run_of_traces htraces ⟨[], _, hr, fun _ ↦ independent_nil timeout capacity⟩ hrun

theorem fairSessions_of_frame (h : Sized SN TN capacity buffers) (hpos : 1 ≤ SN)
    {dataSpecifier : DataSpecifier} {timeout : Duration} {events : List Event}
    (hr : r.Reaches capacity dataSpecifier timeout events l b)
    (hi : Independent timeout capacity events l) {frame : Frame}
    (hnow : ∀ t ∈ stamps events, t ≤ frame.timestamp) :
    ∃ r' reception, r.step (.pushFrame frame) = .ok (r', .pushed frame reception) ∧
      FairSessions dataSpecifier timeout frame reception r.toSessionTable r'.toSessionTable := by
  have hSN := h.le_noEntry
  obtain ⟨r', l', b', reception, hreceive, hpush, hp⟩ :=
    pushFrame_represents hSN h.transfers.1 hr.represents frame (.inl hpos)
  have hhas := hasSession_iff hSN hr.represents.shares.tracks
  have hhas' := hasSession_iff hSN hp.represents.shares.tracks
  have hhandles := hp.handles
  rw [hr.timeout, hr.dataSpecifier] at hhandles
  obtain ⟨reassemblies, -, hper⟩ := hi
  refine ⟨r', reception, ?_, fun source hspec hsource ↦ ?_, fun source hspec hsource hsot hnew ↦ ?_,
    fun node sof hstarted hle ↦ ?_⟩
  · rw [step, hreceive, ok_bind, hpush]
    rfl
  · rw [hhas source, hhas' source]
    exact hhandles.regular_iff hspec hsource
  · by_cases hmem : HasSession r'.toSessionTable source
    · exact .inl hmem
    · rw [hhas] at hnew
      rw [hhas'] at hmem
      obtain ⟨hlen, hall⟩ := hhandles.refused (hper _ hnow) hspec hsource hsot hnew hmem
      refine .inr ⟨l.map Tracked.node, hr.represents.shares.tracks.lists.nodup, by rwa
        [List.length_map], hhas, List.forall_mem_map.mpr fun e he ↦ ?_⟩
      obtain ⟨sof, hsof, hle⟩ := hall e he
      exact ⟨sof, (startedAt_iff hSN hr.represents.shares.tracks _ _).mpr ⟨e, he, rfl, hsof⟩, hle⟩
  · rw [hhas' node]
    obtain ⟨e, he, rfl, hsof⟩ := (startedAt_iff hSN hr.represents.shares.tracks _ _).mp hstarted
    exact hhandles.keeps he fun hexpired ↦ absurd (hexpired sof hsof) (not_lt.mpr hle)

/-- **A bounded session table behaves like one reassembler for each node.**  In a history whose
frames are in the order of their timestamps, the transfers completed for a node are those that a
`Gather` of its own would return on the frames of the node that were received while it had a session
or got one.  A start of transfer of a node without a session gets one unless all sessions are of
nodes that have started a transfer within the timeout, and no such node ever loses its session. -/
theorem nodes_independent (h : Sized SN TN capacity buffers) (hpos : 1 ≤ SN)
    (dataSpecifier : DataSpecifier) (timeout : Duration) {ops : List Op}
    (hordered : (ops.filterMap Op.stamp?).Pairwise (· ≤ ·)) :
    ∃ r₀ r events, new SN TN dataSpecifier timeout buffers = .ok r₀ ∧
      run step r₀ ops = .ok (r, events) ∧
      (∀ source (buffer : List Byte), buffer.length = capacity →
        ∃ s, run (Gather.step timeout) (Gather.default, buffer)
            ((receivedFrom source events).map Prod.fst) =
          .ok (s, (receivedFrom source events).map Prod.snd)) ∧
      ∀ frame, (∀ t ∈ ops.filterMap Op.stamp?, t ≤ frame.timestamp) →
        ∃ r' reception, r.step (.pushFrame frame) = .ok (r', .pushed frame reception) ∧
          FairSessions dataSpecifier timeout frame reception r.toSessionTable
            r'.toSessionTable := by
  obtain ⟨r₀, hnew, hr₀⟩ := h.new_reaches dataSpecifier timeout
  obtain ⟨r, events, hrun⟩ := run_ok h hpos hr₀ ops
  obtain ⟨l, b, hr, hi⟩ := independent_of_run h hr₀ hrun
  rw [← stamps_of_run hrun] at hordered ⊢
  refine ⟨r₀, r, events, hnew, hrun, fun source buffer hbuffer ↦ ?_,
    fun frame hnow ↦ fairSessions_of_frame h hpos hr (hi hordered) hnow⟩
  obtain ⟨reassemblies, hreplays, -⟩ := hi hordered
  exact (hreplays source).run_eq hbuffer

theorem nodes_independent_one_session :
    ∃ r₀ r events, new 1 1 (.message subject0) 2000 [[0], [0], [0]] = .ok r₀ ∧
      run step r₀ [.pushFrame (singleFrame 1), .pushFrame (singleFrame 2)] = .ok (r, events) ∧
      ∀ source (buffer : List Byte), buffer.length = 1 →
        ∃ s, run (Gather.step 2000) (Gather.default, buffer)
            ((receivedFrom source events).map Prod.fst) =
          .ok (s, (receivedFrom source events).map Prod.snd) := by
  obtain ⟨r₀, r, events, hnew, hrun, hreplays, -⟩ :=
    nodes_independent (⟨by decide, by decide, rfl, by decide⟩ : Sized 1 1 1 [[0], [0], [0]]) le_rfl
      (.message subject0) 2000 (by decide :
        ([.pushFrame (singleFrame 1), .pushFrame (singleFrame 2)].filterMap Op.stamp?).Pairwise
        (· ≤ ·))
  exact ⟨r₀, r, events, hnew, hrun, hreplays⟩

end RxPriorityFifoInner

end Emcyphal
