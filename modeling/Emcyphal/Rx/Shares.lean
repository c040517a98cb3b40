import Emcyphal.Rx.Sessions

/-!
# Sessions among other owners of buffers

A receive buffer hands its buffers to its sessions and to other owners, a queue or a readout.
`Shares` says that each buffer belongs to exactly one of them.  It is what is left of the session
table when a receive buffer as a whole is verified: a frame changes only the buffer of one session
(`reassemble_shares`), and a session may exchange its buffer with another owner (`Shares.swap`).

`Handles` sums up what a frame does to the list of the sessions.
-/

set_option autoImplicit false

namespace Emcyphal

open Rust

namespace SessionTable

variable {SN : ℕ} {t : SessionTable SN} {capacity : ℕ} {l as bs : List Tracked} {e : Tracked}
  {rest rest' : List ℕ} {source : NodeId}

/-- The sessions and the owners of `rest` share the buffers. -/
structure Shares (t : SessionTable SN) (capacity : ℕ) (l : List Tracked) (rest : List ℕ) : Prop
    where
  tracks : t.Tracks capacity l
  owners : (owned SN l ++ rest).Perm (List.range t.buffers.length)

/-- The configuration and the contents of the readout buffer stay. -/
structure Undisturbed (t t' : SessionTable SN) (idx idx' : ℕ) : Prop where
  dataSpecifier : t'.dataSpecifier = t.dataSpecifier
  timeout : t'.timeout = t.timeout
  readoutBufferIdx : idx' = idx
  readout : t'.buffers[idx]? = t.buffers[idx]?

theorem Undisturbed.refl (t : SessionTable SN) (idx : ℕ) : Undisturbed t t idx idx :=
  ⟨rfl, rfl, rfl, rfl⟩

theorem Undisturbed.trans {t t' t'' : SessionTable SN} {idx idx' idx'' : ℕ}
    (h : Undisturbed t t' idx idx') (h' : Undisturbed t' t'' idx' idx'') :
    Undisturbed t t'' idx idx'' :=
  ⟨h'.dataSpecifier.trans h.dataSpecifier, h'.timeout.trans h.timeout,
    h'.readoutBufferIdx.trans h.readoutBufferIdx,
    (h.readoutBufferIdx ▸ h'.readout).trans h.readout⟩

theorem Shares.perm (h : t.Shares capacity l rest) (hrest : rest'.Perm rest) :
    t.Shares capacity l rest' := ⟨h.tracks, (hrest.append_left _).trans h.owners⟩

theorem Shares.nodup (h : t.Shares capacity l rest) : (owned SN l ++ rest).Nodup :=
  h.owners.nodup_iff.mpr List.nodup_range

theorem Shares.disjoint (h : t.Shares capacity l rest) {i : ℕ} (hi : i ∈ owned SN l) : i ∉ rest :=
  List.disjoint_of_nodup_append h.nodup hi

theorem Shares.lt_length (h : t.Shares capacity l rest) {i : ℕ} (hi : i ∈ owned SN l ++ rest) :
    i < t.buffers.length := List.mem_range.mp (h.owners.mem_iff.mp hi)

theorem Shares.length (h : t.Shares capacity l rest) : t.buffers.length = SN + rest.length := by
  have hlen := h.owners.length_eq
  rw [List.length_range, List.length_append, owned, List.length_append, List.length_map,
    List.length_range'] at hlen
  have hle := h.tracks.length_le
  omega

theorem new_shares {d : DataSpecifier} {t : Duration} {buffers : List (List Byte)}
    {sessions : IndexQueue NodeId Session NODE_ID_MAX SN}
    (hsessions : sessions.Represents (fun _ ↦ none) [])
    (hcap : ∀ buffer ∈ buffers, buffer.length = capacity) (hlen : SN ≤ buffers.length) :
    Shares ⟨d, buffers, sessions, 0, t⟩ capacity []
      (List.range' SN (buffers.length - SN)) := by
  have howned : owned SN [] = List.range' 0 SN := by rw [owned]; rfl
  refine ⟨⟨.nil hsessions, rfl, Nat.zero_le SN, ?_, by simp, hcap, hlen⟩, ?_⟩
  · rw [howned]
    exact List.nodup_range'
  · have happend := List.range'_append_1 (s := 0) (m := SN) (n := buffers.length - SN)
    rw [Nat.zero_add, Nat.add_sub_of_le hlen] at happend
    rw [howned, List.range_eq_range', happend]

/-- Another owner writes to its buffer. -/
theorem Shares.setBuffer (h : t.Shares capacity l rest) {idx : ℕ} (hidx : idx ∈ rest)
    {buffer : List Byte} (hbuffer : buffer.length = capacity) :
    Shares { t with buffers := t.buffers.set idx buffer } capacity l rest :=
  ⟨h.tracks.setBuffer (fun hmem ↦ h.disjoint hmem hidx) hbuffer, by
    rw [List.length_set]
    exact h.owners⟩

/-- **A frame of a node is a step of its reassembly**, and all other buffers stay as they are. -/
theorem reassemble_shares (hSN : SN ≤ IndexQueue.NO_ENTRY) (h : t.Shares capacity l rest)
    (source : NodeId) {frame : Frame} (hstart : 1 ≤ SN ∨ sot frame.data = false) :
    ∃ t' l', Admits SN t.timeout source (sot frame.data) frame.timestamp l l' ∧
      t'.dataSpecifier = t.dataSpecifier ∧ t'.timeout = t.timeout ∧
      (∀ i ∈ rest, t'.buffers[i]? = t.buffers[i]?) ∧
      ((source ∉ l'.map Tracked.node ∧
        t.reassemble source frame.header.priority frame.data frame.timestamp = .ok (t', none) ∧
        t'.Shares capacity l' rest) ∨
      ∃ as e bs buffer transfer, l' = as ++ e :: bs ∧ e.node = source ∧
        t.reassemble source frame.header.priority frame.data frame.timestamp =
          .ok (t', some ⟨(e.push t.timeout (callOf frame)).session, buffer, transfer⟩) ∧
        t'.Shares capacity (as ++ e.push t.timeout (callOf frame) :: bs) rest ∧
        t'.buffers[e.bufferIdx]? = some buffer ∧
        (transfer.map fun t ↦ (t, buffer.take t.length)) =
          (e.state.pushCall t.timeout (callOf frame)).2.map (Reassembly.truncate capacity) ∧
        ∀ tr, transfer = some tr → (e.push t.timeout (callOf frame)).state.bytes = [] ∧
          tr.priority = frame.header.priority) := by
  obtain ⟨q, l', hadmits, hcase⟩ := reassemble_tracks hSN h.tracks source hstart
  rcases hcase with ⟨hnot, hreassemble, htracks⟩ |
    ⟨as, e, bs, buffer, transfer, rfl, rfl, hreassemble, htracks, hlen, hseen⟩
  · exact ⟨{ t with sessions := q, sessionBufferBase := l'.length }, l', hadmits, rfl, rfl,
      fun _ _ ↦ rfl, .inl ⟨hnot, hreassemble, htracks,
      (hadmits.owned_perm.append_right rest).trans h.owners⟩⟩
  · have howned : (owned SN (as ++ e.push t.timeout (callOf frame) :: bs)).Perm (owned SN l) :=
      ((owned_middle SN as bs (e.push t.timeout (callOf frame))).trans
        (owned_middle SN as bs e).symm).trans hadmits.owned_perm
    have hidx : e.bufferIdx ∈ owned SN l :=
      hadmits.owned_perm.mem_iff.mp ((owned_middle SN as bs e).mem_iff.mpr List.mem_cons_self)
    refine ⟨{ t with
        buffers := t.buffers.set e.bufferIdx buffer
        sessions := q
        sessionBufferBase := (as ++ e :: bs).length }, _, hadmits, rfl, rfl, fun i hi ↦ ?_,
      .inr ⟨as, e, bs, buffer, transfer, rfl, rfl, hreassemble, ⟨htracks, ?_⟩, ?_, hseen, ?_⟩⟩
    · exact List.getElem?_set_ne fun (heq : e.bufferIdx = i) ↦ h.disjoint hidx (heq ▸ hi)
    · rw [List.length_set]
      exact (howned.append_right rest).trans h.owners
    · exact List.getElem?_set_self (h.lt_length (List.mem_append_left _ hidx))
    · intro tr htr
      rw [htr] at hseen
      obtain ⟨d, hd, htrunc⟩ := Option.map_eq_some_iff.mp hseen.symm
      obtain ⟨hbytes, hpriority, -⟩ := Reassembly.pushCall_delivers hd
      exact ⟨hbytes, (congrArg (fun d ↦ d.1.priority) htrunc).symm.trans hpriority⟩

/-- A session whose transfer was delivered exchanges its buffer with another owner. -/
theorem Shares.swap (hSN : SN ≤ IndexQueue.NO_ENTRY) {idx : ℕ}
    (h : t.Shares capacity (as ++ e :: bs) (idx :: rest)) (hbytes : e.state.bytes = []) :
    ∃ q, t.sessions.set e.node { e.session with bufferIdx := idx } = .ok q ∧
      Shares { t with sessions := q } capacity (as ++ { e with bufferIdx := idx } :: bs)
        (e.bufferIdx :: rest) := by
  have hidx : idx ∉ owned SN (as ++ e :: bs) := fun hmem ↦ h.disjoint hmem List.mem_cons_self
  have hlt : idx < t.buffers.length := h.lt_length (by simp)
  obtain ⟨q, hset, hq⟩ := h.tracks.lists.set hSN { e with bufferIdx := idx } rfl
  refine ⟨q, hset, h.tracks.replace hq ?_ (List.getElem?_eq_getElem hlt) ?_ (fun _ _ ↦ rfl)
    h.tracks.capacity rfl, List.Perm.trans ?_ h.owners⟩
  · exact fun hmem ↦ hidx ((owned_middle SN as bs e).mem_iff.mpr (List.mem_cons_of_mem _ hmem))
  · rw [hbytes]
    exact stores_nil _
  · refine ((owned_middle SN as bs _).append_right _).trans ?_
    refine List.Perm.trans ?_ ((owned_middle SN as bs e).append_right _).symm
    refine (List.perm_middle.cons _).trans ((List.Perm.swap _ _ _).trans ?_)
    exact List.perm_middle.symm.cons _

/-- The sessions in the queue after a frame was processed. -/
def requeue (timestamp : Instant) (as bs : List Tracked) (e : Tracked) : List Tracked :=
  if e.state.sof? = some timestamp then as ++ bs ++ [e] else as ++ e :: bs

theorem requeue_perm (timestamp : Instant) (as bs : List Tracked) (e : Tracked) :
    (requeue timestamp as bs e).Perm (as ++ e :: bs) := by
  rw [requeue]
  split
  · exact (List.perm_append_singleton e _).trans List.perm_middle.symm
  · exact List.Perm.refl _

theorem owned_perm_of_perm {S : ℕ} {l l' : List Tracked} (h : l.Perm l') :
    (owned S l).Perm (owned S l') := by
  rw [owned, owned, h.length_eq]
  exact (h.map _).append_right _

theorem touch_shares (hSN : SN ≤ IndexQueue.NO_ENTRY) (h : t.Shares capacity (as ++ e :: bs) rest)
    (timestamp : Instant) :
    ∃ q, t.touch e.node e.session timestamp = .ok { t with sessions := q } ∧
      Shares { t with sessions := q } capacity (requeue timestamp as bs e) rest := by
  rw [touch, lastTransferTimestamp_session, ok_bind]
  have hperm := requeue_perm timestamp as bs e
  have howned := owned_perm_of_perm (S := SN) hperm
  have hshares : ∀ q, Lists q (requeue timestamp as bs e) →
      Shares { t with sessions := q } capacity (requeue timestamp as bs e) rest := fun q hq ↦
    ⟨⟨hq, h.tracks.base.trans hperm.length_eq.symm, hperm.length_eq ▸ h.tracks.length_le,
      howned.nodup_iff.mpr h.tracks.distinct,
      fun e' he' ↦ h.tracks.stores e' (hperm.mem_iff.mp he'), h.tracks.capacity, h.tracks.room⟩,
      (howned.append_right rest).trans h.owners⟩
  by_cases hsof : e.state.sof? = some timestamp
  · obtain ⟨q, henqueue, hq⟩ := h.tracks.lists.enqueue_back hSN
    refine ⟨q, ?_, hshares q ?_⟩
    · rw [if_pos hsof, henqueue]
      rfl
    · rwa [requeue, if_pos hsof]
  · refine ⟨t.sessions, by rw [if_neg hsof]; rfl, hshares _ ?_⟩
    rw [requeue, if_neg hsof]
    exact h.tracks.lists

/-! ## What a frame leads to -/

theorem receive_of_foreign {frame : Frame} (h : frame.header.dataSpec ≠ t.dataSpecifier) :
    t.receive frame = .ok .ignored := if_pos h

theorem receive_of_reassemble {frame : Frame} (h : frame.header.dataSpec = t.dataSpecifier)
    (hsource : frame.header.source = some source) {t' : SessionTable SN}
    {received : Option Received}
    (hr : t.reassemble source frame.header.priority frame.data frame.timestamp =
      .ok (t', received)) :
    t.receive frame = .ok (received.elim .ignored fun r ↦
      .regular source (callOf frame) (r.transfer.map fun t ↦ (t, r.buffer.take t.length))) := by
  rw [receive, if_neg (not_not.mpr h), hsource]
  simp only [hr, ok_bind]
  cases received <;> rfl

theorem receive_of_anonymous {frame : Frame} (h : frame.header.dataSpec = t.dataSpecifier)
    (hsource : frame.header.source = none) :
    t.receive frame = .ok ((anonymousPayload frame.data).elim .ignored fun p ↦
      .anonymous p.1 p.2) := by
  rw [receive, if_neg (not_not.mpr h), hsource]
  cases anonymousPayload frame.data <;> rfl

/-- What a frame does to the sessions, and what it leads to. -/
inductive Handles (SN capacity : ℕ) (dataSpecifier : DataSpecifier) (timeout : Duration)
    (frame : Frame) : List Tracked → List Tracked → Reception → Prop
  /-- The frame is not for this buffer. -/
  | foreign {l : List Tracked} (h : frame.header.dataSpec ≠ dataSpecifier) :
      Handles SN capacity dataSpecifier timeout frame l l .ignored
  | anonymous {l : List Tracked} {reception : Reception} (h : frame.header.source = none)
      (hreception : ∀ source call delivery, reception ≠ .regular source call delivery) :
      Handles SN capacity dataSpecifier timeout frame l l reception
  /-- There is no session for the frame. -/
  | dropped {l l' : List Tracked} {source : NodeId} (h : frame.header.source = some source)
      (hadmits : Admits SN timeout source (sot frame.data) frame.timestamp l l')
      (hsource : source ∉ l'.map Tracked.node) :
      Handles SN capacity dataSpecifier timeout frame l l' .ignored
  | regular {l as bs : List Tracked} {e e' : Tracked} {source : NodeId}
      (h : frame.header.source = some source)
      (hadmits : Admits SN timeout source (sot frame.data) frame.timestamp l (as ++ e :: bs))
      (he : e.node = source) (he' : e'.node = source)
      (hstate : e'.state = (e.state.pushCall timeout (callOf frame)).1) :
      Handles SN capacity dataSpecifier timeout frame l (requeue frame.timestamp as bs e')
        (.regular source (callOf frame)
          ((e.state.pushCall timeout (callOf frame)).2.map (Reassembly.truncate capacity)))

/-- Only frames change the sessions. -/
def HandlesEvent (SN capacity : ℕ) (dataSpecifier : DataSpecifier) (timeout : Duration)
    (l l' : List Tracked) : Event → Prop
  | .pushed frame reception => Handles SN capacity dataSpecifier timeout frame l l' reception
  | .popped _ _ | .polled _ _ => l' = l

end SessionTable

/-! ## Histories -/

/-- Each pop of the history has returned what `answer` says after the history before it. -/
def Answers (answer : List Event → PrioritySet → Option Item) (events : List Event) : Prop :=
  ∀ before mask item rest, events = before ++ .popped mask item :: rest → item = answer before mask

theorem answers_nil (answer : List Event → PrioritySet → Option Item) : Answers answer [] := by
  simp [Answers]

theorem Answers.concat {answer : List Event → PrioritySet → Option Item} {events : List Event}
    {event : Event} (h : Answers answer events)
    (hevent : ∀ mask item, event = .popped mask item → item = answer events mask) :
    Answers answer (events ++ [event]) := by
  intro before mask item rest heq
  rcases List.eq_nil_or_concat' rest with rfl | ⟨rest, last, rfl⟩
  · obtain ⟨rfl, hlast⟩ := List.append_inj' heq rfl
    exact hevent mask item (List.singleton_inj.mp hlast)
  · rw [← List.cons_append, ← List.append_assoc] at heq
    exact h before mask item rest (List.append_inj' heq rfl).1

theorem Answers.of_concat {answer : List Event → PrioritySet → Option Item} {events : List Event}
    {event : Event} (h : Answers answer (events ++ [event])) :
    Answers answer events ∧ ∀ mask item, event = .popped mask item → item = answer events mask :=
  ⟨fun before mask item rest heq ↦ h before mask item (rest ++ [event]) (by rw [heq]; simp),
    fun mask item heq ↦ h events mask item [] (by rw [heq])⟩

end Emcyphal
