import Emcyphal.Gather.Soundness
import Emcyphal.Rx.SessionTable

/-!
# The sessions as a list

A `SessionTable` that keeps its invariant is a list of tracked nodes, in the order of the session
queue, each with a buffer of its own and a reassembly (`SessionTable.Tracks`).  The lemmas of this
file say what the functions of the table do to that list: `Admits` are the five things that can
happen before a frame is given to a `Gather`, `reassemble_tracks` is the frame itself and
`touch_tracks` the move to the end of the queue.
-/

set_option autoImplicit false

namespace Emcyphal

open Rust

/-- The timeout has elapsed since the last start of transfer, if there was one. -/
def Reassembly.Expired (r : Reassembly) (timeout : Duration) (timestamp : Instant) : Prop :=
  ∀ sof, r.sof? = some sof → Instant.saturatingAdd sof timeout < timestamp

/-- A node that owns a session. -/
structure Tracked where
  node : NodeId
  bufferIdx : ℕ
  state : Reassembly

namespace Tracked

def session (e : Tracked) : Session := ⟨(e.state.map .of).toGather, e.bufferIdx⟩

/-- The frame is given to the reassembly. -/
def push (e : Tracked) (timeout : Duration) (call : Call) : Tracked :=
  { e with state := (e.state.pushCall timeout call).1 }

end Tracked

/-! ## The session queue -/

/-- The sessions in the order of the queue. -/
structure Lists {SN : ℕ} (q : IndexQueue NodeId Session NODE_ID_MAX SN) (l : List Tracked) : Prop
    where
  nodup : (l.map Tracked.node).Nodup
  table : ∃ table, q.Represents table (l.map Tracked.node) ∧
    ∀ k v, table k = some v ↔ ∃ e ∈ l, e.node = k ∧ e.session = v

namespace Lists

variable {SN : ℕ} {q : IndexQueue NodeId Session NODE_ID_MAX SN} {l as bs : List Tracked}
  {e : Tracked}

theorem nil {q : IndexQueue NodeId Session NODE_ID_MAX SN} (h : q.Represents (fun _ ↦ none) []) :
    Lists q [] := ⟨List.nodup_nil, _, h, by simp⟩

theorem get_eq (hSN : SN ≤ IndexQueue.NO_ENTRY) (h : Lists q l) (he : e ∈ l) :
    q.get e.node = .ok (some e.session) := by
  obtain ⟨table, hq, htable⟩ := h.table
  rw [IndexQueue.get_eq hSN hq, (htable _ _).mpr ⟨e, he, rfl, rfl⟩]

theorem get_eq_none (hSN : SN ≤ IndexQueue.NO_ENTRY) (h : Lists q l) {k : NodeId}
    (hk : k ∉ l.map Tracked.node) : q.get k = .ok none := by
  obtain ⟨table, hq, htable⟩ := h.table
  rw [IndexQueue.get_eq hSN hq]
  cases hv : table k with
  | none => rfl
  | some v =>
    obtain ⟨e, he, rfl, -⟩ := (htable k v).mp hv
    exact absurd (List.mem_map_of_mem he) hk

theorem contains_eq (hSN : SN ≤ IndexQueue.NO_ENTRY) (h : Lists q l) (k : NodeId) :
    q.contains k = .ok (decide (k ∈ l.map Tracked.node)) := by
  obtain ⟨table, hq, htable⟩ := h.table
  rw [IndexQueue.contains_eq hSN hq]
  refine congrArg Except.ok (Bool.eq_iff_iff.mpr ?_)
  rw [decide_eq_true_iff, Option.isSome_iff_exists, List.mem_map]
  simp only [htable]
  exact ⟨fun ⟨v, e, he, hk, _⟩ ↦ ⟨e, he, hk⟩, fun ⟨e, he, hk⟩ ↦ ⟨_, e, he, hk, rfl⟩⟩

theorem front_eq (h : Lists q l) : q.front = .ok (l.head?.map Tracked.node) := by
  obtain ⟨table, hq, -⟩ := h.table
  rw [IndexQueue.front_eq hq, List.head?_map]

/-- A session is replaced. -/
theorem set (hSN : SN ≤ IndexQueue.NO_ENTRY) (h : Lists q (as ++ e :: bs)) (e' : Tracked)
    (hnode : e'.node = e.node) :
    ∃ q', q.set e.node e'.session = .ok q' ∧ Lists q' (as ++ e' :: bs) := by
  obtain ⟨table, hq, htable⟩ := h.table
  have he : e ∈ as ++ e :: bs := by simp
  obtain ⟨q', hset, hq'⟩ := IndexQueue.set_represents hSN hq
    ((htable e.node e.session).mpr ⟨e, he, rfl, rfl⟩) e'.session
  have hmap : (as ++ e' :: bs).map Tracked.node = (as ++ e :: bs).map Tracked.node := by
    simp [hnode]
  refine ⟨q', hset, hmap ▸ h.nodup, _, hmap ▸ hq', fun k v ↦ ?_⟩
  have hnodup := h.nodup
  rw [List.map_append, List.map_cons, List.nodup_middle, List.nodup_cons] at hnodup
  by_cases hk : k = e.node
  · subst hk
    rw [Function.update_self, Option.some_inj]
    constructor
    · rintro rfl
      exact ⟨e', by simp, hnode, rfl⟩
    · rintro ⟨e'', he'', hk, rfl⟩
      rcases List.mem_append.mp he'' with hmem | hmem
      · exact absurd (List.mem_append_left _ (List.mem_map_of_mem hmem)) (hk ▸ hnodup.1)
      · rcases List.mem_cons.mp hmem with rfl | hmem
        · rfl
        · exact absurd (List.mem_append_right _ (List.mem_map_of_mem hmem)) (hk ▸ hnodup.1)
  · rw [Function.update_of_ne hk, htable]
    constructor
    · rintro ⟨e'', he'', rfl, rfl⟩
      refine ⟨e'', ?_, rfl, rfl⟩
      have hne : e'' ≠ e := fun heq ↦ hk (heq ▸ rfl)
      simp only [List.mem_append, List.mem_cons] at he'' ⊢
      exact he''.imp_right (Or.imp_left fun heq ↦ absurd heq hne)
    · rintro ⟨e'', he'', rfl, rfl⟩
      refine ⟨e'', ?_, rfl, rfl⟩
      have hne : e'' ≠ e' := fun heq ↦ hk (heq ▸ hnode)
      simp only [List.mem_append, List.mem_cons] at he'' ⊢
      exact he''.imp_right (Or.imp_left fun heq ↦ absurd heq hne)

/-- The first session is removed. -/
theorem remove_head (hSN : SN ≤ IndexQueue.NO_ENTRY) (h : Lists q (e :: l)) :
    ∃ q', q.remove e.node = .ok (some e.session, q') ∧ Lists q' l := by
  obtain ⟨table, hq, htable⟩ := h.table
  obtain ⟨q', hremove, hq'⟩ := IndexQueue.remove_represents hSN hq
    ((htable e.node e.session).mpr ⟨e, List.mem_cons_self, rfl, rfl⟩)
  obtain ⟨hhead, hnodup⟩ := List.nodup_cons.mp h.nodup
  rw [List.map_cons, List.erase_cons_head] at hq'
  refine ⟨q', hremove, hnodup, _, hq', fun k v ↦ ?_⟩
  by_cases hk : k = e.node
  · subst hk
    rw [Function.update_self]
    refine ⟨fun hv ↦ absurd hv (by simp), fun ⟨e', he', hk, _⟩ ↦ ?_⟩
    exact absurd (List.mem_map_of_mem he') (hk ▸ hhead)
  · rw [Function.update_of_ne hk, htable]
    refine exists_congr fun e' ↦ and_congr_left fun ⟨hk', _⟩ ↦ ?_
    rw [List.mem_cons]
    exact or_iff_right fun heq ↦ hk (by rw [← hk', heq])

/-- A session is inserted and put in front of the queue. -/
theorem insert_front (hSN : SN ≤ IndexQueue.NO_ENTRY) (h : Lists q l)
    (hnew : e.node ∉ l.map Tracked.node) (hlen : l.length < SN) :
    ∃ q₁ q₂, q.insert e.node e.session = .ok (some (none, q₁)) ∧
      q₁.enqueueFront e.node = .ok (some q₂) ∧ Lists q₂ (e :: l) := by
  obtain ⟨table, hq, htable⟩ := h.table
  have hkey : intoUsize e.node ≤ NODE_ID_MAX := Nat.le_of_lt_succ e.node.isLt
  have habsent : table e.node = none := by
    cases hv : table e.node with
    | none => rfl
    | some v =>
      obtain ⟨e', he', hk, -⟩ := (htable _ v).mp hv
      exact absurd (hk ▸ List.mem_map_of_mem he') hnew
  have hdom : ∀ k, (table k).isSome → k ∈ l.map Tracked.node := by
    intro k hk
    obtain ⟨v, hv⟩ := Option.isSome_iff_exists.mp hk
    obtain ⟨e', he', rfl, -⟩ := (htable k v).mp hv
    exact List.mem_map_of_mem he'
  obtain ⟨q₁, hinsert, hq₁⟩ := IndexQueue.insert_represents hSN hq hkey habsent hdom
    (by rwa [List.length_map]) e.session
  obtain ⟨q₂, henqueue, hq₂⟩ := IndexQueue.enqueueFront_represents hSN hq₁
    (Function.update_self e.node (some e.session) table)
  rw [List.erase_of_not_mem hnew] at hq₂
  refine ⟨q₁, q₂, hinsert, henqueue, List.nodup_cons.mpr ⟨hnew, h.nodup⟩, _, hq₂, fun k v ↦ ?_⟩
  by_cases hk : k = e.node
  · subst hk
    rw [Function.update_self, Option.some_inj]
    constructor
    · rintro rfl
      exact ⟨e, List.mem_cons_self, rfl, rfl⟩
    · rintro ⟨e', he', hk, rfl⟩
      rcases List.mem_cons.mp he' with rfl | he'
      · rfl
      · exact absurd (List.mem_map_of_mem he') (hk ▸ hnew)
  · rw [Function.update_of_ne hk, htable]
    refine exists_congr fun e' ↦ and_congr_left fun ⟨hk', _⟩ ↦ ?_
    rw [List.mem_cons]
    exact (or_iff_right fun heq ↦ hk (by rw [← hk', heq])).symm

/-- A session moves to the end of the queue. -/
theorem enqueue_back (hSN : SN ≤ IndexQueue.NO_ENTRY) (h : Lists q (as ++ e :: bs)) :
    ∃ q', q.enqueueBack e.node = .ok (some q') ∧ Lists q' (as ++ bs ++ [e]) := by
  obtain ⟨table, hq, htable⟩ := h.table
  have hperm : (as ++ bs ++ [e]).Perm (as ++ e :: bs) :=
    (List.perm_append_singleton e _).trans List.perm_middle.symm
  obtain ⟨q', henqueue, hq'⟩ := IndexQueue.enqueueBack_represents hSN hq
    ((htable e.node e.session).mpr ⟨e, by simp, rfl, rfl⟩)
  have has : e.node ∉ as.map Tracked.node := by
    have hnodup := h.nodup
    rw [List.map_append, List.map_cons, List.nodup_middle, List.nodup_cons] at hnodup
    exact fun hmem ↦ hnodup.1 (List.mem_append_left _ hmem)
  rw [List.map_append, List.map_cons, List.erase_append_right _ has, List.erase_cons_head] at hq'
  refine ⟨q', henqueue, (hperm.map _).nodup_iff.mpr h.nodup, table, ?_, fun k v ↦ ?_⟩
  · rwa [List.map_append, List.map_append, List.map_singleton]
  · rw [htable]
    exact exists_congr fun e' ↦ and_congr_left fun _ ↦ hperm.mem_iff.symm

end Lists

/-! ## The table -/

/-- The buffers of the sessions, and those not handed out to a session yet. -/
def owned (SN : ℕ) (l : List Tracked) : List ℕ :=
  l.map Tracked.bufferIdx ++ List.range' l.length (SN - l.length)

/-- A new session. -/
def Tracked.new (node : NodeId) (bufferIdx : ℕ) : Tracked := ⟨node, bufferIdx, .idle⟩

/-- How a start of transfer of an untracked node changes the sessions. -/
inductive Starts (SN : ℕ) (timeout : Duration) (source : NodeId) (timestamp : Instant) :
    List Tracked → List Tracked → Prop
  /-- A buffer was never used. -/
  | fresh {l : List Tracked} (hlen : l.length < SN) :
      Starts SN timeout source timestamp l (.new source l.length :: l)
  /-- The oldest session has expired. -/
  | evict {e : Tracked} {l : List Tracked} (hlen : l.length + 1 = SN)
      (hexpired : e.state.Expired timeout timestamp) :
      Starts SN timeout source timestamp (e :: l) (.new source e.bufferIdx :: l)
  /-- The oldest session has not expired. -/
  | refuse {e : Tracked} {l : List Tracked} (hlen : l.length + 1 = SN)
      (hexpired : ¬ e.state.Expired timeout timestamp) :
      Starts SN timeout source timestamp (e :: l) (e :: l)

/-- How a frame changes the sessions before it is given to a `Gather`. -/
inductive Admits (SN : ℕ) (timeout : Duration) (source : NodeId) (sot : Bool)
    (timestamp : Instant) : List Tracked → List Tracked → Prop
  | tracked {l : List Tracked} (h : source ∈ l.map Tracked.node) :
      Admits SN timeout source sot timestamp l l
  | notStart {l : List Tracked} (hsot : sot = false) : Admits SN timeout source sot timestamp l l
  | start {l l' : List Tracked} (hnew : source ∉ l.map Tracked.node) (hsot : sot = true)
      (h : Starts SN timeout source timestamp l l') : Admits SN timeout source sot timestamp l l'

/-- The buffers handed out and to be handed out stay the same. -/
theorem Starts.owned_perm {SN : ℕ} {timeout : Duration} {source : NodeId} {timestamp : Instant}
    {l l' : List Tracked} (h : Starts SN timeout source timestamp l l') :
    (owned SN l').Perm (owned SN l) := by
  cases h with
  | fresh hlen =>
    have hrange : List.range' l.length (SN - l.length) =
        l.length :: List.range' (l.length + 1) (SN - (l.length + 1)) := by
      rw [← List.range'_succ]
      congr 1
      omega
    rw [owned, owned, hrange]
    exact List.perm_middle.symm
  | evict | refuse => exact List.Perm.refl _

theorem Admits.owned_perm {SN : ℕ} {timeout : Duration} {source : NodeId} {sot : Bool}
    {timestamp : Instant} {l l' : List Tracked} (h : Admits SN timeout source sot timestamp l l') :
    (owned SN l').Perm (owned SN l) := by
  cases h with
  | tracked | notStart => exact List.Perm.refl _
  | start _ _ h => exact h.owned_perm

namespace SessionTable

variable {SN : ℕ}

/-- The table keeps these sessions. -/
structure Tracks (t : SessionTable SN) (capacity : ℕ) (l : List Tracked) : Prop where
  lists : Lists t.sessions l
  base : t.sessionBufferBase = l.length
  length_le : l.length ≤ SN
  distinct : (owned SN l).Nodup
  stores : ∀ e ∈ l, ∃ b, t.buffers[e.bufferIdx]? = some b ∧ Stores b e.state.bytes
  capacity : ∀ b ∈ t.buffers, b.length = capacity
  room : SN ≤ t.buffers.length

variable {t : SessionTable SN} {capacity : ℕ} {l as bs : List Tracked} {e : Tracked}
  {source : NodeId} {timestamp : Instant}

theorem lastTransferTimestamp_session (e : Tracked) :
    e.session.gather.lastTransferTimestamp = .ok e.state.sof? := by
  rw [Tracked.session, Phase.lastTransferTimestamp_toGather, Phase.sof?_map]

/-- The test for expiry. -/
theorem expired_iff (e : Tracked) (timeout : Duration) (timestamp : Instant) :
    (e.state.sof?.all fun ts ↦ decide (Instant.saturatingAdd ts timeout < timestamp)) = true ↔
      e.state.Expired timeout timestamp := by
  rw [Reassembly.Expired]
  cases e.state.sof? <;> simp

theorem Tracks.starts (h : t.Tracks capacity l) {l' : List Tracked} {timeout : Duration}
    (hs : Starts SN timeout source timestamp l l')
    {q : IndexQueue NodeId Session NODE_ID_MAX SN} (hq : Lists q l') :
    Tracks { t with sessions := q, sessionBufferBase := l'.length } capacity l' := by
  refine ⟨hq, rfl, ?_, hs.owned_perm.nodup_iff.mpr h.distinct, ?_, h.capacity, h.room⟩
  · cases hs with
    | fresh hlen => exact hlen
    | evict hlen | refuse hlen => exact hlen.le
  · cases hs with
    | fresh hlen =>
      rw [List.forall_mem_cons]
      have hlt : l.length < t.buffers.length := Nat.lt_of_lt_of_le hlen h.room
      exact ⟨⟨_, List.getElem?_eq_getElem hlt, stores_nil _⟩, h.stores⟩
    | @evict e l hlen =>
      obtain ⟨⟨b, hb, -⟩, hrest⟩ := List.forall_mem_cons.mp h.stores
      exact List.forall_mem_cons.mpr ⟨⟨b, hb, stores_nil b⟩, hrest⟩
    | refuse => exact h.stores

/-- An untracked node gets a session if there is one. -/
theorem tryStartNewSession_tracks (hSN : SN ≤ IndexQueue.NO_ENTRY) (hpos : 1 ≤ SN)
    (h : t.Tracks capacity l) (hnew : source ∉ l.map Tracked.node) (timestamp : Instant) :
    ∃ q l', t.tryStartNewSession source timestamp =
        .ok { t with sessions := q, sessionBufferBase := l'.length } ∧
      Starts SN t.timeout source timestamp l l' ∧ Lists q l' := by
  rw [tryStartNewSession, h.lists.contains_eq hSN, ok_bind, assert_pos (by simpa using hnew),
    ok_bind, allocateSessionBuffer, h.base]
  rcases Nat.lt_or_ge l.length SN with hlt | hge
  · rw [if_pos hlt]
    obtain ⟨q₁, q₂, hinsert, henqueue, hq₂⟩ :=
      h.lists.insert_front hSN (e := .new source l.length) hnew hlt
    refine ⟨q₂, _, ?_, .fresh hlt, hq₂⟩
    change t.sessions.insert source ⟨Gather.default, l.length⟩ = _ at hinsert
    change q₁.enqueueFront source = _ at henqueue
    simp only [pure_eq_ok, ok_bind, hinsert, unwrap_some, henqueue, List.length_cons]
  · have hlen : l.length = SN := Nat.le_antisymm h.length_le hge
    obtain ⟨e, rest, rfl⟩ := List.exists_cons_of_length_pos (show 0 < l.length by omega)
    rw [if_neg (Nat.not_lt.mpr hge)]
    dsimp only
    rw [evictOldestSession, h.lists.front_eq, ok_bind, List.head?_cons, Option.map_some,
      unwrap_some, ok_bind, h.lists.get_eq hSN List.mem_cons_self, ok_bind, unwrap_some, ok_bind,
      lastTransferTimestamp_session, ok_bind]
    by_cases hexpired : e.state.Expired t.timeout timestamp
    · obtain ⟨q, hremove, hq⟩ := h.lists.remove_head hSN
      have hnew' : source ∉ rest.map Tracked.node := fun hmem ↦
        hnew (List.mem_cons_of_mem _ hmem)
      have hlt : rest.length < SN := by rw [← hlen]; exact Nat.lt_succ_self _
      obtain ⟨q₁, q₂, hinsert, henqueue, hq₂⟩ :=
        hq.insert_front hSN (e := .new source e.bufferIdx) hnew' hlt
      refine ⟨q₂, _, ?_, .evict hlen hexpired, hq₂⟩
      change q.insert source ⟨Gather.default, e.session.bufferIdx⟩ = _ at hinsert
      change q₁.enqueueFront source = _ at henqueue
      have hbase : t.sessionBufferBase = rest.length + 1 := h.base
      rw [if_pos ((expired_iff e _ _).mpr hexpired)]
      simp only [hremove, ok_bind, unwrap_some, pure_eq_ok, hinsert, henqueue, List.length_cons,
        ← hbase]
    · refine ⟨t.sessions, e :: rest, ?_, .refuse hlen hexpired, h.lists⟩
      rw [if_neg fun h ↦ hexpired ((expired_iff e _ _).mp h)]
      simp only [ok_bind, pure_eq_ok, ← h.base]

/-- Without any session slot, there is no oldest session. -/
theorem tryStartNewSession_panics {t : SessionTable 0} {capacity : ℕ} {l : List Tracked}
    (h : t.Tracks capacity l) : t.tryStartNewSession source timestamp = .error .unwrap := by
  obtain rfl : l = [] := List.length_eq_zero_iff.mp (Nat.le_zero.mp h.length_le)
  rw [tryStartNewSession, h.lists.contains_eq (by decide), ok_bind, assert_pos (by simp), ok_bind,
    allocateSessionBuffer, h.base]
  simp only [List.length_nil, Nat.lt_irrefl, if_false, evictOldestSession]
  rw [h.lists.front_eq]
  rfl

/-! ## A frame of a session -/

/-- The frame is given to a `Gather` only if there is a session or a slot for one. -/
theorem ensureSession_tracks (hSN : SN ≤ IndexQueue.NO_ENTRY) (h : t.Tracks capacity l)
    (source : NodeId) {data : Data} (hstart : 1 ≤ SN ∨ sot data = false) (timestamp : Instant) :
    ∃ q l', t.ensureSession source data timestamp =
        .ok { t with sessions := q, sessionBufferBase := l'.length } ∧
      Admits SN t.timeout source (sot data) timestamp l l' ∧
      Tracks { t with sessions := q, sessionBufferBase := l'.length } capacity l' := by
  have hself : t = { t with sessions := t.sessions, sessionBufferBase := l.length } := by
    rw [← h.base]
  rw [ensureSession]
  by_cases hsource : source ∈ l.map Tracked.node
  · obtain ⟨e, he, rfl⟩ := List.mem_map.mp hsource
    rw [h.lists.get_eq hSN he]
    exact ⟨t.sessions, l, congrArg _ hself, .tracked hsource, hself ▸ h⟩
  · rw [h.lists.get_eq_none hSN hsource]
    cases hsot : sot data with
    | false => exact ⟨t.sessions, l, congrArg _ hself, .notStart rfl, hself ▸ h⟩
    | true =>
      obtain ⟨q, l', hstart, hs, hq⟩ :=
        tryStartNewSession_tracks hSN (hstart.resolve_right (by simp [hsot])) h hsource timestamp
      exact ⟨q, l', hstart, .start hsource rfl hs, h.starts hs hq⟩

theorem ensureSession_panics {t : SessionTable 0} {l : List Tracked} (h : t.Tracks capacity l)
    {data : Data} (hsot : sot data = true) :
    t.ensureSession source data timestamp = .error .unwrap := by
  obtain rfl : l = [] := List.length_eq_zero_iff.mp (Nat.le_zero.mp h.length_le)
  rw [ensureSession, h.lists.get_eq_none (by decide) (by simp), ok_bind, hsot]
  exact tryStartNewSession_panics h

/-- What a session holds is not in the other buffers. -/
theorem Tracks.setBuffer (h : t.Tracks capacity l) {idx : ℕ} (hidx : idx ∉ owned SN l)
    {buffer : List Byte} (hbuffer : buffer.length = capacity) :
    Tracks { t with buffers := t.buffers.set idx buffer } capacity l where
  lists := h.lists
  base := h.base
  length_le := h.length_le
  distinct := h.distinct
  stores e he := by
    obtain ⟨b, hb, hs⟩ := h.stores e he
    have hne : idx ≠ e.bufferIdx := fun heq ↦
      hidx (heq ▸ List.mem_append_left _ (List.mem_map_of_mem he))
    exact ⟨b, (List.getElem?_set_ne hne).trans hb, hs⟩
  capacity b hb := (List.mem_or_eq_of_mem_set hb).elim (h.capacity b) fun heq ↦ heq ▸ hbuffer
  room := by rw [List.length_set]; exact h.room

/-- The buffers of the sessions other than one of them, and those not handed out yet. -/
def others (SN : ℕ) (as bs : List Tracked) : List ℕ :=
  (as ++ bs).map Tracked.bufferIdx ++
    List.range' (as.length + (bs.length + 1)) (SN - (as.length + (bs.length + 1)))

theorem owned_middle (SN : ℕ) (as bs : List Tracked) (e : Tracked) :
    (owned SN (as ++ e :: bs)).Perm (e.bufferIdx :: others SN as bs) := by
  rw [owned, others, List.length_append, List.length_cons, ← List.cons_append, ← List.map_cons]
  exact (List.perm_middle.map _).append_right _

/-- A session is replaced by one with these bytes in this buffer. -/
theorem Tracks.replace (h : t.Tracks capacity (as ++ e :: bs)) {e' : Tracked}
    {q : IndexQueue NodeId Session NODE_ID_MAX SN} (hq : Lists q (as ++ e' :: bs))
    (hidx : e'.bufferIdx ∉ others SN as bs) {buffers : List (List Byte)} {b : List Byte}
    (hb : buffers[e'.bufferIdx]? = some b) (hstores : Stores b e'.state.bytes)
    (hframe : ∀ i ∈ others SN as bs, buffers[i]? = t.buffers[i]?)
    (hcap : ∀ b ∈ buffers, b.length = capacity) (hlen : buffers.length = t.buffers.length) :
    Tracks { t with buffers := buffers, sessions := q } capacity (as ++ e' :: bs) := by
  have hlength : (as ++ e' :: bs).length = (as ++ e :: bs).length := by simp
  refine ⟨hq, h.base.trans hlength.symm, hlength ▸ h.length_le, ?_, ?_, hcap, hlen ▸ h.room⟩
  · have hnodup := (owned_middle SN as bs e).nodup_iff.mp h.distinct
    exact (owned_middle SN as bs e').nodup_iff.mpr
      (List.nodup_cons.mpr ⟨hidx, (List.nodup_cons.mp hnodup).2⟩)
  · intro e'' he''
    rcases List.mem_cons.mp (List.perm_middle.mem_iff.mp he'') with rfl | he''
    · exact ⟨b, hb, hstores⟩
    · obtain ⟨b', hb', hs⟩ := h.stores e''
        (List.perm_middle.mem_iff.mpr (List.mem_cons_of_mem e he''))
      refine ⟨b', ?_, hs⟩
      rw [hframe _ (List.mem_append_left _ (List.mem_map_of_mem he'')), hb']

/-- **A frame of a node is a step of its reassembly**, and changes the buffer of its session
only. -/
theorem reassemble_tracks (hSN : SN ≤ IndexQueue.NO_ENTRY) (h : t.Tracks capacity l)
    (source : NodeId) {frame : Frame} (hstart : 1 ≤ SN ∨ sot frame.data = false) :
    ∃ q l', Admits SN t.timeout source (sot frame.data) frame.timestamp l l' ∧
      ((source ∉ l'.map Tracked.node ∧
        t.reassemble source frame.header.priority frame.data frame.timestamp =
          .ok ({ t with sessions := q, sessionBufferBase := l'.length }, none) ∧
        Tracks { t with sessions := q, sessionBufferBase := l'.length } capacity l') ∨
      ∃ as e bs buffer transfer, l' = as ++ e :: bs ∧ e.node = source ∧
        t.reassemble source frame.header.priority frame.data frame.timestamp =
          .ok ({ t with
              buffers := t.buffers.set e.bufferIdx buffer
              sessions := q
              sessionBufferBase := l'.length },
            some ⟨(e.push t.timeout (callOf frame)).session, buffer, transfer⟩) ∧
        Tracks { t with
          buffers := t.buffers.set e.bufferIdx buffer
          sessions := q
          sessionBufferBase := l'.length } capacity
          (as ++ e.push t.timeout (callOf frame) :: bs) ∧
        buffer.length = capacity ∧
        (transfer.map fun t ↦ (t, buffer.take t.length)) =
          (e.state.pushCall t.timeout (callOf frame)).2.map
            (Reassembly.truncate capacity)) := by
  obtain ⟨q, l', hadmit, hadmits, hl'⟩ :=
    ensureSession_tracks hSN h source hstart frame.timestamp
  by_cases hsource : source ∈ l'.map Tracked.node
  · obtain ⟨e, he, rfl⟩ := List.mem_map.mp hsource
    obtain ⟨as, bs, rfl⟩ := List.append_of_mem he
    set call : Call := callOf frame with hcall
    obtain ⟨b, hb, hs⟩ := hl'.stores e he
    have hlen : b.length = capacity := hl'.capacity b (List.mem_of_getElem? hb)
    have hrep : Reassembly.Represents capacity (e.session.gather, b) e.state := ⟨rfl, hs, hlen⟩
    have hshort : call.payload.length < 2 ^ 32 := by
      have hdata := frame.data.length_le
      rw [Call.payload, List.length_dropLast]
      simp only [hcall, callOf]
      omega
    obtain ⟨out, hpush, hout, hseen⟩ :=
      (Reassembly.pushFrame_represents hrep t.timeout call).resolve_right
        fun h ↦ absurd hshort (Nat.not_lt.mpr h.2)
    obtain ⟨q', hset, hq'⟩ := hl'.lists.set hSN (e.push t.timeout call) rfl
    have hsession : Session.mk out.2.1 e.session.bufferIdx = (e.push t.timeout call).session :=
      congrArg (Session.mk · e.bufferIdx) hout.gather
    have hidx : e.bufferIdx < t.buffers.length := (List.getElem?_eq_some_iff.mp hb).1
    have hnodup := (owned_middle SN as bs e).nodup_iff.mp hl'.distinct
    refine ⟨q', _, hadmits, .inr ⟨as, e, bs, out.2.2, out.1, rfl, rfl, ?_, ?_, hout.capacity,
      hseen⟩⟩
    · rw [reassemble, hadmit, ok_bind]
      simp only [hl'.lists.get_eq hSN he, ok_bind]
      have hbuf : index t.buffers e.session.bufferIdx = .ok b := index_of_getElem? hb
      have hpush : e.session.gather.pushFrame t.timeout b frame.header.priority frame.data.bytes
          frame.timestamp = .ok out := hpush
      rw [hbuf, ok_bind, hpush, ok_bind]
      simp only [hsession, hset, ok_bind]
      have hassign : assign t.buffers e.session.bufferIdx out.2.2 =
        .ok (t.buffers.set e.bufferIdx out.2.2) := assign_of_lt hidx _
      rw [hassign]
      rfl
    · refine hl'.replace hq' (List.nodup_cons.mp hnodup).1 (b := out.2.2)
        (List.getElem?_set_self hidx) hout.stores ?_ ?_ List.length_set
      · intro i hi
        have hne : e.bufferIdx ≠ i := fun heq ↦ (List.nodup_cons.mp hnodup).1 (heq ▸ hi)
        exact List.getElem?_set_ne hne
      · intro b' hb'
        exact (List.mem_or_eq_of_mem_set hb').elim (hl'.capacity b') fun heq ↦ heq ▸ hout.capacity
  · refine ⟨q, l', hadmits, .inl ⟨hsource, ?_, hl'⟩⟩
    rw [reassemble, hadmit, ok_bind]
    simp only [hl'.lists.get_eq_none hSN hsource, ok_bind, pure_eq_ok]

end SessionTable

end Emcyphal
