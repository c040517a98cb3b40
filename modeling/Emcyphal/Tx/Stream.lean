import Emcyphal.Lib.Path
import Emcyphal.Scatter.Emission
import Emcyphal.Tx.Ledger
import Emcyphal.Tx.Mailbox

/-!
# The frames of a sequence of transfers

A buffer that keeps one transfer sends the transfers in the order of the pushes, each of them
completely.  So its frames are a stream, and a `Cursor` is a place in the stream: the sender is at
one, and whoever gets the frames in the same order is at another one that comes earlier.

`Complete.encodes` says what the frames of one transfer are on the wire.
-/

set_option autoImplicit false

namespace Emcyphal

open Rust

/-- The frames of the transfers that come before, and those of the next transfer so far. -/
structure Cursor where
  done : List (List Frame)
  frames : List Frame

namespace Cursor

def start : Cursor := ⟨[], []⟩

/-- All frames that come before. -/
def all (c : Cursor) : List Frame := c.done.flatten ++ c.frames

/-- The next frame in the stream of the transfers. -/
inductive Step (transfers : List Outgoing) (p : Priority) (d : DataSpecifier) :
    Cursor → Frame → Cursor → Prop
  | more {done : List (List Frame)} {frames : List Frame} {o : Outgoing} {s s' : Scatter}
      {mtu : Mtu} {data : Data} (ho : transfers[done.length]? = some o)
      (hyields : o.Yields p d frames s) (hfetched : s.Fetched o.buffer mtu data s')
      (hleft : s'.isExhausted = false) :
      Step transfers p d ⟨done, frames⟩ (o.frame p d data) ⟨done, frames ++ [o.frame p d data]⟩
  | last {done : List (List Frame)} {frames : List Frame} {o : Outgoing} {s s' : Scatter}
      {mtu : Mtu} {data : Data} (ho : transfers[done.length]? = some o)
      (hyields : o.Yields p d frames s) (hfetched : s.Fetched o.buffer mtu data s')
      (hdone : s'.isExhausted = true) :
      Step transfers p d ⟨done, frames⟩ (o.frame p d data)
        ⟨done ++ [frames ++ [o.frame p d data]], []⟩

/-- The cursor is a place in the stream of the transfers. -/
structure Within (c : Cursor) (transfers : List Outgoing) (p : Priority) (d : DataSpecifier) :
    Prop where
  complete : List.Forall₂ (fun o frames ↦ o.Complete p d frames) (transfers.take c.done.length)
    c.done
  started : c.frames = [] ∨ ∃ o s, transfers[c.done.length]? = some o ∧ o.Started p d c.frames s

/-- Where the sender is, by the transfer that it has left to send. -/
inductive Sending (transfers : List Outgoing) (p : Priority) (d : DataSpecifier) :
    Option Outgoing → Cursor → Prop
  | idle {done : List (List Frame)} (hlength : done.length = transfers.length) :
      Sending transfers p d none ⟨done, []⟩
  | busy {done : List (List Frame)} {frames : List Frame} {o : Outgoing} {s : Scatter}
      (hlength : done.length + 1 = transfers.length) (ho : transfers[done.length]? = some o)
      (hyields : o.Yields p d frames s) :
      Sending transfers p d (some { o with scatter := s }) ⟨done, frames⟩

variable {transfers : List Outgoing} {p : Priority} {d : DataSpecifier} {c c' : Cursor} {f : Frame}
  {o : Outgoing}

theorem within_start (p : Priority) (d : DataSpecifier) : start.Within transfers p d :=
  ⟨.nil, .inl rfl⟩

theorem Step.all_eq (h : Step transfers p d c f c') : c'.all = c.all ++ [f] := by
  cases h <;> simp [all]

/-- The transfers that are pushed later do not matter. -/
theorem Step.append (h : Step transfers p d c f c') (later : List Outgoing) :
    Step (transfers ++ later) p d c f c' := by
  have hget : ∀ {n : ℕ} {o : Outgoing}, transfers[n]? = some o →
      (transfers ++ later)[n]? = some o := by
    intro n o ho
    rw [List.getElem?_append_left (List.getElem?_eq_some_iff.mp ho).1, ho]
  cases h with
  | more ho hyields hfetched hleft => exact .more (hget ho) hyields hfetched hleft
  | last ho hyields hfetched hdone => exact .last (hget ho) hyields hfetched hdone

theorem Within.step (h : c.Within transfers p d) (hstep : Step transfers p d c f c') :
    c'.Within transfers p d := by
  cases hstep with
  | more ho hyields hfetched hleft =>
    exact ⟨h.complete, .inr ⟨_, _, ho, hyields.snoc hfetched, hleft⟩⟩
  | last ho hyields hfetched hdone =>
    refine ⟨?_, .inl rfl⟩
    rw [List.length_append, List.length_singleton, List.take_add_one, ho]
    exact List.rel_append h.complete (.cons ⟨_, hyields.snoc hfetched, hdone⟩ .nil)

/-- The frames of a path are those between the two places. -/
theorem Within.path {frames : List Frame} (hpath : Path (Step transfers p d) c frames c')
    (h : c.Within transfers p d) : c'.Within transfers p d ∧ c'.all = c.all ++ frames := by
  induction hpath with
  | nil => exact ⟨h, (List.append_nil _).symm⟩
  | cons hstep _ ih =>
    obtain ⟨hwithin, hall⟩ := ih (h.step hstep)
    exact ⟨hwithin, by rw [hall, hstep.all_eq, List.append_assoc, List.singleton_append]⟩

/-- Another transfer is pushed once all others are sent. -/
theorem Sending.push (h : Sending transfers p d none c) (o : Outgoing) :
    Sending (transfers ++ [o]) p d (some o) c := by
  cases h with
  | idle hlength =>
    refine .busy (o := o) (s := o.scatter) (by simp [hlength]) ?_ .nil
    rw [hlength]
    exact List.getElem?_concat_length ..

/-- The sender sends the next frame. -/
theorem Sending.send (h : Sending transfers p d (some o) c) {mtu : Mtu} {data : Data}
    {rest : Option Outgoing} (hsends : o.Sends mtu data rest) :
    ∃ c', Step transfers p d c (o.frame p d data) c' ∧ Sending transfers p d rest c' := by
  cases h with
  | @busy done frames o s hlength ho hyields =>
    cases hsends with
    | more hfetched hleft =>
      exact ⟨_, .more (o := o) ho hyields hfetched hleft,
        .busy (o := o) hlength ho (hyields.snoc hfetched)⟩
    | last hfetched hdone =>
      exact ⟨_, .last (o := o) ho hyields hfetched hdone, .idle (by simpa using hlength)⟩

end Cursor

/-! ## A transfer on the wire -/

namespace Outgoing

/-- Nothing was sent of the transfer yet. -/
def Whole (o : Outgoing) (tid : TransferId) : Prop :=
  o.scatter = .new tid o.buffer.length (TransferCrc.default.addBytes o.buffer)

variable {o : Outgoing} {p : Priority} {d : DataSpecifier} {frames : List Frame} {s : Scatter}
  {tid : TransferId}

theorem Yields.dataLength (h : o.Yields p d frames s) : s.dataLength = o.scatter.dataLength := by
  induction h with
  | nil => rfl
  | snoc _ hfetched ih => exact hfetched.dataLength.trans ih

theorem Yields.offset_eq_zero_iff (h : o.Yields p d frames s) (ho : o.Whole tid) :
    s.offset = 0 ↔ frames = [] := by
  cases h with
  | nil => exact iff_of_true (congrArg Scatter.offset ho) rfl
  | snoc _ hfetched =>
    exact iff_of_false (Nat.ne_of_gt (Nat.zero_lt_of_lt hfetched.offset)) (List.concat_ne_nil _ _)

/-- The first frame is the one that starts the transfer. -/
theorem Yields.sot (h : o.Yields p d frames s) (ho : o.Whole tid) {s' : Scatter} {mtu : Mtu}
    {data : Data} (hfetched : s.Fetched o.buffer mtu data s') :
    isSotFrame (o.frame p d data) = some (decide (frames = [])) := by
  have hlength : s.dataLength = o.buffer.length :=
    h.dataLength.trans (congrArg Scatter.dataLength ho)
  have hready : s.Ready o.buffer.length :=
    ⟨hlength.le, hfetched.offset.trans_le hfetched.bound⟩
  rw [isSotFrame, frame, hfetched.sot hready]
  exact congrArg some (decide_eq_decide.mpr (h.offset_eq_zero_iff ho))

/-- The calls that have returned the frames. -/
theorem Yields.fetches (h : o.Yields p d frames s) : ∃ mtus : List Mtu,
    mtus.length = frames.length ∧ run (Scatter.fetch o.buffer) o.scatter mtus =
      .ok (s, frames.map fun f ↦ some f.data) := by
  induction h with
  | nil => exact ⟨[], rfl, rfl⟩
  | @snoc frames s s' mtu data h hfetched ih =>
    obtain ⟨mtus, hlength, hrun⟩ := ih
    refine ⟨mtus ++ [mtu], by simp [hlength], ?_⟩
    refine run_concat_eq_ok.mpr ⟨s, _, some data, hrun, ?_, by simp [frame]⟩
    rw [Scatter.fetch, hfetched.eq]
    rfl

/-- All frames of a transfer are what its `Scatter` emits. -/
theorem Complete.emits (h : o.Complete p d frames) : ∃ mtus : ℕ → Mtu,
    Scatter.Emits o.buffer o.scatter mtus (frames.map Frame.data) := by
  obtain ⟨s, hyields, hdone⟩ := h
  obtain ⟨mtus, hlength, hrun⟩ := hyields.fetches
  refine ⟨fun n ↦ mtus.getD n .classic, s, ?_⟩
  have hmtus : (List.range ((frames.map Frame.data).length + 1)).map
      (fun n ↦ mtus.getD n .classic) = mtus ++ [.classic] := by
    rw [List.length_map, ← hlength]
    refine List.ext_getElem (by simp) fun n hn hn' ↦ ?_
    rw [List.getElem_map, List.getElem_range]
    rcases Nat.lt_or_ge n mtus.length with hlt | hge
    · rw [List.getElem_append_left hlt, List.getD_eq_getElem?_getD, List.getElem?_eq_getElem hlt,
        Option.getD_some]
    · obtain rfl : n = mtus.length := by simp at hn; omega
      simp
  rw [hmtus]
  refine run_concat_eq_ok.mpr ⟨s, _, none, hrun, ?_, by simp [Function.comp_def]⟩
  rw [Scatter.fetch, Scatter.fetchFrameData_none _ _ (by simpa [Scatter.isExhausted] using hdone)]
  rfl

/-- **The frames of a transfer encode its data**, followed by padding. -/
theorem Complete.encodes (h : o.Complete p d frames) (ho : o.Whole tid) :
    ∃ pad, pad ≤ 15 ∧ Encodes tid (frames.map fun f ↦ f.data.bytes)
      (o.buffer ++ List.replicate pad PAD_VALUE) := by
  obtain ⟨mtus, hemits⟩ := h.emits
  rw [Whole.eq_def] at ho
  rw [ho] at hemits
  obtain ⟨datas, pad, hemits', hpad, hencodes⟩ := Scatter.emits_encodes tid o.buffer mtus
  rw [← hemits.unique hemits', List.map_map] at hencodes
  exact ⟨pad, hpad, hencodes⟩

end Outgoing

/-- The transfers are whole, and have these ids. -/
def Numbered (transfers : List Outgoing) (ids : ℕ → TransferId) : Prop :=
  ∀ (n : ℕ) (o : Outgoing), transfers[n]? = some o → o.Whole (ids n)

namespace Cursor

variable {transfers : List Outgoing} {p : Priority} {d : DataSpecifier} {c c' : Cursor} {f : Frame}
  {ids : ℕ → TransferId}

theorem Step.sot (h : Step transfers p d c f c') (hids : Numbered transfers ids) :
    isSotFrame f = some (decide (c.frames = [])) := by
  cases h with
  | more ho hyields hfetched | last ho hyields hfetched =>
    exact hyields.sot (hids _ _ ho) hfetched

/-- The frame that ends a transfer leads to the start of the next one. -/
theorem Step.eot (h : Step transfers p d c f c') :
    isEotFrame f = some (decide (c'.frames = [])) := by
  cases h with
  | more ho hyields hfetched hleft =>
    rw [decide_eq_false (List.concat_ne_nil _ _), ← hleft]
    exact hfetched.eot
  | last ho hyields hfetched hdone =>
    rw [decide_eq_true rfl, ← hdone]
    exact hfetched.eot

end Cursor

end Emcyphal
