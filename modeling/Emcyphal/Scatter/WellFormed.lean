import Emcyphal.Scatter.Emission
import Mathlib.Order.Bounds.Basic

/-!
# The frames of a transfer, one by one

`WellFormed` is what a receiver may expect of the frames of a transfer, in terms of their positions:
where the start and the end of the transfer are marked, which toggle bit a frame has, how long it
is, and what all of them carry together.  `well_formed` says that a `Scatter` emits such frames for
every payload and all MTUs, and is exhausted with the last one.

`Segmented` is about the frames in the order in which they are sent, so each of its consequences is
an induction over them.
-/

set_option autoImplicit false

namespace Emcyphal

open Rust

namespace Scatter

/-- What a frame carries. -/
def carried (frame : Data) : List Byte := frame.bytes.dropLast

/-- How many bytes have to be sent, with the CRC if the first frame cannot take all of the
payload. -/
def needed (payload : List Byte) (mtus : ℕ → Mtu) : ℕ :=
  if payload.length + TAIL_LENGTH ≤ (mtus 0).toUsize then payload.length
  else payload.length + CRC_LENGTH

/-- The frames of a transfer that were fetched with the MTUs `mtus 0`, `mtus 1`, … -/
structure WellFormed (tid : TransferId) (payload : List Byte) (mtus : ℕ → Mtu)
    (frames : List Data) : Prop where
  nonempty : frames ≠ []
  /-- The first frame starts the transfer, the last one ends it, and the toggle bits alternate. -/
  tail : ∀ i frame, frames[i]? = some frame → frame.bytes.getLast? =
    some (TailByte.new (decide (i = 0)) (decide (i + 1 = frames.length))
      (SOT_TOGGLE_BIT ^^ decide (i % 2 = 1)) tid).val
  valid : ∀ frame ∈ frames, frame.bytes.length ∈ validLengths
  mtu : ∀ i frame, frames[i]? = some frame → frame.bytes.length ≤ (mtus i).toUsize
  full : ∀ i frame, frames[i]? = some frame → i + 1 ≠ frames.length →
    frame.bytes.length = (mtus i).toUsize
  /-- The last frame is as short as what is left to send allows. -/
  shortest : ∀ init frame, frames = init ++ [frame] → IsLeast
    {len | len ∈ validLengths ∧
      needed payload mtus - (init.map carried).flatten.length + TAIL_LENGTH ≤ len}
    frame.bytes.length
  single : payload.length + TAIL_LENGTH ≤ (mtus 0).toUsize → ∃ pad,
    frames.map carried = [payload ++ List.replicate pad PAD_VALUE]
  multi : (mtus 0).toUsize < payload.length + TAIL_LENGTH → ∃ pad,
    (frames.map carried).flatten = payload ++ List.replicate pad PAD_VALUE ++
      (TransferCrc.default.addBytes (payload ++ List.replicate pad PAD_VALUE)).toBeBytes

namespace Segmented

variable {tid : TransferId} {sot toggle : Bool} {mtus : ℕ → Mtu} {left : ℕ} {frames : List Data}
  {bytes : List Byte}

theorem ne_nil (h : Segmented tid sot toggle mtus left frames bytes) : frames ≠ [] := by
  cases h <;> simp

theorem carried_eq {frame : Data} {payload : List Byte} {sot eot toggle : Bool}
    (h : frame.bytes = frameData payload sot eot toggle tid) : carried frame = payload := by
  rw [carried, h, frameData, List.dropLast_concat]

theorem flatten (h : Segmented tid sot toggle mtus left frames bytes) :
    (frames.map carried).flatten = bytes := by
  induction h with
  | last hfit hlen hbytes =>
    rw [List.map_singleton, carried_eq hbytes, List.flatten_singleton]
  | more hfit hlen hbytes hrest ih =>
    rw [List.map_cons, carried_eq hbytes, List.flatten_cons, ih]

theorem tail (h : Segmented tid sot toggle mtus left frames bytes) (i : ℕ) (frame : Data)
    (hi : frames[i]? = some frame) : frame.bytes.getLast? =
      some (TailByte.new (sot && decide (i = 0)) (decide (i + 1 = frames.length))
        (toggle ^^ decide (i % 2 = 1)) tid).val := by
  induction h generalizing i with
  | last hfit hlen hbytes =>
    cases i with
    | zero =>
      obtain rfl := Option.some.inj hi
      rw [hbytes, frameData, List.getLast?_concat]
      simp
    | succ i => cases hi
  | @more sot toggle mtus left first frames payload rest hfit hlen hbytes hrest ih =>
    cases i with
    | zero =>
      obtain rfl := Option.some.inj hi
      have hone : 0 + 1 ≠ (first :: frames).length := by
        have := List.length_pos_iff.mpr hrest.ne_nil
        rw [List.length_cons]
        omega
      rw [hbytes, frameData, List.getLast?_concat, decide_eq_false hone]
      simp
    | succ i =>
      have htoggle : (toggle ^^ decide ((i + 1) % 2 = 1)) = (!toggle ^^ decide (i % 2 = 1)) := by
        rcases Nat.mod_two_eq_zero_or_one i with h | h
        · rw [Nat.add_mod, h]
          simp
        · rw [Nat.add_mod, h]
          simp
      rw [ih i hi, htoggle, List.length_cons]
      simp

theorem mtu (h : Segmented tid sot toggle mtus left frames bytes) (i : ℕ) (frame : Data)
    (hi : frames[i]? = some frame) : frame.bytes.length ≤ (mtus i).toUsize ∧
      (i + 1 ≠ frames.length → frame.bytes.length = (mtus i).toUsize) := by
  induction h generalizing i with
  | last hfit hlen hbytes =>
    cases i with
    | zero =>
      obtain rfl := Option.some.inj hi
      exact ⟨hlen.le.trans (DataLength.ceil_le_mtu hfit), fun h ↦ absurd rfl h⟩
    | succ i => cases hi
  | more hfit hlen hbytes hrest ih =>
    cases i with
    | zero =>
      obtain rfl := Option.some.inj hi
      exact ⟨hlen.le, fun _ ↦ hlen⟩
    | succ i =>
      obtain ⟨hle, hfull⟩ := ih i hi
      exact ⟨hle, fun h ↦ hfull fun h' ↦ h (by rw [List.length_cons, h'])⟩

theorem shortest (h : Segmented tid sot toggle mtus left frames bytes) (init : List Data)
    (frame : Data) (hframes : frames = init ++ [frame]) : frame.bytes.length =
      DataLength.ceil (left - (init.map carried).flatten.length + TAIL_LENGTH) := by
  induction h generalizing init with
  | last hfit hlen hbytes =>
    cases init with
    | nil =>
      obtain ⟨rfl, -⟩ := List.cons.inj hframes
      exact hlen
    | cons first init => simp at hframes
  | @more sot toggle mtus left first frames payload rest hfit hlen hbytes hrest ih =>
    cases init with
    | nil => exact absurd (List.cons.inj hframes).2 hrest.ne_nil
    | cons first' init =>
      obtain ⟨rfl, hrest'⟩ := List.cons.inj hframes
      rw [ih init hrest', List.map_cons, List.flatten_cons, List.length_append, carried_eq hbytes,
        Nat.sub_sub]

end Segmented

/-- What the segments say about the frames, whatever they carry. -/
theorem Segmented.wellFormed {tid : TransferId} {payload bytes : List Byte} {mtus : ℕ → Mtu}
    {frames : List Data}
    (h : Segmented tid true SOT_TOGGLE_BIT mtus (needed payload mtus) frames bytes)
    (hsingle : payload.length + TAIL_LENGTH ≤ (mtus 0).toUsize → frames.length = 1 ∧
      ∃ pad, bytes = payload ++ List.replicate pad PAD_VALUE)
    (hmulti : (mtus 0).toUsize < payload.length + TAIL_LENGTH → ∃ pad,
      bytes = payload ++ List.replicate pad PAD_VALUE ++
        (TransferCrc.default.addBytes (payload ++ List.replicate pad PAD_VALUE)).toBeBytes) :
    WellFormed tid payload mtus frames where
  nonempty := h.ne_nil
  tail := h.tail
  valid := fun frame _ ↦ frame.valid
  mtu := fun i frame hi ↦ (h.mtu i frame hi).1
  full := fun i frame hi ↦ (h.mtu i frame hi).2
  shortest := by
    intro init frame hframes
    have hlen := h.shortest init frame hframes
    refine ⟨⟨frame.valid, ?_⟩, fun len hmem ↦ ?_⟩
    · rw [hlen]
      exact DataLength.le_ceil _
    · rw [hlen]
      exact DataLength.ceil_le_of_mem hmem.2 hmem.1
  single := by
    intro hfit
    obtain ⟨hone, pad, hbytes⟩ := hsingle hfit
    obtain ⟨frame, rfl⟩ := List.length_eq_one_iff.mp hone
    have hflatten := h.flatten
    rw [List.map_singleton, List.flatten_singleton] at hflatten
    exact ⟨pad, by rw [List.map_singleton, hflatten, hbytes]⟩
  multi := by
    intro hlong
    rw [h.flatten]
    exact hmulti hlong

/-- **A `Scatter` emits well-formed transfers**: for every payload and all MTUs the calls return
finitely many frames before they return nothing, without a panic, and the `Scatter` is exhausted
exactly with the frame that ends the transfer. -/
theorem well_formed (tid : TransferId) {buffer : List Byte} {length : ℕ}
    (hlength : length ≤ buffer.length) (mtus : ℕ → Mtu) :
    let payload := buffer.take length
    let s := new tid length (TransferCrc.default.addBytes payload)
    s.isExhausted = false ∧
      ∃ frames, Observes buffer s mtus frames ∧ WellFormed tid payload mtus frames := by
  intro payload s
  have hpayload : payload.length = length := by rw [List.length_take, Nat.min_eq_left hlength]
  obtain ⟨frames, pad, hobserves, -, h⟩ :=
    observes_new tid hlength (TransferCrc.default.addBytes payload) mtus
  refine ⟨rfl, frames, hobserves, ?_⟩
  rcases h with ⟨hfit, hone, hsegmented⟩ | ⟨hlong, hsegmented⟩
  · rw [← hpayload] at hfit
    have hneeded : needed payload mtus = length := by rw [needed, if_pos hfit, hpayload]
    exact Segmented.wellFormed (hneeded ▸ hsegmented) (fun _ ↦ ⟨hone, pad, rfl⟩) fun hlong ↦
      absurd hfit (Nat.not_le.mpr hlong)
  · rw [← hpayload] at hlong
    have hneeded : needed payload mtus = length + CRC_LENGTH := by
      rw [needed, if_neg (Nat.not_le.mpr hlong), hpayload]
    refine Segmented.wellFormed (hneeded ▸ hsegmented)
      (fun hfit ↦ absurd hfit (Nat.not_le.mpr hlong)) fun _ ↦ ⟨pad, ?_⟩
    rw [TransferCrc.addBytes_append]
    rfl

/-- Nine bytes of a longer buffer, in frames of both MTUs. -/
theorem well_formed_nine : ∃ frames,
    Observes (List.replicate 20 7)
      (new 5 9 (TransferCrc.default.addBytes ((List.replicate 20 7).take 9)))
      (fun n ↦ if n = 0 then .classic else .fd) frames ∧
    WellFormed 5 ((List.replicate 20 7).take 9) (fun n ↦ if n = 0 then .classic else .fd) frames :=
  (well_formed 5 (by decide) _).2

end Scatter

end Emcyphal
