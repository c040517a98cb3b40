import Emcyphal.Gather.Reassembly
import Emcyphal.Lib.ErrorDetection
import Mathlib.Data.Finset.Card

/-!
# Corrupted transfers are rejected

The bytes of a multi-frame transfer and its CRC have residue zero.  If they are corrupted in a way
that the CRC is made for, by a burst of up to 16 bits or in an odd number of bits, the residue of
what is received is not zero (`residue_ne_zero`), however the bytes are split into frames.

The CRC is a shift register that the bits of the stream go through (`addBytes_eq_shiftIn`), so this
is what `ErrorDetection` says about the difference of the two streams.
-/

set_option autoImplicit false

namespace Emcyphal

open Rust

/-! ## The stream of bits -/

/-- The bits of a message in the order in which the CRC is computed, the most significant bit of
each byte first. -/
def stream (bytes : List Byte) : List Bool := bytes.flatMap ShiftRegister.bitsOf

/-- The positions of the bits that differ. -/
def errors (sent received : List Byte) : Finset ℕ :=
  (Finset.range (stream sent).length).filter fun i ↦ (stream sent)[i]? ≠ (stream received)[i]?

/-- There are errors, within 16 consecutive bits or in an odd number of bits. -/
def Detectable (sent received : List Byte) : Prop :=
  (errors sent received).Nonempty ∧
    ((∃ start, ∀ i ∈ errors sent received, start ≤ i ∧ i < start + 16) ∨
      Odd (errors sent received).card)

theorem length_stream (bytes : List Byte) : (stream bytes).length = 8 * bytes.length := by
  induction bytes with
  | nil => rfl
  | cons b bytes ih =>
    rw [stream, List.flatMap_cons, List.length_append, ShiftRegister.length_bitsOf,
      List.length_cons, ← stream, ih]
    omega

/-- The CRC of a message, bit by bit. -/
theorem TransferCrc.addBytes_eq_shiftIn (crc : TransferCrc) (bytes : List Byte) :
    (crc.addBytes bytes).val = ShiftRegister.shiftIn POLYNOMIAL crc.val (stream bytes) := by
  induction bytes generalizing crc with
  | nil => rfl
  | cons b bytes ih =>
    rw [stream, List.flatMap_cons, ShiftRegister.shiftIn_append,
      ← ShiftRegister.feed_eq_shiftIn POLYNOMIAL (by decide), ← add_eq_feed]
    exact ih (crc.add b)

section Difference

variable {sent received : List Byte}

/-- The difference of two messages. -/
def difference (sent received : List Byte) : List Bool :=
  List.zipWith xor (stream sent) (stream received)

theorem mem_errors (hlen : received.length = sent.length) {i : ℕ} :
    i ∈ errors sent received ↔ (difference sent received)[i]? = some true := by
  have hstreams : (stream received).length = (stream sent).length := by
    rw [length_stream, length_stream, hlen]
  rw [errors, Finset.mem_filter, Finset.mem_range, difference, List.getElem?_zipWith]
  rcases Nat.lt_or_ge i (stream sent).length with hi | hi
  · rw [List.getElem?_eq_getElem hi, List.getElem?_eq_getElem (by rw [hstreams]; exact hi)]
    cases (stream sent)[i] <;> cases (stream received)[i] <;> simp [hi]
  · rw [List.getElem?_eq_none hi]
    simp [hi]

/-- A position without an error. -/
theorem difference_eq_false (hlen : received.length = sent.length) {i : ℕ}
    (hi : i < (difference sent received).length) (herror : i ∉ errors sent received) :
    (difference sent received)[i] = false := by
  rw [mem_errors hlen, List.getElem?_eq_getElem hi] at herror
  exact Bool.eq_false_iff.mpr fun h ↦ herror (congrArg some h)

/-- How many bits of a list are set. -/
theorem card_filter_getElem? (bits : List Bool) (s : Finset ℕ)
    (hs : ∀ i, i ∈ s ↔ bits[i]? = some true) : s.card = bits.count true := by
  induction bits using List.reverseRecOn generalizing s with
  | nil =>
    have hempty : s = ∅ := Finset.eq_empty_of_forall_notMem fun i hi ↦ by simpa using (hs i).mp hi
    rw [hempty]
    rfl
  | append_singleton bits b ih =>
    have hrest : ∀ i, i ∈ s.erase bits.length ↔ bits[i]? = some true := by
      intro i
      rw [Finset.mem_erase, hs]
      rcases Nat.lt_trichotomy i bits.length with hlt | rfl | hgt
      · rw [List.getElem?_append_left hlt]
        exact and_iff_right hlt.ne
      · simp
      · rw [List.getElem?_eq_none (by rw [List.length_append, List.length_singleton]; omega),
          List.getElem?_eq_none hgt.le]
        simp
    have hlast : bits.length ∈ s ↔ b = true := by rw [hs, List.getElem?_concat_length]; simp
    have hcard := ih (s.erase bits.length) hrest
    rw [List.count_append, ← hcard]
    cases b with
    | true => rw [← Finset.card_erase_add_one (hlast.mpr rfl)]; rfl
    | false =>
      rw [Finset.erase_eq_of_notMem fun h ↦ absurd (hlast.mp h) Bool.false_ne_true]
      rfl

/-- What the CRC makes of the difference of the messages. -/
theorem shiftIn_difference (hlen : received.length = sent.length)
    (hsent : (TransferCrc.default.addBytes sent).val = 0#16)
    (hreceived : (TransferCrc.default.addBytes received).val = 0#16) :
    ShiftRegister.shiftIn TransferCrc.POLYNOMIAL 0#16 (difference sent received) = 0#16 := by
  have hstreams : (stream sent).length = (stream received).length := by
    rw [length_stream, length_stream, hlen]
  have hlinear := ShiftRegister.shiftIn_xor TransferCrc.POLYNOMIAL TransferCrc.default.val
    TransferCrc.default.val hstreams
  rw [← TransferCrc.addBytes_eq_shiftIn, ← TransferCrc.addBytes_eq_shiftIn, hsent, hreceived,
    BitVec.xor_self, BitVec.xor_self] at hlinear
  exact hlinear

/-- A burst of errors, with what is in front of it and behind it. -/
theorem difference_eq_burst (hlen : received.length = sent.length) {start : ℕ}
    (hburst : ∀ i ∈ errors sent received, start ≤ i ∧ i < start + 16) :
    difference sent received =
      List.replicate (min start (difference sent received).length) false ++
        ((difference sent received).drop start).take 16 ++
        List.replicate ((difference sent received).length - (start + 16)) false := by
  have hbefore : (difference sent received).take start =
      List.replicate (min start (difference sent received).length) false := by
    rw [List.eq_replicate_iff, List.length_take]
    refine ⟨rfl, fun b hb ↦ ?_⟩
    obtain ⟨i, hi, rfl⟩ := List.mem_iff_getElem.mp hb
    rw [List.length_take] at hi
    rw [List.getElem_take]
    refine difference_eq_false hlen (by omega) fun herror ↦ ?_
    have := (hburst i herror).1
    omega
  have hafter : (difference sent received).drop (start + 16) =
      List.replicate ((difference sent received).length - (start + 16)) false := by
    rw [List.eq_replicate_iff, List.length_drop]
    refine ⟨rfl, fun b hb ↦ ?_⟩
    obtain ⟨i, hi, rfl⟩ := List.mem_iff_getElem.mp hb
    rw [List.length_drop] at hi
    rw [List.getElem_drop]
    refine difference_eq_false hlen (by omega) fun herror ↦ ?_
    have := (hburst _ herror).2
    omega
  rw [← hbefore, ← hafter, ← List.drop_drop, List.append_assoc, List.take_append_drop,
    List.take_append_drop]

/-- **The residue of a corrupted message is not zero.** -/
theorem residue_ne_zero (hsent : (TransferCrc.default.addBytes sent).get = 0)
    (hlen : received.length = sent.length) (herrors : Detectable sent received) :
    (TransferCrc.default.addBytes received).get ≠ 0 := by
  intro hreceived
  have hzero := shiftIn_difference hlen hsent hreceived
  obtain ⟨⟨i, hi⟩, ⟨start, hburst⟩ | hodd⟩ := herrors
  · have hmem := (mem_errors hlen).mp hi
    obtain ⟨hlt, hset⟩ := List.getElem?_eq_some_iff.mp hmem
    obtain ⟨hstart, hend⟩ := hburst i hi
    have hin : (difference sent received)[i] ∈ ((difference sent received).drop start).take 16 := by
      refine List.mem_iff_getElem.mpr ⟨i - start, ?_, ?_⟩
      · rw [List.length_take, List.length_drop]
        omega
      · rw [List.getElem_take, List.getElem_drop]
        congr 1
        omega
    have hshort : (((difference sent received).drop start).take 16).length ≤ 16 :=
      List.length_take_le 16 _
    rw [difference_eq_burst hlen hburst] at hzero
    have hclear := ShiftRegister.burst_detected TransferCrc.POLYNOMIAL (by decide) hshort hzero
    rw [hclear _ hin] at hset
    exact absurd hset Bool.false_ne_true
  · rw [card_filter_getElem? _ _ fun i ↦ mem_errors hlen] at hodd
    exact ShiftRegister.odd_detected TransferCrc.POLYNOMIAL (by decide) (by decide) hodd hzero

end Difference

/-! ## Appending segments -/

namespace PayloadAccumulator

/-- Appends the segments to a new accumulator, one after the other, and gets the length of the
payload.  Fails as soon as one of the calls does. -/
def collect (buffer : List Byte) (segments : List (List Byte)) : Option ℕ := do
  let r ← segments.foldlM (fun r segment ↦ r.1.append r.2 segment) (default, buffer)
  r.1.tryGet

theorem crc_append {acc acc' : PayloadAccumulator} {buffer buffer' segment : List Byte}
    (h : acc.append buffer segment = some (acc', buffer')) :
    acc'.crc = acc.crc.addBytes segment := by
  simp only [append, Option.bind_eq_bind, Option.bind_eq_some_iff] at h
  obtain ⟨len, -, newLength, -, hret⟩ := h
  cases hret
  rfl

/-- The CRC does not depend on where the segments begin. -/
theorem crc_foldlM {segments : List (List Byte)} {acc acc' : PayloadAccumulator}
    {buffer buffer' : List Byte}
    (h : segments.foldlM (fun r segment ↦ r.1.append r.2 segment) (acc, buffer) =
      some (acc', buffer')) : acc'.crc = acc.crc.addBytes segments.flatten := by
  induction segments generalizing acc buffer with
  | nil =>
    cases h
    rfl
  | cons segment segments ih =>
    rw [List.foldlM_cons, Option.bind_eq_bind, Option.bind_eq_some_iff] at h
    obtain ⟨⟨acc₁, buffer₁⟩, happend, hrest⟩ := h
    rw [ih hrest, crc_append happend, List.flatten_cons, TransferCrc.addBytes_append]

/-- **Corrupted payloads are rejected**, however they are split into segments. -/
theorem collect_corrupted {sent received : List Byte}
    (hsent : (TransferCrc.default.addBytes sent).get = 0)
    (hlen : received.length = sent.length) (herrors : Detectable sent received)
    (buffer : List Byte) {segments : List (List Byte)} (hsplit : segments.flatten = received) :
    collect buffer segments = none := by
  rw [collect]
  cases hfold : segments.foldlM (fun r segment ↦ r.1.append r.2 segment)
      (PayloadAccumulator.default, buffer) with
  | none => rfl
  | some r =>
    obtain ⟨acc, buffer'⟩ := r
    have hcrc : acc.crc = TransferCrc.default.addBytes received := by
      rw [crc_foldlM hfold, hsplit]
      rfl
    refine if_neg fun hget ↦ residue_ne_zero hsent hlen herrors ?_
    rw [← hcrc]
    exact hget.2

/-- A single bit of a CRC. -/
theorem collect_corrupted_bit : collect [0, 0] [[0xff], [], [0xfe]] = none :=
  @collect_corrupted [0xff, 0xff] [0xff, 0xfe] (by decide +kernel) rfl
    ⟨⟨15, by decide +kernel⟩, .inl ⟨15, by decide +kernel⟩⟩ [0, 0] [[0xff], [], [0xfe]] rfl

end PayloadAccumulator

end Emcyphal
