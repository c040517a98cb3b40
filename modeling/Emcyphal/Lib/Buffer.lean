import Mathlib.Data.List.Basic

/-!
# Filling a buffer of limited capacity

A buffer is a list whose length is its capacity.  Data longer than the capacity is truncated, so
what a buffer can say about the data is `Stores`: they agree as far as both go.  Appending a segment
at the end of what is stored, cut to the room that is left, keeps that (`stores_overwrite`).
-/

set_option autoImplicit false

namespace Rust

universe u

variable {α : Type u}

/-- `xs` after `seg` was copied over the elements from `off` on.  The range has to lie inside `xs`
for the length to be kept. -/
def overwrite (xs : List α) (off : ℕ) (seg : List α) : List α :=
  xs.take off ++ seg ++ xs.drop (off + seg.length)

@[simp] theorem length_overwrite {xs seg : List α} {off : ℕ} (h : off + seg.length ≤ xs.length) :
    (overwrite xs off seg).length = xs.length := by
  simp only [overwrite, List.length_append, List.length_take, List.length_drop]
  omega

/-- What is there already can be written again. -/
theorem overwrite_overwrite {xs seg : List α} {off : ℕ} (h : off + seg.length ≤ xs.length) :
    overwrite (overwrite xs off seg) off seg = overwrite xs off seg := by
  have htake : (xs.take off).length = off := by rw [List.length_take]; omega
  have hwritten : (xs.take off ++ seg).length = off + seg.length := by
    rw [List.length_append, htake]
  have hpre : (overwrite xs off seg).take off = xs.take off := by
    rw [overwrite, List.append_assoc, List.take_left' htake]
  have hpost : (overwrite xs off seg).drop (off + seg.length) = xs.drop (off + seg.length) := by
    rw [overwrite, List.drop_left' hwritten]
  rw [overwrite, hpre, hpost]
  rfl

/-- The buffer starts with `data`, as far as it has room for it. -/
def Stores (buffer data : List α) : Prop := buffer.take data.length = data.take buffer.length

theorem stores_nil (buffer : List α) : Stores buffer [] := by simp [Stores]

/-- A shorter prefix of the data is stored as well. -/
theorem Stores.take_eq {buffer data : List α} (h : Stores buffer data) {n : ℕ}
    (hn : n ≤ data.length) : buffer.take n = (data.take n).take buffer.length := by
  have hcut := congrArg (List.take n) h
  rw [List.take_take, Nat.min_eq_left hn] at hcut
  rw [hcut, List.take_take, List.take_take, Nat.min_comm]

/-- Appending a segment behind what is stored, as far as there is room. -/
theorem stores_overwrite {buffer data : List α} (h : Stores buffer data) (seg : List α) :
    Stores (overwrite buffer (min buffer.length data.length)
      (seg.take (min seg.length (buffer.length - min buffer.length data.length))))
      (data ++ seg) := by
  rcases Nat.lt_or_ge data.length buffer.length with hlt | hge
  · have hdata : buffer.take data.length = data := by
      rw [h, List.take_of_length_le (Nat.le_of_lt hlt)]
    have hmin : min buffer.length data.length = data.length := by omega
    have hroom : data.length + (seg.take (min seg.length (buffer.length - data.length))).length ≤
        buffer.length := by
      rw [List.length_take]; omega
    rw [hmin, Stores, length_overwrite hroom, overwrite, hdata, List.length_append]
    rcases Nat.le_total seg.length (buffer.length - data.length) with hfit | hcut
    · -- all of the segment is stored
      have hlen : (data ++ seg).length = data.length + seg.length := List.length_append
      rw [Nat.min_eq_left hfit, List.take_length, ← hlen, List.take_left,
        List.take_of_length_le (by omega)]
    · -- the buffer is filled up, and nothing of it is left behind the segment
      rw [Nat.min_eq_right hcut, List.drop_eq_nil_of_le (by rw [List.length_take]; omega),
        List.append_nil, List.take_append, List.take_append,
        List.take_of_length_le (l := data) (by omega), List.take_of_length_le (l := data)
        (by omega), List.take_take]
      congr 2
      omega
  · have hmin : min buffer.length data.length = buffer.length := by omega
    have hover : overwrite buffer buffer.length (seg.take 0) = buffer := by simp [overwrite]
    rw [hmin, Nat.sub_self, Nat.min_zero, hover, Stores, List.length_append,
      List.take_of_length_le (by omega), List.take_append_of_le_length hge, ← h,
      List.take_of_length_le hge]

/-- A length that is cut to what there is. -/
theorem take_min_length (xs : List α) (n : ℕ) : xs.take (min n xs.length) = xs.take n := by
  rw [← List.take_take, List.take_length]

/-- A segment that is copied to the start of a buffer, as far as there is room. -/
theorem overwrite_take_min (buffer payload : List α) :
    (overwrite buffer 0 (payload.take (min payload.length buffer.length))).length = buffer.length ∧
      (overwrite buffer 0 (payload.take (min payload.length buffer.length))).take
        (min payload.length buffer.length) = payload.take buffer.length := by
  have hlen : (payload.take (min payload.length buffer.length)).length =
      min payload.length buffer.length := by
    rw [List.length_take]
    omega
  refine ⟨length_overwrite (by rw [hlen]; omega), ?_⟩
  rw [overwrite, List.take_zero, List.nil_append, List.take_left' hlen, Nat.min_comm,
    take_min_length]

end Rust
