import Mathlib.Data.List.GetD

/-!
# Bytes in words

The bytes of a word in little-endian order (`toLeBytes_fromLeBytes`), and a slice that is cut into
chunks (`flatten_chunks`).
-/

set_option autoImplicit false

namespace Rust

universe u

/-! ## The order of the bytes -/

section

variable {w i : ℕ}

/-- `to_le_bytes`. -/
def toLeBytes (x : BitVec w) : List (BitVec 8) :=
  (List.range (w / 8)).map fun i ↦ x.extractLsb' (8 * i) 8

/-- `from_le_bytes`. -/
def fromLeBytes (w : ℕ) : List (BitVec 8) → BitVec w
  | [] => 0
  | b :: bs => b.setWidth w ||| fromLeBytes w bs <<< 8

theorem getLsbD_fromLeBytes {bs : List (BitVec 8)} (hi : i < w) :
    (fromLeBytes w bs).getLsbD i = (bs.getD (i / 8) 0).getLsbD (i % 8) := by
  induction bs generalizing i with
  | nil => simp [fromLeBytes]
  | cons b bs ih =>
    rw [fromLeBytes, BitVec.getLsbD_or, BitVec.getLsbD_setWidth, BitVec.getLsbD_shiftLeft]
    by_cases hlt : i < 8
    · rw [Nat.div_eq_of_lt hlt, Nat.mod_eq_of_lt hlt]
      simp [hi, hlt]
    · obtain ⟨k, rfl⟩ := Nat.exists_eq_add_of_le (Nat.not_lt.mp hlt)
      rw [Nat.add_sub_cancel_left, ih (by omega), Nat.add_div_left k (by decide),
        Nat.add_mod_left, List.getD_cons_succ, BitVec.getLsbD_of_ge b _ (by omega)]
      simp [hi]

/-- The bytes that a word was made of. -/
theorem toLeBytes_fromLeBytes {bs : List (BitVec 8)} (h : 8 * bs.length = w) :
    toLeBytes (fromLeBytes w bs) = bs := by
  subst h
  refine List.ext_getElem (by simp [toLeBytes]) fun k hk hk' ↦ ?_
  simp only [toLeBytes, List.getElem_map, List.getElem_range]
  refine BitVec.eq_of_getLsbD_eq fun i hi ↦ ?_
  have hdiv : (8 * k + i) / 8 = k := by omega
  have hmod : (8 * k + i) % 8 = i := by omega
  rw [BitVec.getLsbD_extractLsb', getLsbD_fromLeBytes (by omega), hdiv, hmod,
    List.getD_eq_getElem _ _ hk', decide_eq_true hi, Bool.true_and]

end

/-! ## Chunks -/

section

variable {α : Type u} {xs ys : List α} {n : ℕ}

/-- `xs.chunks(n)`. -/
def chunks (n : ℕ) (xs : List α) : List (List α) :=
  (List.range ((xs.length + (n - 1)) / n)).map fun i ↦ (xs.drop (n * i)).take n

theorem length_chunks : (chunks n xs).length = (xs.length + (n - 1)) / n := by
  rw [chunks, List.length_map, List.length_range]

theorem length_le_of_mem_chunks {chunk : List α} (h : chunk ∈ chunks n xs) : chunk.length ≤ n := by
  obtain ⟨i, -, rfl⟩ := List.mem_map.mp h
  exact List.length_take_le _ _

theorem flatten_chunks (hn : 0 < n) (xs : List α) : (chunks n xs).flatten = xs := by
  have hprefix : ∀ k, ((List.range k).map fun i ↦ (xs.drop (n * i)).take n).flatten =
      xs.take (n * k) := by
    intro k
    induction k with
    | zero => simp
    | succ k ih =>
      rw [List.range_succ, List.map_append, List.flatten_append, ih, Nat.mul_succ, List.take_add]
      simp
  rw [chunks, hprefix, List.take_of_length_le]
  have hdiv := Nat.div_add_mod (xs.length + (n - 1)) n
  have hmod := Nat.mod_lt (xs.length + (n - 1)) hn
  omega

theorem map_length_chunks (h : xs.length = ys.length) :
    (chunks n xs).map List.length = (chunks n ys).map List.length := by
  rw [chunks, chunks, h, List.map_map, List.map_map]
  refine List.map_congr_left fun i _ ↦ ?_
  simp [h]

end

end Rust
