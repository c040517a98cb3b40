import Mathlib.Data.BitVec

/-!
# Fields of a machine word

A word `x` is divided into fields, each of which has a number of bits from some offset on.  A field
is overwritten through a mask (`put`), and so is a flag, which is a field of one bit (`putFlag`).

`field` reads a field as a number.  What was put there is read again, and the other fields stay as
they are.
-/

set_option autoImplicit false

namespace Rust.BitField

variable {w : ℕ} {x y v mask : BitVec w} {off n i : ℕ}

/-- The mask of the lowest `n` bits. -/
def ones (w n : ℕ) : BitVec w := BitVec.allOnes w >>> (w - n)

/-- `x &= !(mask << off); x |= v << off`. -/
def put (x mask : BitVec w) (off : ℕ) (v : BitVec w) : BitVec w :=
  (x &&& ~~~(mask <<< off)) ||| v <<< off

/-- `if value { x |= flag } else { x &= !flag }`. -/
def putFlag (x flag : BitVec w) (value : Bool) : BitVec w :=
  if value then x ||| flag else x &&& ~~~flag

/-- The `n` bits from `off` on, as a number. -/
def field (x : BitVec w) (off n : ℕ) : ℕ := (x.extractLsb' off n).toNat

theorem field_lt (x : BitVec w) (off n : ℕ) : field x off n < 2 ^ n := BitVec.isLt _

theorem field_eq (x : BitVec w) (off n : ℕ) : field x off n = x.toNat / 2 ^ off % 2 ^ n := by
  rw [field, BitVec.extractLsb'_toNat, Nat.shiftRight_eq_div_pow]

theorem getLsbD_ones (h : n ≤ w) : (ones w n).getLsbD i = decide (i < n) := by
  rw [ones, BitVec.getLsbD_ushiftRight, BitVec.getLsbD_allOnes, decide_eq_decide]
  omega

theorem getLsbD_of_lt (hv : v.toNat < 2 ^ n) (hi : n ≤ i) : v.getLsbD i = false :=
  Nat.testBit_lt_two_pow (hv.trans_le (Nat.pow_le_pow_right Nat.zero_lt_two hi))

/-- Overwriting the field changes its bits, and no others. -/
theorem getLsbD_put (hw : off + n ≤ w) (hv : v.toNat < 2 ^ n) :
    (put x (ones w n) off v).getLsbD i =
      if off ≤ i ∧ i < off + n then v.getLsbD (i - off) else x.getLsbD i := by
  have hmask : (ones w n <<< off).getLsbD i = decide (off ≤ i ∧ i < off + n) := by
    rw [BitVec.getLsbD_shiftLeft, getLsbD_ones (by omega)]
    by_cases hoff : off ≤ i
    · simp only [hoff, not_lt.mpr hoff, decide_false, Bool.not_false, Bool.and_true, true_and]
      rw [← Bool.decide_and, decide_eq_decide]
      omega
    · simp [hoff, not_le.mp hoff]
  rw [put, BitVec.getLsbD_or, BitVec.getLsbD_and, BitVec.getLsbD_not, hmask,
    BitVec.getLsbD_shiftLeft]
  split
  · rename_i hin
    have hi : i < w := by omega
    simp [hin, hi]
  · rename_i hout
    by_cases hi : i < w
    · have hrest : (!decide (i < off) && v.getLsbD (i - off)) = false := by
        by_cases hoff : i < off
        · simp [hoff]
        · rw [getLsbD_of_lt hv (by omega), Bool.and_false]
      simp [hout, hi, hrest]
    · simp [hi, BitVec.getLsbD_of_ge x i (not_lt.mp hi)]

theorem getLsbD_putFlag {k : ℕ} (hk : k < w) {value : Bool} :
    (putFlag x (1#w <<< k) value).getLsbD i = if i = k then value else x.getLsbD i := by
  have hflag : (1#w <<< k).getLsbD i = decide (i = k) := by
    rw [← BitVec.twoPow_eq, BitVec.getLsbD_twoPow]
    by_cases hi : i = k
    · simp [hi, hk]
    · simp [hi, Ne.symm hi]
  rw [putFlag]
  cases value with
  | true =>
    rw [if_pos rfl, BitVec.getLsbD_or, hflag]
    by_cases hi : i = k <;> simp [hi]
  | false =>
    rw [if_neg Bool.false_ne_true, BitVec.getLsbD_and, BitVec.getLsbD_not, hflag]
    by_cases hi : i = k
    · simp [hi]
    · by_cases hw : i < w
      · simp [hi, hw]
      · simp [hi, BitVec.getLsbD_of_ge x i (not_lt.mp hw)]

/-- A field depends on its bits only. -/
theorem field_congr {w' : ℕ} {y : BitVec w'}
    (h : ∀ i < n, x.getLsbD (off + i) = y.getLsbD (off + i)) : field x off n = field y off n := by
  refine congrArg BitVec.toNat (BitVec.eq_of_getLsbD_eq fun i hi ↦ ?_)
  rw [BitVec.getLsbD_extractLsb', BitVec.getLsbD_extractLsb', h i hi]

/-- What was put into a field is read again. -/
theorem field_put (hw : off + n ≤ w) (hv : v.toNat < 2 ^ n) :
    field (put x (ones w n) off v) off n = v.toNat := by
  have hbits : (put x (ones w n) off v).extractLsb' off n = v.setWidth n := by
    refine BitVec.eq_of_getLsbD_eq fun i hi ↦ ?_
    rw [BitVec.getLsbD_extractLsb', getLsbD_put hw hv, if_pos ⟨by omega, by omega⟩,
      BitVec.getLsbD_setWidth, Nat.add_sub_cancel_left]
  rw [field, hbits, BitVec.toNat_setWidth, Nat.mod_eq_of_lt hv]

/-- Other fields stay as they are. -/
theorem field_put_of_disjoint {off' n' : ℕ} (hw : off + n ≤ w) (hv : v.toNat < 2 ^ n)
    (hdisjoint : off' + n' ≤ off ∨ off + n ≤ off') :
    field (put x (ones w n) off v) off' n' = field x off' n' :=
  field_congr fun i hi ↦ by rw [getLsbD_put hw hv, if_neg (by omega)]

theorem field_putFlag_of_disjoint {k off' n' : ℕ} (hk : k < w) {value : Bool}
    (hdisjoint : off' + n' ≤ k ∨ k < off') :
    field (putFlag x (1#w <<< k) value) off' n' = field x off' n' :=
  field_congr fun i hi ↦ by rw [getLsbD_putFlag hk, if_neg (by omega)]

/-- A field of one bit. -/
theorem field_one (k : ℕ) : field x k 1 = (x.getLsbD k).toNat := by
  have hbits : x.extractLsb' k 1 = BitVec.ofBool (x.getLsbD k) := by
    refine BitVec.eq_of_getLsbD_eq fun i hi ↦ ?_
    rw [BitVec.getLsbD_extractLsb', BitVec.getLsbD_ofBool, Nat.lt_one_iff.mp hi]
    simp
  rw [field, hbits, BitVec.toNat_ofBool]

theorem beq_field_one (k : ℕ) : (field x k 1 == 1) = x.getLsbD k := by
  rw [field_one]
  cases x.getLsbD k <;> rfl

theorem field_putFlag {k : ℕ} (hk : k < w) {value : Bool} :
    field (putFlag x (1#w <<< k) value) k 1 = value.toNat := by
  rw [field_one, getLsbD_putFlag hk, if_pos rfl]

/-- The number above some bit of a word that has no bits above a field. -/
theorem div_eq_field (hx : x.toNat < 2 ^ (off + n)) : x.toNat / 2 ^ off = field x off n := by
  rw [field_eq, Nat.mod_eq_of_lt]
  rw [Nat.div_lt_iff_lt_mul (Nat.two_pow_pos off), Nat.mul_comm, ← Nat.pow_add]
  exact hx

/-- Reading a field with a shift and a mask. -/
theorem toNat_shift_and {m : ℕ} {mask : BitVec m} (hmask : mask = ones m n) (hn : n ≤ m) :
    ((x >>> off).setWidth m &&& mask).toNat = field x off n := by
  subst hmask
  have hbits : (x >>> off).setWidth m &&& ones m n = (x.extractLsb' off n).setWidth m := by
    refine BitVec.eq_of_getLsbD_eq fun i hi ↦ ?_
    rw [BitVec.getLsbD_and, getLsbD_ones hn, BitVec.getLsbD_setWidth, BitVec.getLsbD_setWidth,
      BitVec.getLsbD_ushiftRight, BitVec.getLsbD_extractLsb']
    simp [hi, Bool.and_comm]
  rw [hbits, BitVec.toNat_setWidth, Nat.mod_eq_of_lt]
  · rfl
  · exact (field_lt x off n).trans_le (Nat.pow_le_pow_right Nat.zero_lt_two hn)

/-- A word whose other bits are cleared is a field at its place. -/
theorem and_ones_eq_iff (hw : off + n ≤ w) (hv : v.toNat < 2 ^ n) :
    x &&& ones w n <<< off = v <<< off ↔ field x off n = v.toNat := by
  have hmask : ∀ i, i < w → (x &&& ones w n <<< off).getLsbD i =
      (decide (off ≤ i ∧ i < off + n) && x.getLsbD i) := by
    intro i hi
    rw [BitVec.getLsbD_and, BitVec.getLsbD_shiftLeft, getLsbD_ones (by omega)]
    by_cases hoff : off ≤ i
    · have hlt : i - off < n ↔ i < off + n := by omega
      simp [hoff, not_lt.mpr hoff, hi, hlt, Bool.and_comm]
    · simp [hoff, not_le.mp hoff]
  constructor
  · intro h
    have hbits : x.extractLsb' off n = v.setWidth n := by
      refine BitVec.eq_of_getLsbD_eq fun i hi ↦ ?_
      have hbit : (x &&& ones w n <<< off).getLsbD (off + i) = (v <<< off).getLsbD (off + i) := by
        rw [h]
      rw [hmask _ (by omega), BitVec.getLsbD_shiftLeft, Nat.add_sub_cancel_left] at hbit
      rw [BitVec.getLsbD_extractLsb', BitVec.getLsbD_setWidth]
      have hlt : off + i < w := by omega
      have hge : ¬ off + i < off := by omega
      simpa [hi, hlt, hge] using hbit
    rw [field, hbits, BitVec.toNat_setWidth, Nat.mod_eq_of_lt hv]
  · intro h
    refine BitVec.eq_of_getLsbD_eq fun i hi ↦ ?_
    rw [hmask i hi, BitVec.getLsbD_shiftLeft]
    by_cases hoff : off ≤ i
    · by_cases hin : i < off + n
      · have hbit : (x.extractLsb' off n).getLsbD (i - off) = v.getLsbD (i - off) :=
          congrArg (Nat.testBit · (i - off)) h
        rw [BitVec.getLsbD_extractLsb'] at hbit
        have hlt : i - off < n := by omega
        have hsum : off + (i - off) = i := by omega
        simpa [hoff, hin, hi, hlt, hsum, not_lt.mpr hoff] using hbit
      · rw [getLsbD_of_lt hv (by omega)]
        simp [hin]
    · simp [hoff, not_le.mp hoff]

theorem field_shiftLeft (hw : off + n ≤ w) (hv : v.toNat < 2 ^ n) :
    field (v <<< off) off n = v.toNat := by
  have hbits : (v <<< off).extractLsb' off n = v.setWidth n := by
    refine BitVec.eq_of_getLsbD_eq fun i hi ↦ ?_
    have hlt : off + i < w := by omega
    have hge : ¬ off + i < off := by omega
    rw [BitVec.getLsbD_extractLsb', BitVec.getLsbD_shiftLeft, BitVec.getLsbD_setWidth,
      Nat.add_sub_cancel_left]
    simp [hi, hlt, hge]
  rw [field, hbits, BitVec.toNat_setWidth, Nat.mod_eq_of_lt hv]

theorem shiftLeft_and_ones (hw : off + n ≤ w) (hv : v.toNat < 2 ^ n) :
    v <<< off &&& ones w n <<< off = v <<< off := by
  rw [and_ones_eq_iff hw hv, field_shiftLeft hw hv]

theorem or_and_self_left (x y : BitVec w) : (x ||| y) &&& x = x := by
  refine BitVec.eq_of_getLsbD_eq fun i _ ↦ ?_
  rw [BitVec.getLsbD_and, BitVec.getLsbD_or]
  cases x.getLsbD i <;> simp

/-- A comparison under a mask is one of a field, and one of the bits under the rest of the mask. -/
theorem and_or_ones_eq_iff (hw : off + n ≤ w) (hv : v.toNat < 2 ^ n)
    (hdisjoint : ones w n <<< off &&& mask = 0) :
    x &&& (mask ||| ones w n <<< off) = v <<< off ↔ x &&& mask = 0 ∧ field x off n = v.toNat := by
  rw [← and_ones_eq_iff hw hv]
  constructor
  · intro h
    constructor
    · calc x &&& mask = x &&& (mask ||| ones w n <<< off) &&& mask := by
            rw [BitVec.and_assoc, or_and_self_left]
        _ = v <<< off &&& ones w n <<< off &&& mask := by rw [h, shiftLeft_and_ones hw hv]
        _ = 0 := by rw [BitVec.and_assoc, hdisjoint]; exact BitVec.and_zero
    · calc x &&& ones w n <<< off = x &&& (mask ||| ones w n <<< off) &&& ones w n <<< off := by
            rw [BitVec.and_assoc, BitVec.or_comm, or_and_self_left]
        _ = v <<< off := by rw [h, shiftLeft_and_ones hw hv]
  · rintro ⟨hzero, hfield⟩
    rw [BitVec.and_or_distrib_left, hzero, hfield]
    exact BitVec.zero_or

/-- The same, if the bits under the rest of the mask have to have a value. -/
theorem and_or_ones_eq_or_iff {c : BitVec w} (hw : off + n ≤ w) (hv : v.toNat < 2 ^ n)
    (hdisjoint : ones w n <<< off &&& mask = 0) (hc : c &&& mask = c) :
    x &&& (mask ||| ones w n <<< off) = c ||| v <<< off ↔
      x &&& mask = c ∧ field x off n = v.toNat := by
  have hvalue : v <<< off &&& mask = 0 := by
    rw [← shiftLeft_and_ones hw hv, BitVec.and_assoc, hdisjoint]
    exact BitVec.and_zero
  have hcheck : c &&& ones w n <<< off = 0 := by
    rw [← hc, BitVec.and_assoc, BitVec.and_comm mask, hdisjoint]
    exact BitVec.and_zero
  rw [← and_ones_eq_iff hw hv]
  constructor
  · intro h
    constructor
    · calc x &&& mask = x &&& (mask ||| ones w n <<< off) &&& mask := by
            rw [BitVec.and_assoc, or_and_self_left]
        _ = (c ||| v <<< off) &&& mask := by rw [h]
        _ = c := by
            rw [BitVec.and_comm, BitVec.and_or_distrib_left, BitVec.and_comm, hc, BitVec.and_comm,
              hvalue]
            exact BitVec.or_zero
    · calc x &&& ones w n <<< off = x &&& (mask ||| ones w n <<< off) &&& ones w n <<< off := by
            rw [BitVec.and_assoc, BitVec.or_comm, or_and_self_left]
        _ = (c ||| v <<< off) &&& ones w n <<< off := by rw [h]
        _ = v <<< off := by
            rw [BitVec.and_comm, BitVec.and_or_distrib_left, BitVec.and_comm, hcheck,
              BitVec.and_comm, shiftLeft_and_ones hw hv]
            exact BitVec.zero_or
  · rintro ⟨hzero, hfield⟩
    rw [BitVec.and_or_distrib_left, hzero, hfield]

/-- A flag is a bit. -/
theorem and_flag_ne_zero {k : ℕ} (hk : k < w) : (x &&& 1#w <<< k != 0) = x.getLsbD k := by
  have hbits : ∀ i, (x &&& 1#w <<< k).getLsbD i = (decide (i = k) && x.getLsbD i) := by
    intro i
    rw [BitVec.getLsbD_and, ← BitVec.twoPow_eq, BitVec.getLsbD_twoPow]
    by_cases hi : i = k
    · simp [hi, hk]
    · simp [hi, Ne.symm hi]
  cases hbit : x.getLsbD k with
  | true =>
    rw [bne_iff_ne]
    intro hzero
    have hk' := hbits k
    rw [hzero, hbit] at hk'
    simp at hk'
  | false =>
    have hzero : x &&& 1#w <<< k = 0 := BitVec.eq_of_getLsbD_eq fun i _ ↦ by
      rw [hbits]
      by_cases hi : i = k <;> simp [hi, hbit]
    rw [hzero]
    rfl

/-! ## Words of registers -/

/-- `(x >> off) & mask`. -/
def load (x mask : BitVec w) (off : ℕ) : BitVec w := x >>> off &&& mask

/-- `(x & !(mask << off)) | ((v & mask) << off)`. -/
def store (x mask : BitVec w) (off : ℕ) (v : BitVec w) : BitVec w := put x mask off (v &&& mask)

theorem getLsbD_load (hn : n ≤ w) :
    (load x (ones w n) off).getLsbD i = (decide (i < n) && x.getLsbD (off + i)) := by
  rw [load, BitVec.getLsbD_and, BitVec.getLsbD_ushiftRight, getLsbD_ones hn, Bool.and_comm]

theorem and_ones_of_lt (hn : n ≤ w) (hv : v.toNat < 2 ^ n) : v &&& ones w n = v := by
  refine BitVec.eq_of_getLsbD_eq fun i _ ↦ ?_
  rw [BitVec.getLsbD_and, getLsbD_ones hn]
  by_cases hi : i < n
  · simp [hi]
  · rw [getLsbD_of_lt hv (not_lt.mp hi), Bool.false_and]

/-- What was stored in a field is loaded again. -/
theorem load_store (hmask : mask = ones w n) (hw : off + n ≤ w) (hv : v.toNat < 2 ^ n) :
    load (store x mask off v) mask off = v := by
  subst hmask
  refine BitVec.eq_of_getLsbD_eq fun i _ ↦ ?_
  rw [getLsbD_load (by omega), store, and_ones_of_lt (by omega) hv, getLsbD_put hw hv]
  by_cases hi : i < n
  · rw [if_pos ⟨by omega, by omega⟩, Nat.add_sub_cancel_left]
    simp [hi]
  · rw [getLsbD_of_lt hv (not_lt.mp hi)]
    simp [hi]

/-- Other fields are not stored to. -/
theorem load_store_of_disjoint {mask' : BitVec w} {off' n' : ℕ} (hmask : mask = ones w n)
    (hmask' : mask' = ones w n') (hw : off + n ≤ w) (hw' : n' ≤ w) (hv : v.toNat < 2 ^ n)
    (hdisjoint : off' + n' ≤ off ∨ off + n ≤ off') :
    load (store x mask off v) mask' off' = load x mask' off' := by
  subst hmask
  subst hmask'
  refine BitVec.eq_of_getLsbD_eq fun i _ ↦ ?_
  rw [getLsbD_load hw', getLsbD_load hw', store, and_ones_of_lt (by omega) hv, getLsbD_put hw hv]
  by_cases hi : i < n'
  · rw [if_neg (by omega)]
  · simp [hi]

theorem toNat_load (hmask : mask = ones w n) (hn : n ≤ w) :
    (load x mask off).toNat = field x off n := by
  have hload := @toNat_shift_and w x off n _ _ hmask hn
  rwa [BitVec.setWidth_eq] at hload

theorem toNat_and_ones (hn : n ≤ w) : (v &&& ones w n).toNat = v.toNat % 2 ^ n := by
  have hload := @toNat_load w v _ 0 n rfl hn
  rw [load, BitVec.ushiftRight_zero] at hload
  rw [hload, field_eq, pow_zero, Nat.div_one]

theorem field_store (hmask : mask = ones w n) (hw : off + n ≤ w) :
    field (store x mask off v) off n = v.toNat % 2 ^ n := by
  subst hmask
  have hmod := toNat_and_ones (v := v) (show n ≤ w by omega)
  have hlt : (v &&& ones w n).toNat < 2 ^ n := by
    rw [hmod]
    exact Nat.mod_lt _ (Nat.two_pow_pos n)
  rw [store, field_put hw hlt, hmod]

theorem field_store_of_disjoint {off' n' : ℕ} (hmask : mask = ones w n) (hw : off + n ≤ w)
    (hdisjoint : off' + n' ≤ off ∨ off + n ≤ off') :
    field (store x mask off v) off' n' = field x off' n' := by
  subst hmask
  have hlt : (v &&& ones w n).toNat < 2 ^ n := by
    rw [toNat_and_ones (by omega)]
    exact Nat.mod_lt _ (Nat.two_pow_pos n)
  rw [store, field_put_of_disjoint hw hlt hdisjoint]

/-! ## Bits that have to have fixed values -/

theorem put_and_of_disjoint (hw : off + n ≤ w) (hv : v.toNat < 2 ^ n)
    (hdisjoint : ones w n <<< off &&& mask = 0) :
    put x (ones w n) off v &&& mask = x &&& mask := by
  refine BitVec.eq_of_getLsbD_eq fun i hi ↦ ?_
  rw [BitVec.getLsbD_and, BitVec.getLsbD_and, getLsbD_put hw hv]
  split
  · rename_i hin
    have hbit : (ones w n <<< off &&& mask).getLsbD i = false := by
      rw [hdisjoint]
      simp
    have hlt : i - off < n := by omega
    rw [BitVec.getLsbD_and, BitVec.getLsbD_shiftLeft, getLsbD_ones (by omega)] at hbit
    have hmask : mask.getLsbD i = false := by
      simpa [hi, hin.1, not_lt.mpr hin.1, hlt] using hbit
    rw [hmask, Bool.and_false, Bool.and_false]
  · rfl

theorem putFlag_and_of_disjoint {k : ℕ} (hk : k < w) (hdisjoint : mask.getLsbD k = false)
    {value : Bool} : putFlag x (1#w <<< k) value &&& mask = x &&& mask := by
  refine BitVec.eq_of_getLsbD_eq fun i hi ↦ ?_
  rw [BitVec.getLsbD_and, BitVec.getLsbD_and, getLsbD_putFlag hk]
  split
  · rename_i hik
    rw [hik, hdisjoint, Bool.and_false, Bool.and_false]
  · rfl

/-- A word is its fixed bits with the others. -/
theorem eq_fixed_or {c : BitVec w} (h : x &&& mask = c) : x = c ||| (x &&& ~~~mask) := by
  rw [← h]
  refine BitVec.eq_of_getLsbD_eq fun i hi ↦ ?_
  rw [BitVec.getLsbD_or, BitVec.getLsbD_and, BitVec.getLsbD_and, BitVec.getLsbD_not]
  cases x.getLsbD i <;> cases mask.getLsbD i <;> simp [hi]

end Rust.BitField
