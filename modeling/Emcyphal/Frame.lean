import Emcyphal.Core
import Emcyphal.Lib.Exec

/-!
# Transport frames

`emcyphal-driver/src/frame.rs`.  A `DataLength` is one of the lengths a CAN-FD frame can have, and
a `Data` is a byte vector of such a length; both carry that as a field.  `Data` keeps only the bytes
below its length: the unused rest of the `[u8; 64]` is never read.
-/

set_option autoImplicit false

namespace Emcyphal

open Rust

/-- A transport-layer maximum transmission unit. -/
inductive Mtu
  | classic
  | fd
deriving DecidableEq, Repr

namespace Mtu

def toUsize : Mtu → ℕ
  | classic => 8
  | fd => 64

def tryFrom (value : ℕ) : Option Mtu :=
  match value with
  | 8 => some classic
  | 64 => some fd
  | _ => none

theorem tryFrom_isSome {value : ℕ} : (tryFrom value).isSome = true ↔ value = 8 ∨ value = 64 := by
  unfold tryFrom
  split <;> simp_all

theorem toUsize_eq (mtu : Mtu) : mtu.toUsize = 8 ∨ mtu.toUsize = 64 := by
  cases mtu <;> simp [toUsize]

end Mtu

/-- The semantic properties of the data type carried by a transfer and its kind. -/
inductive DataSpecifier
  | message (subject : SubjectId)
  | request (service : ServiceId)
  | response (service : ServiceId)
deriving DecidableEq, Repr

/-- Transport frame data encoded with the CAN frame identifier. -/
structure Header where
  priority : Priority
  dataSpec : DataSpecifier
  source : Option NodeId
  destination : Option NodeId
deriving DecidableEq

/-! ## CAN-FD compatible lengths -/

/-- The lengths a CAN-FD frame can have. -/
def validLengths : List ℕ := [0, 1, 2, 3, 4, 5, 6, 7, 8, 12, 16, 20, 24, 32, 48, 64]

/-- A CAN-FD compatible data length. -/
structure DataLength where
  /-- The length in bytes. -/
  val : ℕ
  /-- A data length code exists for it. -/
  valid : val ∈ validLengths
deriving DecidableEq

namespace DataLength

def MAX : ℕ := 64

/-- The largest valid length that is at most `value`. -/
def floor (value : ℕ) : ℕ :=
  if value < 8 then value
  else if value < 24 then value / 4 * 4
  else if value < 32 then value / 8 * 8
  else if value < 64 then value / 16 * 16
  else 64

/-- The smallest valid length that is at least `value`, for a `value` up to `MAX`. -/
def ceil (value : ℕ) : ℕ :=
  if value < 8 then value
  else if value < 24 then (value + 3) / 4 * 4
  else if value < 32 then (value + 7) / 8 * 8
  else (value + 15) / 16 * 16

theorem floor_valid (value : ℕ) : floor value ∈ validLengths := by
  rcases Nat.lt_or_ge value 64 with h | h
  · have hall : ∀ n < 64, floor n ∈ validLengths := by decide
    exact hall value h
  · have h64 : floor value = 64 := by
      simp only [floor]
      split_ifs <;> omega
    rw [h64]
    decide

theorem ceil_valid {value : ℕ} (h : value ≤ MAX) : ceil value ∈ validLengths := by
  have hall : ∀ n < 65, ceil n ∈ validLengths := by decide
  exact hall value (Nat.lt_succ_of_le h)

theorem le_ceil (value : ℕ) : value ≤ ceil value := by
  rw [ceil]
  split_ifs <;> omega

theorem ceil_le (value : ℕ) : ceil value ≤ value + 15 := by
  rw [ceil]
  split_ifs <;> omega

/-- No shorter valid length would do. -/
theorem ceil_le_of_mem {value len : ℕ} (h : value ≤ len) (hlen : len ∈ validLengths) :
    ceil value ≤ len := by
  have hall : ∀ l ∈ validLengths, ∀ n < l + 1, ceil n ≤ l := by decide
  exact hall len hlen value (Nat.lt_succ_of_le h)

theorem ceil_of_le_eight {value : ℕ} (h : value ≤ 8) : ceil value = value := by
  rw [ceil]
  split_ifs <;> omega

/-- A length that is rounded up is still not longer than the MTU. -/
theorem ceil_le_mtu {value : ℕ} {mtu : Mtu} (h : value ≤ mtu.toUsize) :
    ceil value ≤ mtu.toUsize := by
  have hall : ∀ n < 65, (n ≤ 8 → ceil n ≤ 8) ∧ (n ≤ 64 → ceil n ≤ 64) := by decide
  cases mtu with
  | classic => exact (hall value (h.trans_lt (by decide))).1 h
  | fd => exact (hall value (h.trans_lt (by decide))).2 h

theorem le_max (len : DataLength) : len.val ≤ MAX := by
  have hall : ∀ n ∈ validLengths, n ≤ MAX := by decide
  exact hall len.val len.valid

def newFloor (value : ℕ) : DataLength := ⟨floor value, floor_valid value⟩

def new (value : ℕ) : Option DataLength :=
  if (newFloor value).val = value then some (newFloor value) else none

theorem new_val (len : DataLength) : new len.val = some len := by
  have hfloor : ∀ n ∈ validLengths, floor n = n := by decide
  obtain ⟨n, hn⟩ := len
  have hnew : newFloor n = ⟨n, hn⟩ := by
    rw [newFloor, DataLength.mk.injEq]
    exact hfloor n hn
  rw [new, if_pos (congrArg val hnew), hnew]

def newCeil (value : ℕ) : Option DataLength :=
  if h : value ≤ MAX then some ⟨ceil value, ceil_valid h⟩ else none

theorem newCeil_of_le {value : ℕ} (h : value ≤ MAX) :
    newCeil value = some ⟨ceil value, ceil_valid h⟩ := dif_pos h

end DataLength

/-! ## Frame data -/

/-- A CAN-FD compatible data vector. -/
structure Data where
  /-- The bytes below the length. -/
  bytes : List Byte
  /-- Their number is one of the lengths a CAN-FD frame can have. -/
  valid : bytes.length ∈ validLengths
deriving DecidableEq

namespace Data

def length (data : Data) : DataLength := ⟨data.bytes.length, data.valid⟩

theorem length_le (data : Data) : data.bytes.length ≤ 64 := data.length.le_max

/-- Creates a new vector from a slice of compatible length. -/
def new (data : List Byte) : Option Data :=
  if h : (DataLength.new data.length).isSome then
    some ⟨data, by
      obtain ⟨len, hlen⟩ := Option.isSome_iff_exists.mp h
      rw [DataLength.new] at hlen
      split at hlen
      · rename_i hv; exact hv ▸ (DataLength.newFloor data.length).valid
      · exact absurd hlen (by simp)⟩
  else none

def newZeros (length : DataLength) : Data :=
  ⟨List.replicate length.val 0, by rw [List.length_replicate]; exact length.valid⟩

/-- What the vector holds after its bytes were written in place. -/
def write (data : Data) (bytes : List Byte) : Exec Data :=
  if h : data.bytes.length = bytes.length then .ok ⟨bytes, h ▸ data.valid⟩ else .error .index

theorem write_of_length {data : Data} {bytes : List Byte}
    (h : data.bytes.length = bytes.length) : data.write bytes = .ok ⟨bytes, h ▸ data.valid⟩ :=
  dif_pos h

@[simp] theorem length_newZeros (length : DataLength) :
    (newZeros length).bytes.length = length.val := List.length_replicate

theorem splitLast_newZeros {length : DataLength} (h : 0 < length.val) :
    splitLast (newZeros length).bytes = some (0, List.replicate (length.val - 1) 0) := by
  have hrep : List.replicate length.val (0 : Byte) = List.replicate (length.val - 1) 0 ++ [0] := by
    rw [← List.replicate_succ', Nat.sub_add_cancel h]
  show splitLast (List.replicate length.val (0 : Byte)) = _
  rw [hrep, splitLast_concat]

/-- A frame is filled with a payload and a tail byte. -/
theorem write_newZeros {length : DataLength} {payload : List Byte} (tail : Byte)
    (h : payload.length + 1 = length.val) :
    (newZeros length).write (payload ++ [tail]) = .ok ⟨payload ++ [tail], by
      rw [List.length_append, List.length_singleton, h]; exact length.valid⟩ :=
  write_of_length (by rw [length_newZeros, List.length_append, List.length_singleton, h])

end Data

/-- A transport frame. -/
structure Frame where
  header : Header
  data : Data
  timestamp : Instant
  loopBack : Bool
deriving DecidableEq

end Emcyphal
