import Mathlib.Data.List.Basic

/-!
# Computations that may panic

A call of a Rust function either returns or panics, and the difference between the two is part of
what a verification has to settle: an `unwrap` that cannot fail is a statement about every state
the program reaches.  `Rust.Exec` is the result of such a call.  A value the code returns is never
confused with a panic: a function that returns an `Option` has type `Exec (Option _)`.

Mutation is passed explicitly.  A method that takes `&mut self` returns the new value of the object
next to what it returns, so a panic leaves no state behind, as in the code.

The second half is about slices.  A slice is a list, and a range of it that is out of bounds panics.
-/

set_option autoImplicit false

namespace Rust

universe u v

variable {α : Type u} {β : Type v}

/-- The reason of a panic. -/
inductive Panic
  /-- `unwrap` of `None` or of an `Err`. -/
  | unwrap
  /-- A failed `assert!`. -/
  | assert
  /-- An index or a range outside of an array or a slice. -/
  | index
  /-- An arithmetic operation whose result does not fit. -/
  | overflow
  /-- `unreachable!()` was reached. -/
  | unreachable
deriving DecidableEq, Repr

/-- The result of a call: what it returns, or the reason why it panicked. -/
abbrev Exec (α : Type u) := Except Panic α

@[simp] theorem pure_eq_ok (a : α) : (pure a : Exec α) = .ok a := rfl

@[simp] theorem ok_bind {γ : Type u} (a : α) (f : α → Exec γ) : (Except.ok a >>= f) = f a := rfl

@[simp] theorem error_bind {γ : Type u} (e : Panic) (f : α → Exec γ) :
    ((Except.error e : Exec α) >>= f) = .error e := rfl

/-- A sequence of two calls returns when both do. -/
theorem bind_eq_ok {γ : Type u} {x : Exec α} {f : α → Exec γ} {c : γ} :
    (x >>= f) = .ok c ↔ ∃ a, x = .ok a ∧ f a = .ok c := by
  cases x with
  | error e => simp
  | ok a => simp

theorem map_eq_ok {γ : Type u} {x : Exec α} {f : α → γ} {c : γ} :
    f <$> x = .ok c ↔ ∃ a, x = .ok a ∧ f a = c := by
  cases x <;> simp

/-- A call for each element of a list, all of which return. -/
theorem mapM_eq_ok {f : α → Exec β} {g : α → β} {l : List α} (h : ∀ a ∈ l, f a = .ok (g a)) :
    l.mapM f = .ok (l.map g) := by
  induction l with
  | nil => rfl
  | cons a l ih =>
    rw [List.mapM_cons, h a List.mem_cons_self, ok_bind,
      ih fun b hb ↦ h b (List.mem_cons_of_mem a hb)]
    rfl

/-- `unwrap!` of an `Option`. -/
def unwrap : Option α → Exec α
  | some a => .ok a
  | none => .error .unwrap

@[simp] theorem unwrap_some (a : α) : unwrap (some a) = .ok a := rfl

@[simp] theorem unwrap_none : unwrap (none : Option α) = .error .unwrap := rfl

theorem unwrap_eq_ok {o : Option α} {a : α} : unwrap o = .ok a ↔ o = some a := by
  cases o <;> simp

/-- `assert!`. -/
def assert (p : Prop) [Decidable p] : Exec Unit := if p then .ok () else .error .assert

@[simp] theorem assert_pos {p : Prop} [Decidable p] (h : p) : assert p = .ok () := if_pos h

theorem assert_eq_ok {p : Prop} [Decidable p] {u : Unit} : assert p = .ok u ↔ p := by
  rw [assert]
  split <;> simp_all

/-- `a - b` on an unsigned type. -/
def sub (a b : ℕ) : Exec ℕ := if b ≤ a then .ok (a - b) else .error .overflow

@[simp] theorem sub_of_le {a b : ℕ} (h : b ≤ a) : sub a b = .ok (a - b) := if_pos h

/-! ## Slices -/

/-- `xs[n..]`. -/
def sliceFrom (xs : List α) (n : ℕ) : Exec (List α) :=
  if n ≤ xs.length then .ok (xs.drop n) else .error .index

/-- `xs[..n]`. -/
def sliceTo (xs : List α) (n : ℕ) : Exec (List α) :=
  if n ≤ xs.length then .ok (xs.take n) else .error .index

/-- `xs[lo..hi]`. -/
def slice (xs : List α) (lo hi : ℕ) : Exec (List α) :=
  if lo ≤ hi ∧ hi ≤ xs.length then .ok ((xs.take hi).drop lo) else .error .index

/-- `dst.copy_from_slice(src)`: what `dst` holds afterwards.  The lengths have to agree. -/
def copyFromSlice (dst src : List α) : Exec (List α) :=
  if dst.length = src.length then .ok src else .error .index

/-- `xs[i]`. -/
def index (xs : List α) (i : ℕ) : Exec α :=
  match xs[i]? with
  | some a => .ok a
  | none => .error .index

/-- `xs[i] = a`. -/
def assign (xs : List α) (i : ℕ) (a : α) : Exec (List α) :=
  if i < xs.length then .ok (xs.set i a) else .error .index

/-- `xs.split_last()`. -/
def splitLast (xs : List α) : Option (α × List α) := xs.getLast?.map fun a ↦ (a, xs.dropLast)

/-- `xs.split_last_chunk()` for chunks of `n`. -/
def splitLastChunk (n : ℕ) (xs : List α) : Option (List α × List α) :=
  if n ≤ xs.length then some (xs.take (xs.length - n), xs.drop (xs.length - n)) else none

@[simp] theorem splitLast_nil : splitLast ([] : List α) = none := rfl

@[simp] theorem splitLast_concat (xs : List α) (a : α) : splitLast (xs ++ [a]) = some (a, xs) := by
  simp [splitLast]

theorem eq_concat_of_splitLast {xs ys : List α} {a : α} (h : splitLast xs = some (a, ys)) :
    xs = ys ++ [a] := by
  rw [splitLast, Option.map_eq_some_iff] at h
  obtain ⟨b, hb, he⟩ := h
  cases he
  exact (List.dropLast_append_getLast? _ hb).symm

@[simp] theorem sliceFrom_of_le {xs : List α} {n : ℕ} (h : n ≤ xs.length) :
    sliceFrom xs n = .ok (xs.drop n) := if_pos h

@[simp] theorem sliceTo_of_le {xs : List α} {n : ℕ} (h : n ≤ xs.length) :
    sliceTo xs n = .ok (xs.take n) := if_pos h

theorem index_of_getElem? {xs : List α} {i : ℕ} {a : α} (h : xs[i]? = some a) :
    index xs i = .ok a := by rw [index, h]

theorem index_eq_ok {xs : List α} {i : ℕ} {a : α} : index xs i = .ok a ↔ xs[i]? = some a := by
  rw [index]
  cases xs[i]? <;> simp

@[simp] theorem assign_of_lt {xs : List α} {i : ℕ} (h : i < xs.length) (a : α) :
    assign xs i a = .ok (xs.set i a) := if_pos h

theorem slice_of_le {xs : List α} {lo hi : ℕ} (h : lo ≤ hi) (h' : hi ≤ xs.length) :
    slice xs lo hi = .ok ((xs.take hi).drop lo) := if_pos ⟨h, h'⟩

theorem copyFromSlice_of_length {dst src : List α} (h : dst.length = src.length) :
    copyFromSlice dst src = .ok src := if_pos h

end Rust
