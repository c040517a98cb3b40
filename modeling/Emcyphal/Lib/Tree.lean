import Mathlib.Data.List.TakeDrop
import Mathlib.Data.Set.Insert
import Mathlib.Order.Lattice

/-!
# Ordered multisets and the gaps between their keys

A tree whose elements are ordered by a key is the list of its elements in this order, and a cursor
is a place in the list: `upperBound` finds it by a key, `cursorAt` finds an element itself.

The keys that are not in the tree lie in the gaps between those that are.  A gap is named by what is
to the right of it, that is the label of an element, or `none` for the gap after the last one.  Keys
that were taken out of the tree can so be remembered by marks on gaps instead of one by one: `Marks`
says that the marked gaps are those with a key of a given set in them, and `Marks.remove`,
`Marks.insert` and `Marks.clear` say how the marks have to change for that to stay true.
-/

set_option autoImplicit false

namespace Rust

universe u v w

namespace Tree

variable {α : Type u} {κ : Type v} [LinearOrder κ]

/-! ## Cursors -/

/-- What is up to a key, and what is after it.  The cursor of the code is at the last element of the
first part. -/
def upperBound (key : α → κ) (k : κ) (xs : List α) : List α × List α :=
  (xs.takeWhile fun x ↦ decide (key x ≤ k), xs.dropWhile fun x ↦ decide (key x ≤ k))

/-- The first element that is not before a key. -/
def lowerBound (key : α → κ) (k : κ) (xs : List α) : Option α := xs.find? fun x ↦ decide (k ≤ key x)

/-- An element with what is before and after it. -/
def cursorAt (p : α → Bool) : List α → Option (List α × α × List α)
  | [] => none
  | x :: xs =>
    if p x then some ([], x, xs) else (cursorAt p xs).map fun c ↦ (x :: c.1, c.2.1, c.2.2)

theorem upperBound_cases {key : α → κ} {xs : List α}
    (h : xs.Pairwise fun x y ↦ key x ≤ key y) (k : κ) :
    ∃ as bs, xs = as ++ bs ∧ upperBound key k xs = (as, bs) ∧ (∀ x ∈ as, key x ≤ k) ∧
      ∀ x ∈ bs, k < key x := by
  induction xs with
  | nil => exact ⟨[], [], rfl, rfl, by simp, by simp⟩
  | cons x xs ih =>
    obtain ⟨hx, hxs⟩ := List.pairwise_cons.mp h
    by_cases hle : key x ≤ k
    · obtain ⟨as, bs, rfl, heq, has, hbs⟩ := ih hxs
      rw [upperBound, Prod.mk.injEq] at heq
      refine ⟨x :: as, bs, rfl, ?_, List.forall_mem_cons.mpr ⟨hle, has⟩, hbs⟩
      rw [upperBound, List.takeWhile_cons_of_pos (by simpa using hle),
        List.dropWhile_cons_of_pos (by simpa using hle), heq.1, heq.2]
    · have hlt : k < key x := not_le.mp hle
      refine ⟨[], x :: xs, rfl, ?_, by simp,
        List.forall_mem_cons.mpr ⟨hlt, fun y hy ↦ hlt.trans_le (hx y hy)⟩⟩
      rw [upperBound, List.takeWhile_cons_of_neg (by simpa using hlt),
        List.dropWhile_cons_of_neg (by simpa using hlt)]

/-- The lower bound of a sorted list, with what is before and after it. -/
theorem lowerBound_cases {key : α → κ} {xs : List α}
    (h : xs.Pairwise fun x y ↦ key x ≤ key y) (k : κ) :
    lowerBound key k xs = none ∧ (∀ x ∈ xs, key x < k) ∨
      ∃ as e bs, xs = as ++ e :: bs ∧ lowerBound key k xs = some e ∧ (∀ x ∈ as, key x < k) ∧
        k ≤ key e ∧ ∀ x ∈ e :: bs, key e ≤ key x := by
  cases hfind : lowerBound key k xs with
  | none =>
    refine .inl ⟨rfl, fun x hx ↦ ?_⟩
    simpa using List.find?_eq_none.mp hfind x hx
  | some e =>
    obtain ⟨hge, as, bs, rfl, has⟩ := List.find?_eq_some_iff_append.mp hfind
    refine .inr ⟨as, e, bs, rfl, rfl, fun x hx ↦ by simpa using has x hx, by simpa using hge, ?_⟩
    intro x hx
    rcases List.mem_cons.mp hx with rfl | hx
    · exact le_rfl
    · exact (List.pairwise_cons.mp (List.pairwise_append.mp h).2.1).1 x hx

/-- No element has the key if the lower bound does not have it. -/
theorem ne_of_lowerBound {key : α → κ} {as bs : List α} {e : α} {k : κ}
    (has : ∀ x ∈ as, key x < k) (hbs : ∀ x ∈ e :: bs, key e ≤ key x) (hge : k ≤ key e)
    (hne : key e ≠ k) : ∀ x ∈ as ++ e :: bs, key x ≠ k := by
  intro x hx
  rcases List.mem_append.mp hx with hx | hx
  · exact (has x hx).ne
  · exact ((lt_of_le_of_ne hge hne.symm).trans_le (hbs x hx)).ne'

/-- The element at the upper bound of a key tells whether there is one with this key. -/
theorem getLast?_any_iff {key : α → κ} {as : List α} (h : as.Pairwise fun x y ↦ key x ≤ key y)
    {k : κ} (hle : ∀ x ∈ as, key x ≤ k) :
    (as.getLast?.any fun x ↦ key x == k) = true ↔ ∃ x ∈ as, key x = k := by
  rcases List.eq_nil_or_concat as with rfl | ⟨as, a, rfl⟩
  · simp
  · rw [List.concat_eq_append] at h hle ⊢
    rw [List.getLast?_concat, Option.any_some, beq_iff_eq]
    constructor
    · intro heq
      exact ⟨a, by simp, heq⟩
    · rintro ⟨x, hx, rfl⟩
      refine le_antisymm (hle a (by simp)) ?_
      rcases List.mem_append.mp hx with hx | hx
      · exact (List.pairwise_append.mp h).2.2 x hx a (by simp)
      · rw [List.mem_singleton.mp hx]

theorem cursorAt_append {p : α → Bool} {as bs : List α} {a : α} (has : ∀ x ∈ as, p x = false)
    (ha : p a = true) : cursorAt p (as ++ a :: bs) = some (as, a, bs) := by
  induction as with
  | nil => rw [List.nil_append, cursorAt, if_pos ha]
  | cons x xs ih =>
    obtain ⟨hx, hxs⟩ := List.forall_mem_cons.mp has
    rw [List.cons_append, cursorAt, if_neg (by simp [hx]), ih hxs]
    rfl

theorem mem_append_of_ne {as bs : List α} {e x : α} (hx : x ∈ as ++ e :: bs) (hne : x ≠ e) :
    x ∈ as ++ bs := by
  rw [List.mem_append, List.mem_cons] at hx
  exact List.mem_append.mpr (hx.imp_right fun hx ↦ hx.resolve_left hne)

theorem exists_split_cons {P : List α → α → List α → Prop} {x : α} {xs : List α} :
    (∃ as a bs, x :: xs = as ++ a :: bs ∧ P as a bs) ↔
      P [] x xs ∨ ∃ as a bs, xs = as ++ a :: bs ∧ P (x :: as) a bs := by
  constructor
  · rintro ⟨_ | ⟨y, as⟩, a, bs, heq, hP⟩
    · cases heq
      exact .inl hP
    · cases heq
      exact .inr ⟨as, a, bs, rfl, hP⟩
  · rintro (hP | ⟨as, a, bs, rfl, hP⟩)
    · exact ⟨[], x, xs, rfl, hP⟩
    · exact ⟨x :: as, a, bs, rfl, hP⟩

/-- An element in its place can be searched for. -/
instance decidableSplit : {P : List α → α → List α → Prop} → [∀ as a bs, Decidable (P as a bs)] →
    (xs : List α) → Decidable (∃ as a bs, xs = as ++ a :: bs ∧ P as a bs)
  | _, _, [] => isFalse fun ⟨_, _, _, h, _⟩ ↦ List.append_ne_nil_of_right_ne_nil _ (by simp) h.symm
  | P, _, x :: xs =>
    letI := decidableSplit (P := fun as a bs ↦ P (x :: as) a bs) xs
    decidable_of_iff' _ exists_split_cons

/-! ## Gaps -/

section Gaps

variable {ι : Type w} {as bs xs : List (ι × κ)} {e : ι × κ} {k : κ} {i : ι}

/-- The label to the right of a key. -/
def rightOf (xs : List (ι × κ)) (k : κ) : Option ι :=
  (xs.find? fun x ↦ decide (k < x.2)).map Prod.fst

theorem rightOf_cons (x : ι × κ) (xs : List (ι × κ)) (k : κ) :
    rightOf (x :: xs) k = if k < x.2 then some x.1 else rightOf xs k := by
  rw [rightOf, List.find?_cons]
  split <;> rename_i h
  · rw [if_pos (by simpa using h)]
    rfl
  · rw [if_neg (by simpa using h), rightOf]

theorem rightOf_append_of_le (h : ∀ x ∈ as, x.2 ≤ k) (bs : List (ι × κ)) :
    rightOf (as ++ bs) k = rightOf bs k := by
  induction as with
  | nil => rfl
  | cons x as ih =>
    obtain ⟨hx, has⟩ := List.forall_mem_cons.mp h
    rw [List.cons_append, rightOf_cons, if_neg (not_lt.mpr hx), ih has]

theorem rightOf_append_of_lt (h : ∃ x ∈ as, k < x.2) (bs : List (ι × κ)) :
    rightOf (as ++ bs) k = rightOf as k := by
  induction as with
  | nil => simp at h
  | cons x as ih =>
    rw [List.cons_append, rightOf_cons, rightOf_cons]
    split
    · rfl
    · rename_i hx
      obtain ⟨y, hy, hlt⟩ := h
      rcases List.mem_cons.mp hy with rfl | hy
      · exact absurd hlt hx
      · exact ih ⟨y, hy, hlt⟩

theorem rightOf_of_lt (h : ∀ x ∈ xs, k < x.2) : rightOf xs k = xs.head?.map Prod.fst := by
  cases xs with
  | nil => rfl
  | cons x xs => rw [rightOf_cons, if_pos (h x (by simp)), List.head?_cons, Option.map_some]

theorem mem_of_rightOf (h : rightOf xs k = some i) : ∃ x ∈ xs, x.1 = i ∧ k < x.2 := by
  obtain ⟨x, hx, rfl⟩ := Option.map_eq_some_iff.mp h
  exact ⟨x, List.mem_of_find?_eq_some hx, rfl, by simpa using List.find?_some hx⟩

/-- Where the labels are different, an element is to the right of a key if it is the first one that
is above the key. -/
theorem rightOf_eq_some_iff (hnodup : ((as ++ e :: bs).map Prod.fst).Nodup) :
    rightOf (as ++ e :: bs) k = some e.1 ↔ (∀ x ∈ as, x.2 ≤ k) ∧ k < e.2 := by
  rw [List.map_append, List.map_cons, List.nodup_append] at hnodup
  obtain ⟨-, htail, hdisjoint⟩ := hnodup
  constructor
  · intro h
    have hle : ∀ x ∈ as, x.2 ≤ k := by
      by_contra hnot
      push Not at hnot
      rw [rightOf_append_of_lt hnot] at h
      obtain ⟨x, hx, heq, -⟩ := mem_of_rightOf h
      exact hdisjoint x.1 (List.mem_map_of_mem hx) e.1 (by simp) heq
    refine ⟨hle, ?_⟩
    rw [rightOf_append_of_le hle, rightOf_cons] at h
    by_contra hlt
    rw [if_neg hlt] at h
    obtain ⟨x, hx, heq, -⟩ := mem_of_rightOf h
    exact (List.nodup_cons.mp htail).1 (heq ▸ List.mem_map_of_mem hx)
  · rintro ⟨hle, hlt⟩
    rw [rightOf_append_of_le hle, rightOf_cons, if_pos hlt]

/-- When an element is removed, the gaps before and after it become one. -/
theorem rightOf_remove [DecidableEq ι] (hnodup : ((as ++ e :: bs).map Prod.fst).Nodup)
    (hsorted : (as ++ e :: bs).Pairwise fun x y ↦ x.2 ≤ y.2) (k : κ) :
    rightOf (as ++ bs) k = if rightOf (as ++ e :: bs) k = some e.1 then bs.head?.map Prod.fst
      else rightOf (as ++ e :: bs) k := by
  split <;> rename_i h
  · obtain ⟨hle, hlt⟩ := (rightOf_eq_some_iff hnodup).mp h
    have hbs := (List.pairwise_cons.mp (List.pairwise_append.mp hsorted).2.1).1
    rw [rightOf_append_of_le hle, rightOf_of_lt fun x hx ↦ hlt.trans_le (hbs x hx)]
  · by_cases hle : ∀ x ∈ as, x.2 ≤ k
    · have hlt : ¬ k < e.2 := fun hlt ↦ h ((rightOf_eq_some_iff hnodup).mpr ⟨hle, hlt⟩)
      rw [rightOf_append_of_le hle, rightOf_append_of_le hle, rightOf_cons, if_neg hlt]
    · push Not at hle
      rw [rightOf_append_of_lt hle, rightOf_append_of_lt hle]

/-- An element whose key is there before it makes no difference to the gaps. -/
theorem rightOf_insert (h : ∃ x ∈ as, x.2 = e.2) (bs : List (ι × κ)) (k : κ) :
    rightOf (as ++ e :: bs) k = rightOf (as ++ bs) k := by
  obtain ⟨x, hx, heq⟩ := h
  by_cases hle : ∀ x ∈ as, x.2 ≤ k
  · have hlt : ¬ k < e.2 := not_lt.mpr (heq ▸ hle x hx)
    rw [rightOf_append_of_le hle, rightOf_append_of_le hle, rightOf_cons, if_neg hlt]
  · push Not at hle
    rw [rightOf_append_of_lt hle, rightOf_append_of_lt hle]

/-! ## Marks -/

/-- The keys of a tree. -/
def keys (xs : List (ι × κ)) : List κ := xs.map Prod.snd

omit [LinearOrder κ] in
theorem mem_keys {k : κ} : k ∈ keys xs ↔ ∃ x ∈ xs, x.2 = k := List.mem_map

/-- The gap that the key of an element falls into when the last element with it is removed. -/
theorem rightOf_removed (hsorted : (as ++ e :: bs).Pairwise fun x y ↦ x.2 ≤ y.2)
    (hgone : e.2 ∉ keys (as ++ bs)) : rightOf (as ++ bs) e.2 = bs.head?.map Prod.fst := by
  obtain ⟨-, htail, hle⟩ := List.pairwise_append.mp hsorted
  have hlt : ∀ x ∈ bs, e.2 < x.2 := fun x hx ↦
    ((List.pairwise_cons.mp htail).1 x hx).lt_of_ne fun heq ↦
      hgone (mem_keys.mpr ⟨x, List.mem_append_right _ hx, heq.symm⟩)
  rw [rightOf_append_of_le fun x hx ↦ hle x hx e (by simp), rightOf_of_lt hlt]

/-- The gaps with a key of `D` are the marked ones. -/
def Marks (xs : List (ι × κ)) (D : Set κ) (M : Option ι → Prop) : Prop :=
  ∀ m, M m ↔ ∃ k ∈ D, k ∉ keys xs ∧ rightOf xs k = m

variable {D : Set κ} {M M' : Option ι → Prop}

theorem Marks.congr (h : Marks xs D M) (hM : ∀ m, M' m ↔ M m) : Marks xs D M' :=
  fun m ↦ (hM m).trans (h m)

/-- Without a mark, all keys of the set are in the tree. -/
theorem Marks.mem_keys (h : Marks xs D M) (hM : ∀ m, ¬ M m) {k : κ} (hk : k ∈ D) : k ∈ keys xs := by
  by_contra hnot
  exact hM _ ((h _).mpr ⟨k, hk, hnot, rfl⟩)

theorem marks_of_mem_keys (h : ∀ k ∈ D, k ∈ keys xs) (hM : ∀ m, ¬ M m) : Marks xs D M := by
  intro m
  constructor
  · exact fun hm ↦ absurd hm (hM m)
  · rintro ⟨k, hk, hnot, -⟩
    exact absurd (h k hk) hnot

/-- The marked gaps are next to elements of the tree. -/
theorem Marks.mem_of_some (h : Marks xs D M) (hm : M (some i)) :
    ∃ as e bs, xs = as ++ e :: bs ∧ e.1 = i ∧ ∀ x ∈ as, x.2 < e.2 := by
  obtain ⟨k, -, -, hright⟩ := (h _).mp hm
  obtain ⟨e, hfind, rfl⟩ := Option.map_eq_some_iff.mp hright
  obtain ⟨hlt, as, bs, rfl, has⟩ := List.find?_eq_some_iff_append.mp hfind
  refine ⟨as, e, bs, rfl, rfl, fun x hx ↦ ?_⟩
  have hle : x.2 ≤ k := by simpa using has x hx
  exact hle.trans_lt (by simpa using hlt)

/-- **An element is removed.**  The mark of the gap before it passes to its right-hand neighbour,
which is marked in any case if the key is not in the tree any more. -/
theorem Marks.remove [DecidableEq ι] (h : Marks (as ++ e :: bs) D M)
    (hnodup : ((as ++ e :: bs).map Prod.fst).Nodup)
    (hsorted : (as ++ e :: bs).Pairwise fun x y ↦ x.2 ≤ y.2) (he : e.2 ∈ D) :
    Marks (as ++ bs) D fun m ↦ m ≠ some e.1 ∧ M m ∨
      m = bs.head?.map Prod.fst ∧ (M (some e.1) ∨ e.2 ∉ keys (as ++ bs)) := by
  have hright := rightOf_remove hnodup hsorted
  have hkeys : ∀ k, k ∈ keys (as ++ e :: bs) ↔ k = e.2 ∨ k ∈ keys (as ++ bs) := by
    intro k
    simp only [keys, List.map_append, List.map_cons, List.mem_append, List.mem_cons]
    tauto
  intro m
  constructor
  · rintro (⟨hne, hm⟩ | ⟨rfl, hm | hgone⟩)
    · obtain ⟨k, hk, hnot, rfl⟩ := (h m).mp hm
      exact ⟨k, hk, fun hmem ↦ hnot ((hkeys k).mpr (.inr hmem)), by rw [hright, if_neg hne]⟩
    · obtain ⟨k, hk, hnot, heq⟩ := (h _).mp hm
      exact ⟨k, hk, fun hmem ↦ hnot ((hkeys k).mpr (.inr hmem)), by rw [hright, if_pos heq]⟩
    · exact ⟨e.2, he, hgone, rightOf_removed hsorted hgone⟩
  · rintro ⟨k, hk, hnot, rfl⟩
    by_cases hek : k = e.2
    · subst hek
      exact .inr ⟨rightOf_removed hsorted hnot, .inr hnot⟩
    · have hm : M (rightOf (as ++ e :: bs) k) :=
        (h _).mpr ⟨k, hk, fun hmem ↦ ((hkeys k).mp hmem).elim hek hnot, rfl⟩
      rw [hright]
      split <;> rename_i heq
      · exact .inr ⟨rfl, .inl (heq ▸ hm)⟩
      · exact .inl ⟨heq, hm⟩

/-- **An element is inserted** after another one with its key. -/
theorem Marks.insert (h : Marks (as ++ bs) D M) (he : ∃ x ∈ as, x.2 = e.2) :
    Marks (as ++ e :: bs) D M := by
  have hkeys : ∀ k, k ∈ keys (as ++ e :: bs) ↔ k ∈ keys (as ++ bs) := by
    intro k
    simp only [keys, List.map_append, List.map_cons, List.mem_append, List.mem_cons]
    constructor
    · rintro (hk | rfl | hk)
      · exact .inl hk
      · exact .inl (List.mem_map.mpr he)
      · exact .inr hk
    · tauto
  intro m
  rw [h m]
  simp only [hkeys, rightOf_insert he]

/-- **The mark of a gap is cleared**, and with it all keys in the gap. -/
theorem Marks.clear (h : Marks xs D M) (m : Option ι) :
    Marks xs {k ∈ D | ¬ (k ∉ keys xs ∧ rightOf xs k = m)} fun m' ↦ m' ≠ m ∧ M m' := by
  intro m'
  constructor
  · rintro ⟨hne, hm'⟩
    obtain ⟨k, hk, hnot, rfl⟩ := (h m').mp hm'
    exact ⟨k, ⟨hk, fun hm ↦ hne hm.2⟩, hnot, rfl⟩
  · rintro ⟨k, ⟨hk, hm⟩, hnot, rfl⟩
    exact ⟨fun heq ↦ hm ⟨hnot, heq⟩, (h _).mpr ⟨k, hk, hnot, rfl⟩⟩

end Gaps

end Tree

end Rust
