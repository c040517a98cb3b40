import Emcyphal.Registry.RxMsg
import Mathlib.Data.List.Chain

/-!
# The layout of the active tree

The active entries are sorted by subject, and the first one of each subject is a head.  `Layout`
says so about neighbours, and this file is about how it survives when an entry comes or goes.
-/

set_option autoImplicit false

namespace Emcyphal.RxMsg

open Rust Tree

/-- The entry `y` may come right after `x`: it is a head if it is the first one of its subject. -/
def Follows (x y : Entry) : Prop :=
  x.subject < y.subject ∧ y.isHead = true ∨ x.subject = y.subject ∧ y.isHead = false

/-- The entries are sorted by subject, and the first one of each subject is a head. -/
structure Layout (entries : List Entry) : Prop where
  follows : entries.IsChain Follows
  first : ∀ e ∈ entries.head?, e.isHead = true

/-- The first entry becomes a head. -/
def promote : List Entry → List Entry
  | [] => []
  | nextEntry :: rest => { nextEntry with isHead := true } :: rest

/-- What a tree needs to know about an entry. -/
def Entry.slot (e : Entry) : Address × SubjectId := (e.address, e.subject)

def slots (entries : List Entry) : List (Address × SubjectId) := entries.map Entry.slot

variable {as bs entries : List Entry} {e : Entry}

theorem Follows.le {x y : Entry} (h : Follows x y) : x.subject ≤ y.subject :=
  h.elim (fun h ↦ h.1.le) fun h ↦ h.1.le

theorem layout_nil : Layout [] := ⟨.nil, by simp⟩

theorem Layout.sorted (h : Layout entries) : entries.Pairwise fun x y ↦ x.subject ≤ y.subject :=
  List.isChain_iff_pairwise.mp (h.follows.imp fun _ _ ↦ Follows.le)

theorem Layout.sorted_slots (h : Layout entries) : (slots entries).Pairwise fun x y ↦ x.2 ≤ y.2 :=
  List.pairwise_map.mpr h.sorted

/-- A head is the first entry of its subject. -/
theorem Layout.lt_of_head (h : Layout (as ++ e :: bs)) (hhead : e.isHead = true) :
    ∀ x ∈ as, x.subject < e.subject := by
  rcases List.eq_nil_or_concat as with rfl | ⟨as, a, rfl⟩
  · simp
  · rw [List.concat_eq_append] at h ⊢
    have hfollows := (List.isChain_append.mp h.follows).2.2 a (by simp) e (by simp)
    have hlt : a.subject < e.subject := by
      rcases hfollows with ⟨hlt, -⟩ | ⟨-, htail⟩
      · exact hlt
      · rw [hhead] at htail
        cases htail
    intro x hx
    rcases List.mem_append.mp hx with hx | hx
    · have hle := (List.pairwise_append.mp (List.pairwise_append.mp h.sorted).1).2.2 x
        hx a (by simp)
      exact hle.trans_lt hlt
    · rwa [List.mem_singleton.mp hx]

/-- An entry that is not a head comes after one of its subject. -/
theorem Layout.mem_of_tail (h : Layout (as ++ e :: bs)) (htail : e.isHead = false) :
    ∃ x ∈ as, x.subject = e.subject := by
  rcases List.eq_nil_or_concat as with rfl | ⟨as, a, rfl⟩
  · have hhead := h.first e (by simp)
    rw [htail] at hhead
    cases hhead
  · rw [List.concat_eq_append] at h ⊢
    rcases (List.isChain_append.mp h.follows).2.2 a (by simp) e (by simp) with ⟨-, hhead⟩ | ⟨heq, -⟩
    · rw [htail] at hhead
      cases hhead
    · exact ⟨a, by simp, heq⟩

/-- What follows an entry that is removed, after what is before it. -/
theorem Layout.append (h : Layout as) (hbs : bs.IsChain Follows)
    (hne : ∀ x ∈ as.getLast?, ∀ y ∈ bs.head?, Follows x y)
    (hnil : as = [] → ∀ y ∈ bs.head?, y.isHead = true) : Layout (as ++ bs) := by
  refine ⟨List.isChain_append.mpr ⟨h.follows, hbs, hne⟩, ?_⟩
  cases as with
  | nil => exact hnil rfl
  | cons a as => exact h.first

theorem Layout.left (h : Layout (as ++ bs)) : Layout as := by
  refine ⟨(List.isChain_append.mp h.follows).1, ?_⟩
  cases as with
  | nil => simp
  | cons a as => exact h.first

theorem Layout.remove_tail (h : Layout (as ++ e :: bs)) (htail : e.isHead = false) :
    Layout (as ++ bs) := by
  obtain ⟨-, hbs, hlast⟩ := List.isChain_append.mp h.follows
  obtain ⟨hnext, hrest⟩ := List.isChain_cons.mp hbs
  refine h.left.append hrest ?_ ?_
  · intro x hx y hy
    -- The entry that goes has the subject of the one before it.
    rcases hlast x hx e (by simp) with ⟨-, hhead⟩ | ⟨heq, -⟩
    · rw [htail] at hhead
      cases hhead
    · have hfollows := hnext y hy
      rwa [Follows, ← heq] at hfollows
  · rintro rfl
    obtain ⟨x, hx, -⟩ := h.mem_of_tail htail
    cases hx

theorem Layout.remove_head (h : Layout (as ++ e :: bs)) (hhead : e.isHead = true) :
    Layout (as ++ promote bs) := by
  have hlt := h.lt_of_head hhead
  obtain ⟨-, hbs, -⟩ := List.isChain_append.mp h.follows
  obtain ⟨hnext, hrest⟩ := List.isChain_cons.mp hbs
  cases bs with
  | nil => exact h.left.append .nil (by simp [promote]) (by simp [promote])
  | cons n rest =>
    have hle : e.subject ≤ n.subject := (hnext n (by simp)).le
    refine h.left.append ?_ ?_ (by simp [promote])
    · rw [promote]
      obtain ⟨hafter, hrest⟩ := List.isChain_cons.mp hrest
      exact List.isChain_cons.mpr ⟨fun y hy ↦ hafter y hy, hrest⟩
    · intro x hx y hy
      obtain rfl : y = { n with isHead := true } := by simpa [promote, eq_comm] using hy
      exact .inl ⟨(hlt x (List.mem_of_mem_getLast? hx)).trans_le hle, rfl⟩

/-- An entry is inserted after the others of its subject, as a head if there are none. -/
theorem Layout.insert (h : Layout (as ++ bs)) (hle : ∀ x ∈ as, x.subject ≤ e.subject)
    (hlt : ∀ x ∈ bs, e.subject < x.subject)
    (hhead : e.isHead = true ↔ ∀ x ∈ as, x.subject ≠ e.subject) : Layout (as ++ e :: bs) := by
  obtain ⟨-, hbs, hlast⟩ := List.isChain_append.mp h.follows
  refine h.left.append (List.isChain_cons.mpr ⟨fun y hy ↦ ?_, hbs⟩) ?_ ?_
  · have hmem := List.mem_of_mem_head? hy
    refine .inl ⟨hlt y hmem, ?_⟩
    by_contra htail
    obtain ⟨rest, rfl⟩ := List.head?_eq_some_iff.mp hy
    obtain ⟨x, hx, heq⟩ := h.mem_of_tail (by simpa using htail)
    exact absurd (hle x hx) (not_le.mpr (heq ▸ hlt y hmem))
  · intro x hx y hy
    obtain rfl : y = e := by simpa [eq_comm] using hy
    have hmem := List.mem_of_mem_getLast? hx
    rcases (hle x hmem).lt_or_eq with hlt' | heq
    · refine .inl ⟨hlt', hhead.mpr fun z hz hze ↦ ?_⟩
      have hzx : z.subject ≤ x.subject := by
        obtain ⟨init, rfl⟩ := List.getLast?_eq_some_iff.mp hx
        rcases List.mem_append.mp hz with hz | hz
        · exact (List.pairwise_append.mp h.left.sorted).2.2 z hz x (by simp)
        · rw [List.mem_singleton.mp hz]
      exact absurd (hze ▸ hzx) (not_le.mpr hlt')
    · refine .inr ⟨heq, ?_⟩
      by_contra hne
      exact hhead.mp (by simpa using hne) x hmem heq
  · rintro rfl y hy
    obtain rfl : y = e := by simpa [eq_comm] using hy
    exact hhead.mpr (by simp)

@[simp] theorem slots_append (as bs : List Entry) : slots (as ++ bs) = slots as ++ slots bs :=
  List.map_append

@[simp] theorem slots_cons (e : Entry) (bs : List Entry) : slots (e :: bs) = e.slot :: slots bs :=
  rfl

@[simp] theorem slots_promote (bs : List Entry) : slots (promote bs) = slots bs := by
  cases bs <;> rfl

theorem head?_slots (bs : List Entry) :
    (slots bs).head?.map Prod.fst = bs.head?.map Entry.address := by
  cases bs <;> rfl

theorem mem_keys_slots {subject : SubjectId} :
    subject ∈ keys (slots entries) ↔ ∃ x ∈ entries, x.subject = subject := by
  rw [keys, slots, List.map_map]
  exact List.mem_map

theorem map_fst_slots (entries : List Entry) :
    (slots entries).map Prod.fst = entries.map Entry.address := List.map_map

end Emcyphal.RxMsg
