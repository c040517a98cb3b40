import Mathlib.Data.List.Forall2
import Mathlib.Data.List.Perm.Subperm
import Emcyphal.Utils.MultiClassQueue

/-!
# A map with a queue of its keys

`emcyphal/src/utils/index_queue.rs`.  At most `N` keys have a value each; an array maps a key to the
entry that stores it, and the entries are nodes of a `MultiClassQueue` with a class for the queue
and one for the free entries.  An entry in neither class belongs to a key that is not queued.

`Represents` reads off a table of values and the list of the queued keys.
-/

set_option autoImplicit false

namespace Emcyphal

open Rust

/-- `Into<usize>`, for keys that are told apart by their numbers. -/
class IntoUsize (K : Type) where
  intoUsize : K → ℕ
  injective : Function.Injective intoUsize

export IntoUsize (intoUsize)

structure IndexQueue (K V : Type) (K_MAX N : ℕ) where
  keys : List (Option K)
  values : List (Option V)
  index : List ℕ
  queue : MultiClassQueue 2 N

namespace IndexQueue

def QUEUE_CLASS : ℕ := 0

def FREE_CLASS : ℕ := QUEUE_CLASS + 1

def NO_ENTRY : ℕ := 255

variable {K V : Type} {K_MAX N : ℕ}

def new (K V : Type) (K_MAX N : ℕ) : Exec (IndexQueue K V K_MAX N) := do
  let queue ← MultiClassQueue.new 2 N
  let queue ← (List.range N).foldlM (fun queue i ↦ do
    let entry ← unwrap (u8TryFrom i)
    queue.moveBack FREE_CLASS entry) queue
  return ⟨List.replicate N none, List.replicate N none, List.replicate (1 + K_MAX) NO_ENTRY, queue⟩

variable [IntoUsize K]

def getIndex (q : IndexQueue K V K_MAX N) (key : K) : Exec (Option ℕ) := do
  if intoUsize key > K_MAX then return none
  let idx ← Rust.index q.index (intoUsize key)
  return if idx ≠ NO_ENTRY then some idx else none

def contains (q : IndexQueue K V K_MAX N) (key : K) : Exec Bool := do
  return (← q.getIndex key).isSome

def get (q : IndexQueue K V K_MAX N) (key : K) : Exec (Option V) := do
  match ← q.getIndex key with
  | none => return none
  | some idx => return some (← unwrap (← Rust.index q.values idx))

/-- What is left after `value` was written through the reference `get_mut` returned. -/
def set (q : IndexQueue K V K_MAX N) (key : K) (value : V) : Exec (IndexQueue K V K_MAX N) := do
  let idx ← unwrap (← q.getIndex key)
  return { q with values := ← assign q.values idx (some value) }

/-- The value `get_mut` returns a reference to, and what is left after it was replaced by `f` of
it. -/
def getMut (q : IndexQueue K V K_MAX N) (key : K) (f : V → V) :
    Exec (Option V × IndexQueue K V K_MAX N) := do
  match ← q.getIndex key with
  | none => return (none, q)
  | some idx =>
    let value ← unwrap (← Rust.index q.values idx)
    return (some value, { q with values := ← assign q.values idx (some (f value)) })

/-- Fails if the key is too large or no entry is free. -/
def insert (q : IndexQueue K V K_MAX N) (key : K) (value : V) :
    Exec (Option (Option V × IndexQueue K V K_MAX N)) := do
  if intoUsize key > K_MAX then return none
  match ← q.getIndex key with
  | some idx =>
    let value ← unwrap (← Rust.index q.values idx)
    return some (some value, { q with values := ← assign q.values idx none })
  | none =>
    match ← q.queue.front FREE_CLASS with
    | none => return none
    | some idx =>
      let queue ← q.queue.remove idx
      return some (none,
        { keys := ← assign q.keys idx (some key)
          values := ← assign q.values idx (some value)
          index := ← assign q.index (intoUsize key) idx
          queue := queue })

def remove (q : IndexQueue K V K_MAX N) (key : K) : Exec (Option V × IndexQueue K V K_MAX N) := do
  match ← q.getIndex key with
  | none => return (none, q)
  | some idx =>
    let index ← assign q.index (intoUsize key) NO_ENTRY
    let queue ← q.queue.moveBack FREE_CLASS idx
    let keys ← assign q.keys idx none
    let value ← unwrap (← Rust.index q.values idx)
    return (some value,
      { keys := keys, values := ← assign q.values idx none, index := index, queue := queue })

def front (q : IndexQueue K V K_MAX N) : Exec (Option K) := do
  match ← q.queue.front QUEUE_CLASS with
  | none => return none
  | some idx => Rust.index q.keys idx

def back (q : IndexQueue K V K_MAX N) : Exec (Option K) := do
  match ← q.queue.back QUEUE_CLASS with
  | none => return none
  | some idx => Rust.index q.keys idx

/-- Fails if the key has no value. -/
def enqueueFront (q : IndexQueue K V K_MAX N) (key : K) :
    Exec (Option (IndexQueue K V K_MAX N)) := do
  match ← q.getIndex key with
  | none => return none
  | some idx => return some { q with queue := ← q.queue.moveFront QUEUE_CLASS idx }

/-- Fails if the key has no value. -/
def enqueueBack (q : IndexQueue K V K_MAX N) (key : K) :
    Exec (Option (IndexQueue K V K_MAX N)) := do
  match ← q.getIndex key with
  | none => return none
  | some idx => return some { q with queue := ← q.queue.moveBack QUEUE_CLASS idx }

/-- Fails if the key has no value. -/
def dequeue (q : IndexQueue K V K_MAX N) (key : K) : Exec (Option (IndexQueue K V K_MAX N)) := do
  match ← q.getIndex key with
  | none => return none
  | some idx => return some { q with queue := ← q.queue.remove idx }

/-! ## A table and a list of keys -/

/-- The entries `entry` of the keys in the table, and the entries of the queued keys. -/
structure Holds (q : IndexQueue K V K_MAX N) (lists : Fin 2 → List (Fin N))
    (entry : K → Option (Fin N)) (table : K → Option V) (order : List K) : Prop where
  queue : q.queue.Represents lists
  length_keys : q.keys.length = N
  length_values : q.values.length = N
  length_index : q.index.length = 1 + K_MAX
  index : ∀ key, intoUsize key ≤ K_MAX →
    q.index[intoUsize key]? = some ((entry key).elim NO_ENTRY Fin.val)
  in_range : ∀ key e, entry key = some e → intoUsize key ≤ K_MAX
  key : ∀ key e, entry key = some e → q.keys[e.val]? = some (some key)
  value : ∀ key e, entry key = some e → ∃ v, table key = some v ∧ q.values[e.val]? = some (some v)
  absent : ∀ key, entry key = none → table key = none
  free : ∀ e, e ∈ lists 1 ↔ ∀ key, entry key ≠ some e
  order : List.Forall₂ (fun e key ↦ entry key = some e) (lists 0) order

/-- What a map with a queue holds. -/
def Represents (q : IndexQueue K V K_MAX N) (table : K → Option V) (order : List K) : Prop :=
  ∃ lists entry, Holds q lists entry table order

variable {q : IndexQueue K V K_MAX N} {lists : Fin 2 → List (Fin N)} {entry : K → Option (Fin N)}
  {table : K → Option V} {order : List K} {key : K}

theorem Holds.injective (h : Holds q lists entry table order) {key key' : K} {e : Fin N}
    (hk : entry key = some e) (hk' : entry key' = some e) : key = key' := by
  have heq := (h.key key e hk).symm.trans (h.key key' e hk')
  simpa using heq

theorem Holds.getIndex_eq (h : Holds q lists entry table order) (hN : N ≤ NO_ENTRY) (key : K) :
    q.getIndex key = .ok ((entry key).map Fin.val) := by
  rw [getIndex]
  by_cases hkey : intoUsize key ≤ K_MAX
  · rw [if_neg (Nat.not_lt.mpr hkey), index_of_getElem? (h.index key hkey), ok_bind, pure_eq_ok]
    cases he : entry key with
    | none => simp
    | some e =>
      have hne : e.val ≠ NO_ENTRY := by
        have := e.isLt
        omega
      simp [hne]
  · rw [if_pos (Nat.lt_of_not_le hkey)]
    cases he : entry key with
    | none => rfl
    | some e => exact absurd (h.in_range key e he) hkey

theorem get_eq (hN : N ≤ NO_ENTRY) (h : Represents q table order) (key : K) :
    q.get key = .ok (table key) := by
  obtain ⟨lists, entry, h⟩ := h
  rw [get, h.getIndex_eq hN, ok_bind]
  cases he : entry key with
  | none => rw [h.absent key he]; rfl
  | some e =>
    obtain ⟨v, hv, hvalue⟩ := h.value key e he
    simp only [Option.map_some, index_of_getElem? hvalue, ok_bind, unwrap_some, hv, pure_eq_ok]

theorem contains_eq (hN : N ≤ NO_ENTRY) (h : Represents q table order) (key : K) :
    q.contains key = .ok (table key).isSome := by
  obtain ⟨lists, entry, h⟩ := h
  rw [contains, h.getIndex_eq hN, ok_bind, pure_eq_ok]
  cases he : entry key with
  | none => rw [h.absent key he]; rfl
  | some e =>
    obtain ⟨v, hv, -⟩ := h.value key e he
    rw [hv]; rfl

theorem front_eq (h : Represents q table order) : q.front = .ok order.head? := by
  obtain ⟨lists, entry, h⟩ := h
  rw [front, show QUEUE_CLASS = (0 : Fin 2).val from rfl, MultiClassQueue.front_eq h.queue]
  have horder := h.order
  cases hl : lists 0 with
  | nil =>
    rw [hl, List.forall₂_nil_left_iff] at horder
    rw [horder]
    rfl
  | cons e l =>
    rw [hl] at horder
    obtain ⟨key, rest, hkey, -, rfl⟩ := List.forall₂_cons_left_iff.mp horder
    simp only [List.head?_cons, Option.map_some, ok_bind, index_of_getElem? (h.key key e hkey)]

theorem new_represents (h : 2 + N ≤ 256) :
    ∃ q : IndexQueue K V K_MAX N, new K V K_MAX N = .ok q ∧ Represents q (fun _ ↦ none) [] := by
  obtain ⟨queue, hnew, hqueue⟩ := MultiClassQueue.new_represents h
  obtain ⟨queue', hfill, hqueue'⟩ := MultiClassQueue.fill_represents hqueue (by omega) (1 : Fin 2)
  refine ⟨⟨List.replicate N none, List.replicate N none, List.replicate (1 + K_MAX) NO_ENTRY,
    queue'⟩, ?_, _, fun _ ↦ none, hqueue', List.length_replicate, List.length_replicate,
    List.length_replicate, fun key hkey ↦ ?_, by simp, by simp, by simp, by simp, by simp, by simp⟩
  · rw [new, hnew, ok_bind, show FREE_CLASS = (1 : Fin 2).val from rfl, hfill, ok_bind, pure_eq_ok]
  · rw [List.getElem?_replicate, if_pos (by omega)]
    rfl

/-- As long as fewer than `N` keys have a value, an entry is free. -/
theorem Holds.exists_free (h : Holds q lists entry table order) {dom : List K}
    (hdom : ∀ key, (table key).isSome → key ∈ dom) (hroom : dom.length < N) :
    ∃ e rest, lists 1 = e :: rest := by
  rcases List.eq_nil_or_concat (lists 1) with hnil | ⟨_, _, hcons⟩
  · -- every entry belongs to a key of `dom`
    have hsub : List.finRange N ⊆ dom.filterMap entry := by
      intro e _
      have hused : e ∉ lists 1 := by rw [hnil]; exact List.not_mem_nil
      obtain ⟨key, hkey⟩ := not_forall.mp (mt (h.free e).mpr hused)
      rw [not_not] at hkey
      obtain ⟨v, hv, -⟩ := h.value key e hkey
      exact List.mem_filterMap.mpr ⟨key, hdom key (by rw [hv]; rfl), hkey⟩
    have hle := ((List.nodup_finRange N).subperm hsub).length_le
    have hle' := List.length_filterMap_le entry dom
    rw [List.length_finRange] at hle
    omega
  · cases hl : lists 1 with
    | nil => rw [hl] at hcons; simp at hcons
    | cons e rest => exact ⟨e, rest, rfl⟩

/-- The entry of a queued key moves; nothing else changes. -/
theorem Holds.move (h : Holds q lists entry table order) {e : Fin N} (he : entry key = some e)
    {queue : MultiClassQueue 2 N} {l : List (Fin N)} {o : List K}
    (hqueue : queue.Represents (Function.update (MultiClassQueue.erase lists e) 0 l))
    (ho : List.Forall₂ (fun e key ↦ entry key = some e) l o) :
    Represents ({ q with queue := queue } : IndexQueue K V K_MAX N) table o := by
  refine ⟨_, entry, { h with queue := hqueue, free := fun e' ↦ ?_, order := ?_ }⟩
  · rw [Function.update_of_ne (show (1 : Fin 2) ≠ 0 by decide), MultiClassQueue.erase,
      (h.queue.links.1 1).mem_erase_iff, h.free]
    refine and_iff_right_of_imp fun hnone heq ↦ hnone key (by rw [heq, he])
  · rwa [Function.update_self]

variable [DecidableEq K]

/-- The value of a key is replaced through a reference. -/
theorem set_represents (hN : N ≤ NO_ENTRY) (h : Represents q table order) {v : V}
    (hv : table key = some v) (v' : V) : ∃ q', q.set key v' = .ok q' ∧
      Represents q' (Function.update table key (some v')) order := by
  obtain ⟨lists, entry, h⟩ := h
  cases he : entry key with
  | none => exact absurd (hv.symm.trans (h.absent key he)) (by simp)
  | some e =>
    have hlen : e.val < q.values.length := h.length_values.symm ▸ e.isLt
    refine ⟨{ q with values := q.values.set e (some v') }, ?_, lists, entry, { h with
      length_values := by rw [List.length_set, h.length_values]
      value := fun key' e' he' ↦ ?_
      absent := fun key' he' ↦ ?_ }⟩
    · rw [set, h.getIndex_eq hN, ok_bind, he, Option.map_some, unwrap_some, ok_bind,
        assign_of_lt hlen, ok_bind, pure_eq_ok]
    · by_cases hk : key' = key
      · subst hk
        cases he.symm.trans he'
        exact ⟨v', Function.update_self _ _ _, List.getElem?_set_self hlen⟩
      · obtain ⟨v₁, hv₁, hvalue⟩ := h.value key' e' he'
        have hne : e.val ≠ e'.val := fun heq ↦ hk (h.injective he' (Fin.ext heq ▸ he))
        exact ⟨v₁, by rw [Function.update_of_ne hk, hv₁], by rw [List.getElem?_set_ne hne, hvalue]⟩
    · by_cases hk : key' = key
      · subst hk
        exact absurd (he.symm.trans he') (by simp)
      · rw [Function.update_of_ne hk, h.absent key' he']

/-- Forgetting one key, in the list of entries and in the list of keys. -/
theorem forall₂_erase {α β : Type} [DecidableEq α] [DecidableEq β] {entry : β → Option α}
    {l : List α} {o : List β} (h : List.Forall₂ (fun e key ↦ entry key = some e) l o) {e : α}
    {key : β} (he : entry key = some e) (hinj : ∀ key', entry key' = some e → key' = key) :
    List.Forall₂ (fun e key ↦ entry key = some e) (l.erase e) (o.erase key) := by
  induction h with
  | nil => exact .nil
  | @cons e' key' l o hk _ ih =>
    rw [List.erase_cons, List.erase_cons]
    by_cases hee : e' = e
    · have hkk := hinj key' (hee ▸ hk)
      subst hee hkk
      simpa
    · have hkk : key' ≠ key :=
        fun hkk ↦ hee (by rw [hkk, he] at hk; exact (Option.some.inj hk).symm)
      rw [if_neg (by simpa using hee), if_neg (by simpa using hkk)]
      exact .cons hk ih

/-- A new key gets a free entry. -/
theorem insert_represents (hN : N ≤ NO_ENTRY) (h : Represents q table order)
    (hkey : intoUsize key ≤ K_MAX) (hnew : table key = none) {dom : List K}
    (hdom : ∀ key, (table key).isSome → key ∈ dom) (hroom : dom.length < N) (v : V) :
    ∃ q', q.insert key v = .ok (some (none, q')) ∧
      Represents q' (Function.update table key (some v)) order := by
  obtain ⟨lists, entry, h⟩ := h
  have hentry : entry key = none := by
    cases he : entry key with
    | none => rfl
    | some e =>
      obtain ⟨v, hv, -⟩ := h.value key e he
      exact absurd (hv.symm.trans hnew) (by simp)
  obtain ⟨e, rest, hfree⟩ := h.exists_free hdom hroom
  have hmem : e ∈ lists 1 := hfree ▸ List.mem_cons_self
  have hunused : ∀ key', entry key' ≠ some e := (h.free e).mp hmem
  have hfront := MultiClassQueue.front_eq h.queue 1
  rw [hfree, List.head?_cons, Option.map_some] at hfront
  obtain ⟨queue, hremove, hqueue⟩ := MultiClassQueue.remove_represents h.queue e
  have hk : e.val < q.keys.length := h.length_keys.symm ▸ e.isLt
  have hv : e.val < q.values.length := h.length_values.symm ▸ e.isLt
  have hi : intoUsize key < q.index.length := by rw [h.length_index]; omega
  refine ⟨⟨q.keys.set e (some key), q.values.set e (some v), q.index.set (intoUsize key) e, queue⟩,
    ?_, _, Function.update entry key (some e), hqueue, ?_, ?_, ?_, fun key' hkey' ↦ ?_,
    fun key' e' he' ↦ ?_, fun key' e' he' ↦ ?_, fun key' e' he' ↦ ?_, fun key' he' ↦ ?_,
    fun e' ↦ ?_, ?_⟩
  · rw [insert, if_neg (Nat.not_lt.mpr hkey), h.getIndex_eq hN, ok_bind, hentry, Option.map_none]
    simp only
    rw [show FREE_CLASS = (1 : Fin 2).val from rfl, hfront, ok_bind]
    simp only [hremove, ok_bind, assign_of_lt hk, assign_of_lt hv, assign_of_lt hi, pure_eq_ok]
  · rw [List.length_set, h.length_keys]
  · rw [List.length_set, h.length_values]
  · rw [List.length_set, h.length_index]
  · by_cases hkk : key' = key
    · subst hkk
      rw [List.getElem?_set_self hi, Function.update_self]
      rfl
    · have hne : intoUsize key ≠ intoUsize key' := fun heq ↦ hkk (IntoUsize.injective heq).symm
      rw [List.getElem?_set_ne hne, Function.update_of_ne hkk, h.index key' hkey']
  · by_cases hkk : key' = key
    · exact hkk ▸ hkey
    · rw [Function.update_of_ne hkk] at he'
      exact h.in_range key' e' he'
  · by_cases hkk : key' = key
    · subst hkk
      rw [Function.update_self] at he'
      cases he'
      exact List.getElem?_set_self hk
    · rw [Function.update_of_ne hkk] at he'
      have hne : e.val ≠ e'.val := fun heq ↦ hunused key' (Fin.ext heq ▸ he')
      rw [List.getElem?_set_ne hne, h.key key' e' he']
  · by_cases hkk : key' = key
    · subst hkk
      rw [Function.update_self] at he'
      cases he'
      exact ⟨v, Function.update_self _ _ _, List.getElem?_set_self hv⟩
    · rw [Function.update_of_ne hkk] at he'
      have hne : e.val ≠ e'.val := fun heq ↦ hunused key' (Fin.ext heq ▸ he')
      obtain ⟨v', hv', hvalue⟩ := h.value key' e' he'
      exact ⟨v', by rw [Function.update_of_ne hkk, hv'], by rw [List.getElem?_set_ne hne, hvalue]⟩
  · by_cases hkk : key' = key
    · subst hkk
      exact absurd he' (by simp)
    · rw [Function.update_of_ne hkk] at he' ⊢
      exact h.absent key' he'
  · rw [MultiClassQueue.erase, (h.queue.links.1 1).mem_erase_iff, h.free]
    constructor
    · rintro ⟨hne, hnone⟩ key'
      by_cases hkk : key' = key
      · subst hkk
        rw [Function.update_self]
        exact fun heq ↦ hne (Option.some.inj heq).symm
      · rw [Function.update_of_ne hkk]
        exact hnone key'
    · intro hnone
      refine ⟨fun heq ↦ hnone key (by rw [Function.update_self, heq]), fun key' heq ↦ ?_⟩
      by_cases hkk : key' = key
      · exact absurd (hkk ▸ heq) (by rw [hentry]; simp)
      · exact hnone key' (by rw [Function.update_of_ne hkk, heq])
  · rw [h.queue.erase_of_ne hmem (by decide)]
    refine h.order.imp fun e' key' he' ↦ ?_
    have hkk : key' ≠ key := by
      rintro rfl
      exact absurd (he'.symm.trans hentry) (by simp)
    rw [Function.update_of_ne hkk, he']

/-- A key is removed; its entry is free again. -/
theorem remove_represents (hN : N ≤ NO_ENTRY) (h : Represents q table order) {v : V}
    (hv : table key = some v) : ∃ q', q.remove key = .ok (some v, q') ∧
      Represents q' (Function.update table key none) (order.erase key) := by
  obtain ⟨lists, entry, h⟩ := h
  cases he : entry key with
  | none => exact absurd (hv.symm.trans (h.absent key he)) (by simp)
  | some e =>
    obtain ⟨v', hv', hvalue⟩ := h.value key e he
    cases hv.symm.trans hv'
    have hinj : ∀ key', entry key' = some e → key' = key := fun key' he' ↦ h.injective he' he
    obtain ⟨queue, hmove, hqueue⟩ := MultiClassQueue.moveBack_represents h.queue 1 e
    have hk : e.val < q.keys.length := h.length_keys.symm ▸ e.isLt
    have hl : e.val < q.values.length := h.length_values.symm ▸ e.isLt
    have hkey := h.in_range key e he
    have hi : intoUsize key < q.index.length := by rw [h.length_index]; omega
    have hsome : ∀ key' e', Function.update entry key none key' = some e' →
        key' ≠ key ∧ entry key' = some e' ∧ e.val ≠ e'.val := by
      intro key' e' he'
      by_cases hkk : key' = key
      · subst hkk
        exact absurd he' (by simp)
      · rw [Function.update_of_ne hkk] at he'
        exact ⟨hkk, he', fun heq ↦ hkk (hinj key' (Fin.ext heq ▸ he'))⟩
    refine ⟨⟨q.keys.set e none, q.values.set e none, q.index.set (intoUsize key) NO_ENTRY, queue⟩,
      ?_, _, Function.update entry key none, hqueue, ?_, ?_, ?_, fun key' hkey' ↦ ?_,
      fun key' e' he' ↦ ?_, fun key' e' he' ↦ ?_, fun key' e' he' ↦ ?_, fun key' he' ↦ ?_,
      fun e' ↦ ?_, ?_⟩
    · rw [remove, h.getIndex_eq hN, ok_bind, he, Option.map_some]
      simp only [assign_of_lt hi, assign_of_lt hk, assign_of_lt hl, ok_bind,
        show FREE_CLASS = (1 : Fin 2).val from rfl, hmove, index_of_getElem? hvalue, unwrap_some,
        pure_eq_ok]
    · rw [List.length_set, h.length_keys]
    · rw [List.length_set, h.length_values]
    · rw [List.length_set, h.length_index]
    · by_cases hkk : key' = key
      · subst hkk
        rw [List.getElem?_set_self hi, Function.update_self]
        rfl
      · have hne : intoUsize key ≠ intoUsize key' := fun heq ↦ hkk (IntoUsize.injective heq).symm
        rw [List.getElem?_set_ne hne, Function.update_of_ne hkk, h.index key' hkey']
    · exact h.in_range key' e' (hsome key' e' he').2.1
    · obtain ⟨-, he', hne⟩ := hsome key' e' he'
      rw [List.getElem?_set_ne hne, h.key key' e' he']
    · obtain ⟨hkk, he', hne⟩ := hsome key' e' he'
      obtain ⟨v', hv', hvalue'⟩ := h.value key' e' he'
      exact ⟨v', by rw [Function.update_of_ne hkk, hv'], by rw [List.getElem?_set_ne hne, hvalue']⟩
    · by_cases hkk : key' = key
      · subst hkk
        exact Function.update_self _ _ _
      · rw [Function.update_of_ne hkk] at he' ⊢
        exact h.absent key' he'
    · rw [Function.update_self, List.mem_append, List.mem_singleton, MultiClassQueue.erase,
        (h.queue.links.1 1).mem_erase_iff, h.free]
      constructor
      · intro hmem key' he'
        obtain ⟨hkk, he', hne⟩ := hsome key' e' he'
        rcases hmem with ⟨-, hnone⟩ | rfl
        · exact hnone key' he'
        · exact hne rfl
      · intro hnone
        by_cases hee : e' = e
        · exact .inr hee
        · refine .inl ⟨hee, fun key' he' ↦ hnone key' ?_⟩
          have hkk : key' ≠ key := by
            rintro rfl
            exact hee (Option.some.inj (he'.symm.trans he))
          rw [Function.update_of_ne hkk, he']
    · rw [Function.update_of_ne (show (0 : Fin 2) ≠ 1 by decide)]
      have herase := forall₂_erase h.order he hinj
      have hnodup := h.queue.links.1 0
      refine (List.forall₂_iff_get.mpr ⟨herase.length_eq, fun i hi hi' ↦ ?_⟩)
      have hget := List.forall₂_iff_get.mp herase |>.2 i hi hi'
      have hne : (order.erase key).get ⟨i, hi'⟩ ≠ key := by
        intro heq
        rw [heq, he] at hget
        have hmem := List.get_mem ((lists 0).erase e) ⟨i, hi⟩
        rw [← Option.some.inj hget] at hmem
        exact (hnodup.mem_erase_iff.mp hmem).1 rfl
      rw [Function.update_of_ne hne, hget]
      rfl

theorem enqueueFront_represents (hN : N ≤ NO_ENTRY) (h : Represents q table order) {v : V}
    (hv : table key = some v) : ∃ q', q.enqueueFront key = .ok (some q') ∧
      Represents q' table (key :: order.erase key) := by
  obtain ⟨lists, entry, h⟩ := h
  cases he : entry key with
  | none => exact absurd (hv.symm.trans (h.absent key he)) (by simp)
  | some e =>
    obtain ⟨queue, hmove, hqueue⟩ := MultiClassQueue.moveFront_represents h.queue 0 e
    refine ⟨{ q with queue := queue }, ?_, h.move he hqueue (.cons he ?_)⟩
    · rw [enqueueFront, h.getIndex_eq hN, ok_bind, he, Option.map_some]
      simp only [show QUEUE_CLASS = (0 : Fin 2).val from rfl, hmove, ok_bind, pure_eq_ok]
    · exact forall₂_erase h.order he fun key' he' ↦ h.injective he' he

theorem enqueueBack_represents (hN : N ≤ NO_ENTRY) (h : Represents q table order) {v : V}
    (hv : table key = some v) : ∃ q', q.enqueueBack key = .ok (some q') ∧
      Represents q' table (order.erase key ++ [key]) := by
  obtain ⟨lists, entry, h⟩ := h
  cases he : entry key with
  | none => exact absurd (hv.symm.trans (h.absent key he)) (by simp)
  | some e =>
    obtain ⟨queue, hmove, hqueue⟩ := MultiClassQueue.moveBack_represents h.queue 0 e
    refine ⟨{ q with queue := queue }, ?_, h.move he hqueue
      (List.rel_append ?_ (.cons he .nil))⟩
    · rw [enqueueBack, h.getIndex_eq hN, ok_bind, he, Option.map_some]
      simp only [show QUEUE_CLASS = (0 : Fin 2).val from rfl, hmove, ok_bind, pure_eq_ok]
    · exact forall₂_erase h.order he fun key' he' ↦ h.injective he' he

end IndexQueue

end Emcyphal
