import Emcyphal.Lib.Machine
import Emcyphal.Utils.IndexQueue
import Mathlib.Data.List.AList

/-!
# A queue with keys is a bounded map with a list of keys

As long as `insert` is only called for keys that are not in the map, an `IndexQueue` shows what
a finite map of at most `N` keys and a list of some of its keys would show (`run_map_queue`), and no
`unwrap` fails.

For a key that is in the map already `insert` takes its value and returns it, and drops the new one.
The entry of the key is left without a value, and the next `get`, `get_mut`, `insert` or `remove` of
it panics (`insert_present`).
-/

set_option autoImplicit false

namespace Emcyphal

open Rust

namespace IndexQueue

/-! ## Maps as functions -/

theorem lookup_insert_eq {K V : Type} [DecidableEq K] (s : AList fun _ : K ↦ V) (key : K)
    (value : V) :
    (fun key' ↦ (s.insert key value).lookup key') =
      Function.update (fun key' ↦ s.lookup key') key (some value) := by
  funext key'
  by_cases h : key' = key
  · subst h
    rw [AList.lookup_insert, Function.update_self]
  · rw [AList.lookup_insert_ne h, Function.update_of_ne h]

theorem lookup_erase_eq {K V : Type} [DecidableEq K] (s : AList fun _ : K ↦ V) (key : K) :
    (fun key' ↦ (s.erase key).lookup key') =
      Function.update (fun key' ↦ s.lookup key') key none := by
  funext key'
  by_cases h : key' = key
  · subst h
    rw [AList.lookup_erase, Function.update_self]
  · rw [AList.lookup_erase_ne h, Function.update_of_ne h]

variable {K V : Type} {K_MAX N : ℕ} [IntoUsize K] {q : IndexQueue K V K_MAX N}
  {table : K → Option V} {order : List K} {key : K}

/-! ## What else the operations do -/

theorem back_eq (h : Represents q table order) : q.back = .ok order.getLast? := by
  obtain ⟨lists, entry, h⟩ := h
  rw [back, show QUEUE_CLASS = (0 : Fin 2).val from rfl, MultiClassQueue.back_eq h.queue]
  have horder := h.order
  rcases List.eq_nil_or_concat' (lists 0) with hl | ⟨l, e, hl⟩
  · rw [hl, List.forall₂_nil_left_iff] at horder
    rw [hl, horder]
    rfl
  · rw [hl] at horder
    have hreverse := List.forall₂_reverse_iff.mpr horder
    rw [List.reverse_concat'] at hreverse
    obtain ⟨key, rest, hkey, -, heq⟩ := List.forall₂_cons_left_iff.mp hreverse
    have hlast : order.getLast? = some key := by rw [← List.head?_reverse, heq, List.head?_cons]
    rw [hl, List.getLast?_concat, Option.map_some, ok_bind]
    simp only [index_of_getElem? (h.key key e hkey), hlast]

theorem getIndex_absent (hN : N ≤ NO_ENTRY) (h : Represents q table order)
    (hkey : table key = none) : q.getIndex key = .ok none := by
  obtain ⟨lists, entry, h⟩ := h
  rw [h.getIndex_eq hN]
  cases he : entry key with
  | none => rfl
  | some e =>
    obtain ⟨v, hv, -⟩ := h.value key e he
    exact absurd (hv.symm.trans hkey) (by simp)

/-- Every key has an entry of its own, and none of these is free. -/
theorem Holds.length_lt {lists : Fin 2 → List (Fin N)} {entry : K → Option (Fin N)}
    (h : Holds q lists entry table order) {dom : List K} (hdom : dom.Nodup)
    (hsome : ∀ key ∈ dom, (table key).isSome = true) {e : Fin N} (he : e ∈ lists 1) :
    dom.length < N := by
  have hentry : ∀ key ∈ dom, ∃ e', entry key = some e' := by
    intro key hkey
    cases hk : entry key with
    | none =>
      have hkey' := hsome key hkey
      rw [h.absent key hk] at hkey'
      cases hkey'
    | some e' => exact ⟨e', rfl⟩
  have hfree := (h.free e).mp he
  have hnodup : (some e :: dom.map entry).Nodup := by
    refine List.nodup_cons.mpr ⟨fun hmem ↦ ?_, hdom.map_on fun key hkey key' _ heq ↦ ?_⟩
    · obtain ⟨key, -, hk⟩ := List.mem_map.mp hmem
      exact hfree key hk
    · obtain ⟨e', hk⟩ := hentry key hkey
      exact h.injective hk (heq ▸ hk)
  have hsub : some e :: dom.map entry ⊆ (List.finRange N).map some := by
    intro o ho
    rcases List.mem_cons.mp ho with rfl | ho
    · exact List.mem_map_of_mem (List.mem_finRange e)
    · obtain ⟨key, hkey, rfl⟩ := List.mem_map.mp ho
      obtain ⟨e', hk⟩ := hentry key hkey
      rw [hk]
      exact List.mem_map_of_mem (List.mem_finRange e')
  have hle := (hnodup.subperm hsub).length_le
  rw [List.length_cons, List.length_map, List.length_map, List.length_finRange] at hle
  exact hle

/-- There is no room for another key. -/
theorem insert_full (hN : N ≤ NO_ENTRY) (h : Represents q table order)
    (hkey : intoUsize key ≤ K_MAX) (hnew : table key = none) {dom : List K} (hdom : dom.Nodup)
    (hsome : ∀ key ∈ dom, (table key).isSome = true) (hfull : N ≤ dom.length) (v : V) :
    q.insert key v = .ok none := by
  have hindex := getIndex_absent hN h hnew
  obtain ⟨lists, entry, h⟩ := h
  have hempty : lists 1 = [] :=
    List.eq_nil_iff_forall_not_mem.mpr fun e he ↦
      absurd (h.length_lt hdom hsome he) (Nat.not_lt.mpr hfull)
  have hfront := MultiClassQueue.front_eq h.queue 1
  rw [hempty, List.head?_nil, Option.map_none] at hfront
  rw [insert, if_neg (Nat.not_lt.mpr hkey), hindex, ok_bind]
  simp only
  rw [show FREE_CLASS = (1 : Fin 2).val from rfl, hfront, ok_bind]
  rfl

/-- The value of a key that is inserted again is lost, and the new one as well. -/
theorem insert_present (hN : N ≤ NO_ENTRY) (h : Represents q table order) {v : V}
    (hv : table key = some v) (value : V) : ∃ q', q.insert key value = .ok (some (some v, q')) ∧
      q'.get key = .error .unwrap ∧ q'.remove key = .error .unwrap := by
  obtain ⟨lists, entry, h⟩ := h
  cases he : entry key with
  | none => exact absurd (hv.symm.trans (h.absent key he)) (by simp)
  | some e =>
    obtain ⟨v', hv', hvalue⟩ := h.value key e he
    cases hv.symm.trans hv'
    have hkey := h.in_range key e he
    have hlen : e.val < q.values.length := (List.getElem?_eq_some_iff.mp hvalue).1
    have hi : intoUsize key < q.index.length := by rw [h.length_index]; omega
    have hk : e.val < q.keys.length := h.length_keys.symm ▸ e.isLt
    have hindex := h.getIndex_eq hN key
    rw [he, Option.map_some] at hindex
    have hlost : (q.values.set e.val none)[e.val]? = some none := List.getElem?_set_self hlen
    obtain ⟨queue, hmove, -⟩ := MultiClassQueue.moveBack_represents h.queue 1 e
    refine ⟨{ q with values := q.values.set e none }, ?_, ?_, ?_⟩
    · rw [insert, if_neg (Nat.not_lt.mpr hkey), hindex, ok_bind]
      simp only [index_of_getElem? hvalue, ok_bind, unwrap_some, assign_of_lt hlen, pure_eq_ok]
    · have hindex' : ({ q with values := q.values.set e none } : IndexQueue K V K_MAX N).getIndex
          key = .ok (some e.val) := hindex
      rw [get, hindex', ok_bind]
      simp only [index_of_getElem? hlost, ok_bind, unwrap_none, error_bind]
    · have hindex' : ({ q with values := q.values.set e none } : IndexQueue K V K_MAX N).getIndex
          key = .ok (some e.val) := hindex
      rw [remove, hindex', ok_bind]
      simp only [assign_of_lt hi, assign_of_lt hk, show FREE_CLASS = (1 : Fin 2).val from rfl,
        hmove, index_of_getElem? hlost, ok_bind, unwrap_none, error_bind]

variable [DecidableEq K]

theorem getMut_represents (hN : N ≤ NO_ENTRY) (h : Represents q table order) {v : V}
    (hv : table key = some v) (f : V → V) : ∃ q', q.getMut key f = .ok (some v, q') ∧
      Represents q' (Function.update table key (some (f v))) order := by
  obtain ⟨q', hset, hq'⟩ := set_represents hN h hv (f v)
  refine ⟨q', ?_, hq'⟩
  obtain ⟨lists, entry, h⟩ := h
  rw [set, h.getIndex_eq hN, ok_bind] at hset
  rw [getMut, h.getIndex_eq hN, ok_bind]
  cases he : entry key with
  | none => exact absurd (hv.symm.trans (h.absent key he)) (by simp)
  | some e =>
    obtain ⟨v', hv', hvalue⟩ := h.value key e he
    cases hv.symm.trans hv'
    have hlen : e.val < q.values.length := (List.getElem?_eq_some_iff.mp hvalue).1
    rw [he, Option.map_some, unwrap_some, ok_bind, assign_of_lt hlen] at hset
    cases hset
    simp only [Option.map_some, index_of_getElem? hvalue, ok_bind, unwrap_some, assign_of_lt hlen,
      pure_eq_ok]

theorem dequeue_represents (hN : N ≤ NO_ENTRY) (h : Represents q table order) {v : V}
    (hv : table key = some v) : ∃ q', q.dequeue key = .ok (some q') ∧
      Represents q' table (order.erase key) := by
  obtain ⟨lists, entry, h⟩ := h
  cases he : entry key with
  | none => exact absurd (hv.symm.trans (h.absent key he)) (by simp)
  | some e =>
    obtain ⟨queue, hremove, hqueue⟩ := MultiClassQueue.remove_represents h.queue e
    have herase : MultiClassQueue.erase lists e = Function.update
        (MultiClassQueue.erase lists e) 0 ((lists 0).erase e) := (Function.update_eq_self 0 _).symm
    rw [herase] at hqueue
    refine ⟨{ q with queue := queue }, ?_, h.move he hqueue ?_⟩
    · rw [dequeue, h.getIndex_eq hN, ok_bind, he, Option.map_some]
      simp only [hremove, ok_bind, pure_eq_ok]
    · exact forall₂_erase h.order he fun key' he' ↦ h.injective he' he

/-! ## The map and the list -/

/-- What a queue is for: a finite map, and some of its keys in order. -/
structure KeyQueue (K V : Type) where
  map : AList fun _ : K ↦ V
  order : List K

inductive Op (K V : Type)
  | insert (key : K) (value : V)
  | remove (key : K)
  | enqueueFront (key : K)
  | enqueueBack (key : K)
  | dequeue (key : K)
  /-- The value is replaced by `f` of it through a reference. -/
  | getMut (key : K) (f : V → V)

/-- What an operation returns: `none` if it fails, and a value of the map if it returns one. -/
abbrev Output (V : Type) := Option (Option V)

namespace KeyQueue

def empty : KeyQueue K V := ⟨∅, []⟩

/-- What an operation does to a map with room for `N` keys up to `K_MAX`. -/
def apply (K_MAX N : ℕ) (m : KeyQueue K V) : Op K V → KeyQueue K V × Output V
  | .insert key value =>
    if K_MAX < intoUsize key then (m, none)
    else match m.map.lookup key with
    | some old => (⟨m.map.insert key value, m.order⟩, some (some old))
    | none =>
      if m.map.keys.length < N then (⟨m.map.insert key value, m.order⟩, some none) else (m, none)
  | .remove key => (⟨m.map.erase key, m.order.erase key⟩, some (m.map.lookup key))
  | .enqueueFront key =>
    if key ∈ m.map then (⟨m.map, key :: m.order.erase key⟩, some none) else (m, none)
  | .enqueueBack key =>
    if key ∈ m.map then (⟨m.map, m.order.erase key ++ [key]⟩, some none) else (m, none)
  | .dequeue key => if key ∈ m.map then (⟨m.map, m.order.erase key⟩, some none) else (m, none)
  | .getMut key f =>
    match m.map.lookup key with
    | some value => (⟨m.map.insert key (f value), m.order⟩, some (some value))
    | none => (m, some none)

/-- At most `N` keys up to `K_MAX`; the list has no duplicates and only keys of the map. -/
structure Valid (K_MAX N : ℕ) (m : KeyQueue K V) : Prop where
  length : m.map.keys.length ≤ N
  bound : ∀ key ∈ m.map, intoUsize key ≤ K_MAX
  nodup : m.order.Nodup
  mem : ∀ key ∈ m.order, key ∈ m.map

end KeyQueue

/-! ## Runs -/

def step (q : IndexQueue K V K_MAX N) : Op K V → Exec (IndexQueue K V K_MAX N × Output V)
  | .insert key value => do
    match ← q.insert key value with
    | none => return (q, none)
    | some (old, q') => return (q', some old)
  | .remove key => do
    let (value, q') ← q.remove key
    return (q', some value)
  | .enqueueFront key => do
    match ← q.enqueueFront key with
    | none => return (q, none)
    | some q' => return (q', some none)
  | .enqueueBack key => do
    match ← q.enqueueBack key with
    | none => return (q, none)
    | some q' => return (q', some none)
  | .dequeue key => do
    match ← q.dequeue key with
    | none => return (q, none)
    | some q' => return (q', some none)
  | .getMut key f => do
    let (value, q') ← q.getMut key f
    return (q', some value)

/-- A key is only inserted if it is not in the map. -/
def Fresh (q : IndexQueue K V K_MAX N) : Op K V → Prop
  | .insert key _ => q.contains key = .ok false
  | _ => True

instance decidableFresh (q : IndexQueue K V K_MAX N) : (op : Op K V) → Decidable (Fresh q op)
  | .insert key _ => inferInstanceAs (Decidable (q.contains key = .ok false))
  | .remove _ | .enqueueFront _ | .enqueueBack _ | .dequeue _ | .getMut _ _ => isTrue trivial

/-- The queue holds the map and the list. -/
structure Models (m : KeyQueue K V) (q : IndexQueue K V K_MAX N) : Prop where
  represents : Represents q (fun key ↦ m.map.lookup key) m.order
  valid : m.Valid K_MAX N

variable {m : KeyQueue K V}

/-- A new value for a key of the map. -/
theorem KeyQueue.Valid.insert_mem (h : m.Valid K_MAX N) (hkey : key ∈ m.map) (value : V) :
    (⟨m.map.insert key value, m.order⟩ : KeyQueue K V).Valid K_MAX N where
  length := by
    rw [AList.keys_insert, List.length_cons, List.length_erase_of_mem (AList.mem_keys.mp hkey)]
    have hpos := List.length_pos_of_mem (AList.mem_keys.mp hkey)
    have := h.length
    omega
  bound key' hkey' := by
    rcases (AList.mem_insert m.map).mp hkey' with rfl | hmem
    · exact h.bound key' hkey
    · exact h.bound key' hmem
  nodup := h.nodup
  mem key' hkey' := (AList.mem_insert m.map).mpr (.inr (h.mem key' hkey'))

/-- A new key. -/
theorem KeyQueue.Valid.insert_new (h : m.Valid K_MAX N) (hkey : key ∉ m.map)
    (hbound : intoUsize key ≤ K_MAX) (hroom : m.map.keys.length < N) (value : V) :
    (⟨m.map.insert key value, m.order⟩ : KeyQueue K V).Valid K_MAX N where
  length := by
    rw [AList.keys_insert, List.length_cons, List.erase_of_not_mem (mt AList.mem_keys.mpr hkey)]
    exact hroom
  bound key' hkey' := by
    rcases (AList.mem_insert m.map).mp hkey' with rfl | hmem
    · exact hbound
    · exact h.bound key' hmem
  nodup := h.nodup
  mem key' hkey' := (AList.mem_insert m.map).mpr (.inr (h.mem key' hkey'))

theorem KeyQueue.Valid.erase (h : m.Valid K_MAX N) (key : K) :
    (⟨m.map.erase key, m.order.erase key⟩ : KeyQueue K V).Valid K_MAX N where
  length := by
    rw [AList.keys_erase]
    exact List.length_erase_le.trans h.length
  bound key' hkey' := h.bound key' (AList.mem_erase.mp hkey').2
  nodup := h.nodup.erase key
  mem key' hkey' := by
    obtain ⟨hne, hmem⟩ := h.nodup.mem_erase_iff.mp hkey'
    exact AList.mem_erase.mpr ⟨hne, h.mem key' hmem⟩

theorem Models.insert (hN : N ≤ NO_ENTRY) (h : Models m q) {value : V}
    (hfresh : q.contains key = .ok false) : ∃ q', step q (.insert key value) =
      .ok (q', (m.apply K_MAX N (.insert key value)).2) ∧
        Models (m.apply K_MAX N (.insert key value)).1 q' := by
  have hnone : m.map.lookup key = none := by
    rw [contains_eq hN h.represents] at hfresh
    exact Option.not_isSome_iff_eq_none.mp (Bool.eq_false_iff.mp (Except.ok.inj hfresh))
  rw [step, KeyQueue.apply]
  by_cases hbound : intoUsize key ≤ K_MAX
  · rw [if_neg (Nat.not_lt.mpr hbound), hnone]
    by_cases hroom : m.map.keys.length < N
    · obtain ⟨q', hinsert, hq'⟩ := insert_represents hN h.represents hbound hnone
        (fun key' hkey' ↦ AList.mem_keys.mp (AList.lookup_isSome.mp hkey')) hroom value
      rw [← lookup_insert_eq] at hq'
      simp only [if_pos hroom, hinsert, ok_bind, pure_eq_ok]
      exact ⟨q', rfl, hq', h.valid.insert_new (AList.lookup_eq_none.mp hnone) hbound hroom value⟩
    · have hfull := insert_full hN h.represents hbound hnone m.map.keys_nodup
        (fun key' hkey' ↦ AList.lookup_isSome.mpr (AList.mem_keys.mpr hkey'))
        (Nat.le_of_not_lt hroom) value
      simp only [if_neg hroom, hfull, ok_bind, pure_eq_ok]
      exact ⟨q, rfl, h⟩
  · have hlarge : q.insert key value = .ok none := by
      rw [IndexQueue.insert, if_pos (Nat.lt_of_not_le hbound), pure_eq_ok]
    simp only [if_pos (Nat.lt_of_not_le hbound), hlarge, ok_bind, pure_eq_ok]
    exact ⟨q, rfl, h⟩

theorem Models.remove (hN : N ≤ NO_ENTRY) (h : Models m q) (key : K) :
    ∃ q', step q (.remove key) = .ok (q', (m.apply K_MAX N (.remove key)).2) ∧
      Models (m.apply K_MAX N (.remove key)).1 q' := by
  rw [step, KeyQueue.apply]
  cases hkey : m.map.lookup key with
  | none =>
    have habsent := getIndex_absent hN h.represents hkey
    have horder : m.order.erase key = m.order := List.erase_of_not_mem fun hmem ↦
      AList.lookup_eq_none.mp hkey (h.valid.mem key hmem)
    have htable := lookup_erase_eq m.map key
    rw [← hkey, Function.update_eq_self] at htable
    refine ⟨q, ?_, ?_, h.valid.erase key⟩
    · simp only [IndexQueue.remove, habsent, ok_bind, pure_eq_ok]
    · dsimp only
      rw [htable, horder]
      exact h.represents
  | some value =>
    obtain ⟨q', hremove, hq'⟩ := remove_represents hN h.represents hkey
    rw [← lookup_erase_eq] at hq'
    exact ⟨q', by simp only [hremove, ok_bind, pure_eq_ok], hq', h.valid.erase key⟩

/-- An operation on the queue of the keys, that fails for a key that is not in the map. -/
theorem Models.enqueue (hN : N ≤ NO_ENTRY) (h : Models m q) {key : K}
    {f : IndexQueue K V K_MAX N → K → Exec (Option (IndexQueue K V K_MAX N))} {order : List K}
    (habsent : q.getIndex key = .ok none → f q key = .ok none)
    (hpresent : ∀ v, m.map.lookup key = some v →
      ∃ q', f q key = .ok (some q') ∧ Represents q' (fun key ↦ m.map.lookup key) order)
    (hnodup : order.Nodup) (hmem : key ∈ m.map → ∀ key' ∈ order, key' ∈ m.map) :
    ∃ q', (do
        match ← f q key with
        | none => return (q, none)
        | some q' => return (q', some none) : Exec (IndexQueue K V K_MAX N × Output V)) =
        .ok (q', (if key ∈ m.map then (⟨m.map, order⟩, some none) else (m, none) :
          KeyQueue K V × Output V).2) ∧
      Models (if key ∈ m.map then (⟨m.map, order⟩, some none) else (m, none) :
          KeyQueue K V × Output V).1 q' := by
  cases hkey : m.map.lookup key with
  | none =>
    have hnot := AList.lookup_eq_none.mp hkey
    rw [habsent (getIndex_absent hN h.represents hkey), if_neg hnot]
    exact ⟨q, rfl, h⟩
  | some value =>
    have hin : key ∈ m.map := AList.lookup_isSome.mp (by rw [hkey]; rfl)
    obtain ⟨q', hf, hq'⟩ := hpresent value hkey
    rw [hf, if_pos hin]
    exact ⟨q', rfl, hq', h.valid.length, h.valid.bound, hnodup, hmem hin⟩

theorem Models.getMut (hN : N ≤ NO_ENTRY) (h : Models m q) (key : K) (f : V → V) :
    ∃ q', step q (.getMut key f) = .ok (q', (m.apply K_MAX N (.getMut key f)).2) ∧
      Models (m.apply K_MAX N (.getMut key f)).1 q' := by
  rw [step, KeyQueue.apply]
  cases hkey : m.map.lookup key with
  | none =>
    have habsent := getIndex_absent hN h.represents hkey
    refine ⟨q, ?_, h⟩
    simp only [IndexQueue.getMut, habsent, ok_bind, pure_eq_ok]
  | some value =>
    have hin : key ∈ m.map := AList.lookup_isSome.mp (by rw [hkey]; rfl)
    obtain ⟨q', hget, hq'⟩ := getMut_represents hN h.represents hkey f
    rw [← lookup_insert_eq] at hq'
    exact ⟨q', by simp only [hget, ok_bind, pure_eq_ok], hq', h.valid.insert_mem hin (f value)⟩

theorem step_models (hN : N ≤ NO_ENTRY) (h : Models m q) {op : Op K V} (hop : Fresh q op) :
    ∃ q', step q op = .ok (q', (m.apply K_MAX N op).2) ∧ Models (m.apply K_MAX N op).1 q' := by
  have hmem : ∀ key, ∀ key' ∈ m.order.erase key, key' ∈ m.map :=
    fun key key' hkey' ↦ h.valid.mem key' (List.mem_of_mem_erase hkey')
  have hnot : ∀ key, key ∉ m.order.erase key :=
    fun key hkey ↦ (h.valid.nodup.mem_erase_iff.mp hkey).1 rfl
  cases op with
  | insert key value => exact h.insert hN hop
  | remove key => exact h.remove hN key
  | enqueueFront key =>
    refine h.enqueue (f := IndexQueue.enqueueFront) hN (fun hindex ↦ ?_)
      (fun v hv ↦ enqueueFront_represents hN h.represents hv) ?_ fun hin key' hkey' ↦ ?_
    · rw [enqueueFront, hindex]; rfl
    · exact List.nodup_cons.mpr ⟨hnot key, h.valid.nodup.erase key⟩
    · rcases List.mem_cons.mp hkey' with rfl | hkey'
      · exact hin
      · exact hmem key key' hkey'
  | enqueueBack key =>
    refine h.enqueue (f := IndexQueue.enqueueBack) hN (fun hindex ↦ ?_)
      (fun v hv ↦ enqueueBack_represents hN h.represents hv) ?_ fun hin key' hkey' ↦ ?_
    · rw [enqueueBack, hindex]; rfl
    · rw [(List.perm_append_singleton key _).nodup_iff]
      exact List.nodup_cons.mpr ⟨hnot key, h.valid.nodup.erase key⟩
    · rcases List.mem_append.mp hkey' with hkey' | hkey'
      · exact hmem key key' hkey'
      · rwa [List.mem_singleton.mp hkey']
  | dequeue key =>
    refine h.enqueue (f := IndexQueue.dequeue) hN (fun hindex ↦ ?_)
      (fun v hv ↦ dequeue_represents hN h.represents hv) (h.valid.nodup.erase key)
      fun _ ↦ hmem key
    rw [dequeue, hindex]; rfl
  | getMut key f => exact h.getMut hN key f

/-- The queue shows what the map and the list would show. -/
structure Agrees (q : IndexQueue K V K_MAX N) (m : KeyQueue K V) : Prop where
  get : ∀ key, q.get key = .ok (m.map.lookup key)
  contains : ∀ key, q.contains key = .ok (decide (key ∈ m.map))
  front : q.front = .ok m.order.head?
  back : q.back = .ok m.order.getLast?
  valid : m.Valid K_MAX N

theorem Models.agrees (hN : N ≤ NO_ENTRY) (h : Models m q) : Agrees q m where
  get := get_eq hN h.represents
  contains key := by
    have hmem : (m.map.lookup key).isSome = decide (key ∈ m.map) := by
      rw [Bool.eq_iff_iff, decide_eq_true_eq]
      exact AList.lookup_isSome
    rw [contains_eq hN h.represents, hmem]
  front := front_eq h.represents
  back := back_eq h.represents
  valid := h.valid

variable (K V K_MAX) in
/-- **An `IndexQueue` is a bounded map with an ordered queue of keys**, after every sequence of
operations that insert only keys that are not in the map. -/
theorem run_map_queue (hN : N ≤ 254) : ∃ q : IndexQueue K V K_MAX N, new K V K_MAX N = .ok q ∧
    ∀ ops : List (Op K V), Admissible step Fresh q ops →
      ∃ q', run step q ops = .ok (q', (runTotal (KeyQueue.apply K_MAX N) .empty ops).2) ∧
        Agrees q' (runTotal (KeyQueue.apply K_MAX N) .empty ops).1 := by
  have hN' : N ≤ NO_ENTRY := hN.trans (by decide)
  obtain ⟨q, hnew, hq⟩ := @new_represents K V K_MAX N _ (show 2 + N ≤ 256 by omega)
  refine ⟨q, hnew, fun ops hops ↦ ?_⟩
  have hempty : Models .empty q := ⟨hq, by simp [KeyQueue.empty], by simp [KeyQueue.empty],
    List.nodup_nil, by simp [KeyQueue.empty]⟩
  have hstep : ∀ (m : KeyQueue K V) (q : IndexQueue K V K_MAX N) (op : Op K V), Models m q →
      Fresh q op → ∃ q', step q op = .ok (q', (m.apply K_MAX N op).2) ∧
        Models (m.apply K_MAX N op).1 q' := fun m q op h hop ↦ step_models hN' h hop
  obtain ⟨q', hrun, hq'⟩ := run_of_simulates hstep hempty hops
  exact ⟨q', hrun, hq'.agrees hN'⟩

/-- A number that is converted to itself. -/
instance : IntoUsize ℕ := ⟨id, Function.injective_id⟩

/-- Two keys, of which one is removed and inserted again. -/
theorem run_map_queue_reinserted : ∃ q q' : IndexQueue ℕ ℕ 5 2, new ℕ ℕ 5 2 = .ok q ∧
    run step q [.insert 3 10, .enqueueBack 3, .insert 4 11, .remove 3, .insert 3 12] =
      .ok (q', [some none, some none, some none, some (some 10), some none]) ∧
    q'.get 3 = .ok (some 12) := by
  obtain ⟨q, hnew, hrun⟩ := @run_map_queue ℕ ℕ 5 2 _ _ (by decide)
  let start : IndexQueue ℕ ℕ 5 2 :=
    ⟨[none, none], [none, none], List.replicate 6 255, ⟨⟨[⟨0, 0⟩, ⟨2, 3⟩, ⟨3, 1⟩, ⟨1, 2⟩]⟩⟩⟩
  have hstart : new ℕ ℕ 5 2 = .ok start := rfl
  obtain rfl : start = q := Except.ok.inj (hstart.symm.trans hnew)
  obtain ⟨q', hq', hagrees⟩ := hrun [.insert 3 10, .enqueueBack 3, .insert 4 11, .remove 3,
    .insert 3 12] (by decide)
  exact ⟨start, q', hnew, hq', hagrees.get 3⟩

/-- The value of a key that is inserted twice is gone. -/
theorem insert_twice : ∃ q q' : IndexQueue ℕ ℕ 5 2, new ℕ ℕ 5 2 = .ok q ∧
    run step q [.insert 3 10, .insert 3 20] = .ok (q', [some none, some (some 10)]) ∧
    q'.get 3 = .error .unwrap :=
  ⟨_, _, rfl, rfl, rfl⟩

end IndexQueue

end Emcyphal
