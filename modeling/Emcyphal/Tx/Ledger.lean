import Emcyphal.Lib.Ledger
import Emcyphal.Tx.Outgoing

/-!
# Which frames a buffer has emitted

The frames that a buffer has returned are those of the transfers that were pushed to it, in the
order they were pushed, one transfer after the other.  `Accounts` says so of a ledger, and each
operation of a buffer that keeps one transfer to send and one that is pending changes the ledger
accordingly.

A buffer that keeps one transfer only sends all of them, which is what `InTurn` says.
-/

set_option autoImplicit false

namespace Emcyphal

open Rust

namespace Outgoing

/-- The frames that a number of fetches from a transfer return, and what they leave. -/
inductive Yields (o : Outgoing) (priority : Priority) (dataSpec : DataSpecifier) :
    List Frame → Scatter → Prop
  | nil : Yields o priority dataSpec [] o.scatter
  | snoc {frames : List Frame} {s s' : Scatter} {mtu : Mtu} {data : Data}
      (h : Yields o priority dataSpec frames s) (hfetched : s.Fetched o.buffer mtu data s') :
      Yields o priority dataSpec (frames ++ [o.frame priority dataSpec data]) s'

/-- These are all frames of the transfer. -/
def Complete (o : Outgoing) (priority : Priority) (dataSpec : DataSpecifier) (frames : List Frame) :
    Prop :=
  ∃ s, o.Yields priority dataSpec frames s ∧ s.isExhausted = true

/-- These are the first frames of the transfer, and there are more. -/
def Started (o : Outgoing) (priority : Priority) (dataSpec : DataSpecifier) (frames : List Frame)
    (s : Scatter) : Prop :=
  o.Yields priority dataSpec frames s ∧ s.isExhausted = false

variable {o : Outgoing} {p : Priority} {d : DataSpecifier} {frames : List Frame} {s : Scatter}

/-- The transfer goes on with the next frame. -/
theorem Yields.sends (h : o.Yields p d frames s) {mtu : Mtu} {data : Data} {rest : Option Outgoing}
    (hs : { o with scatter := s }.Sends mtu data rest) :
    (rest = none ∧ o.Complete p d (frames ++ [o.frame p d data])) ∨
    ∃ s', rest = some { o with scatter := s' } ∧ o.Started p d (frames ++ [o.frame p d data])
      s' := by
  cases hs with
  | more hfetched hleft => exact .inr ⟨_, rfl, h.snoc hfetched, hleft⟩
  | last hfetched hdone => exact .inl ⟨rfl, _, h.snoc hfetched, hdone⟩

/-- All frames carry the id of the transfer. -/
theorem Yields.transferId (h : o.Yields p d frames s) : s.transferId = o.scatter.transferId ∧
    ∀ f ∈ frames, f.data.bytes.getLast?.map (fun byte ↦ TailByte.transferId ⟨byte⟩) =
      some o.scatter.transferId := by
  induction h with
  | nil => exact ⟨rfl, nofun⟩
  | snoc h hfetched ih =>
    refine ⟨hfetched.transferId.trans ih.1, fun f hf ↦ ?_⟩
    rcases List.mem_append.mp hf with hf | hf
    · exact ih.2 f hf
    · rw [List.mem_singleton.mp hf]
      exact hfetched.tid.trans (congrArg some ih.1)

end Outgoing

/-! ## One transfer at a time -/

/-- All transfers that were pushed were sent completely, except for the one that is being sent. -/
inductive InTurn (p : Priority) (d : DataSpecifier) :
    List Outgoing → List Frame → Option Outgoing → Prop
  | idle {pushed : List Outgoing} {parts : List (List Frame)}
      (h : List.Forall₂ (fun o frames ↦ o.Complete p d frames) pushed parts) :
      InTurn p d pushed parts.flatten none
  | sending {pushed : List Outgoing} {parts : List (List Frame)} {o : Outgoing}
      {frames : List Frame} {s : Scatter}
      (h : List.Forall₂ (fun o frames ↦ o.Complete p d frames) pushed parts)
      (hs : o.Yields p d frames s) :
      InTurn p d (pushed ++ [o]) (parts.flatten ++ frames) (some { o with scatter := s })

namespace InTurn

variable {p : Priority} {d : DataSpecifier} {pushed : List Outgoing} {frames : List Frame}

theorem push (h : InTurn p d pushed frames none) (o : Outgoing) :
    InTurn p d (pushed ++ [o]) frames (some o) := by
  cases h with
  | idle h =>
    have hsending : InTurn p d _ _ _ := .sending h (o := o) .nil
    rwa [List.append_nil] at hsending

theorem send {o : Outgoing} (h : InTurn p d pushed frames (some o)) {mtu : Mtu} {data : Data}
    {rest : Option Outgoing} (hsends : o.Sends mtu data rest) :
    InTurn p d pushed (frames ++ [o.frame p d data]) rest := by
  cases h with
  | @sending pushed parts o frames s h hs =>
    rw [List.append_assoc]
    rcases hs.sends hsends with ⟨rfl, hcomplete⟩ | ⟨s', rfl, hstarted⟩
    · have hall := List.rel_append h (.cons hcomplete .nil)
      have hidle : InTurn p d _ _ none := .idle hall
      rwa [List.flatten_append, List.flatten_singleton] at hidle
    · exact .sending h hstarted.1

end InTurn

/-- The ledger agrees with what was pushed to a buffer and with the two transfers it has. -/
structure Accounts (pushed : List Outgoing) (p : Priority) (d : DataSpecifier) (l : Ledger Frame)
    (current pending : Option Outgoing) : Prop where
  ordered : l.Ordered pushed.length
  done : ∀ e ∈ l.done, e.2 ≠ [] ∧ ∃ o, pushed[e.1]? = some o ∧ o.Complete p d e.2
  current : Option.Rel (fun e o' ↦ e.2 ≠ [] ∧
    ∃ o s, pushed[e.1]? = some o ∧ o.Started p d e.2 s ∧ o' = { o with scatter := s })
    l.current current
  pending : Option.Rel (fun idx o ↦ pushed[idx]? = some o) l.pending pending

/-- These transfers were sent one after the other, each completely except for the last one. -/
structure Emitted (pushed : List Outgoing) (p : Priority) (d : DataSpecifier)
    (sent : List (ℕ × List Frame)) : Prop where
  /-- In the order of the pushes. -/
  ordered : (sent.map Prod.fst).Pairwise (· < ·)
  complete : ∀ e ∈ sent.dropLast, ∃ o, pushed[e.1]? = some o ∧ o.Complete p d e.2
  frames : ∀ e ∈ sent, e.2 ≠ [] ∧ ∃ o s, pushed[e.1]? = some o ∧ o.Yields p d e.2 s

namespace Accounts

variable {pushed : List Outgoing} {p : Priority} {d : DataSpecifier} {l : Ledger Frame}
  {current pending : Option Outgoing}

theorem empty (p : Priority) (d : DataSpecifier) : Accounts [] p d .empty none none :=
  ⟨Ledger.ordered_empty, nofun, .none, .none⟩

theorem forget (h : Accounts pushed p d l current pending) :
    Accounts pushed p d l.forget current none :=
  ⟨h.ordered.forget, h.done, h.current, .none⟩

theorem getElem?_concat {idx : ℕ} {o : Outgoing} (h : pushed[idx]? = some o) (o' : Outgoing) :
    (pushed ++ [o'])[idx]? = some o := by
  rw [List.getElem?_append_left (List.getElem?_eq_some_iff.mp h).1, h]

/-- A transfer was pushed. -/
theorem push (h : Accounts pushed p d l current pending) (o : Outgoing) :
    Accounts (pushed ++ [o]) p d (l.push pushed.length) current (some o) := by
  refine ⟨?_, fun e he ↦ ?_, ?_, .some (List.getElem?_concat_length ..)⟩
  · rw [List.length_append]
    exact h.ordered.push
  · obtain ⟨hne, o', ho', hcomplete⟩ := h.done e he
    exact ⟨hne, o', getElem?_concat ho' o, hcomplete⟩
  · have hcurrent := h.current
    rw [Ledger.push]
    generalize l.current = e at hcurrent
    cases hcurrent with
    | none => exact .none
    | some hstarted =>
      obtain ⟨hne, o', s, ho', hs⟩ := hstarted
      exact .some ⟨hne, o', s, getElem?_concat ho' o, hs⟩

/-- A frame was fetched from the transfer that is being sent, or that was started for it. -/
theorem send_current (hordered : l.Ordered pushed.length)
    (hdone : ∀ e ∈ l.done, e.2 ≠ [] ∧ ∃ o, pushed[e.1]? = some o ∧ o.Complete p d e.2)
    (hpending : Option.Rel (fun idx o ↦ pushed[idx]? = some o) l.pending pending)
    {e : ℕ × List Frame} (he : l.current = some e) {o : Outgoing} {s : Scatter}
    (ho : pushed[e.1]? = some o) (hs : o.Yields p d e.2 s) {mtu : Mtu} {data : Data}
    {rest : Option Outgoing} (hsends : { o with scatter := s }.Sends mtu data rest) :
    Accounts pushed p d (l.send (o.frame p d data) rest.isNone) rest pending := by
  have hordered' : (l.send (o.frame p d data) rest.isNone).Ordered pushed.length := by
    rw [Ledger.Ordered, Ledger.indexes_send]
    exact hordered
  rw [Ledger.send, he] at hordered' ⊢
  rcases hs.sends hsends with ⟨rfl, hcomplete⟩ | ⟨s', rfl, hstarted⟩
  · refine ⟨hordered', fun e' he' ↦ ?_, .none, hpending⟩
    rcases List.mem_append.mp he' with he' | he'
    · exact hdone e' he'
    · rw [List.mem_singleton.mp he']
      exact ⟨by simp, o, ho, hcomplete⟩
  · exact ⟨hordered', hdone, .some ⟨by simp, o, s', ho, hstarted, rfl⟩, hpending⟩

/-- **A frame was fetched**, from the transfer that is being sent or from the one that is
pending. -/
theorem send (h : Accounts pushed p d l current pending) {o : Outgoing}
    (hnext : current.or pending = some o) {mtu : Mtu} {data : Data} {rest : Option Outgoing}
    (hsends : o.Sends mtu data rest) :
    Accounts pushed p d (l.start.send (o.frame p d data) rest.isNone) rest
      (if current.isSome then pending else none) ∧
    (l.start.send (o.frame p d data) rest.isNone).parts = l.parts ++ [o.frame p d data] := by
  obtain ⟨hordered, hdone, hcurrent, hpending⟩ := h
  have hordered' : l.start.Ordered pushed.length := by
    rw [Ledger.Ordered, Ledger.indexes_start]
    exact hordered
  obtain ⟨done, current', pending'⟩ := l
  cases hcurrent with
  | some hstarted =>
    obtain ⟨-, o₀, s, ho, ⟨hyields, -⟩, rfl⟩ := hstarted
    cases hnext
    exact ⟨send_current (l := ⟨done, _, pending'⟩) hordered' hdone hpending rfl ho hyields hsends,
      Ledger.parts_send rfl ..⟩
  | none =>
    rw [Option.none_or] at hnext
    subst hnext
    cases hpending with
    | some ho =>
      refine ⟨send_current (l := ⟨done, _, none⟩) hordered' hdone .none rfl ho .nil hsends, ?_⟩
      rw [Ledger.parts_send rfl, Ledger.parts_start]

theorem emitted (h : Accounts pushed p d l current pending) : Emitted pushed p d l.sent := by
  obtain ⟨hordered, hdone, hcurrent, -⟩ := h
  refine ⟨hordered.sent, fun e he ↦ ?_, fun e he ↦ ?_⟩
  · have hmem : e ∈ l.done := by
      rw [Ledger.sent] at he
      cases hl : l.current with
      | none =>
        rw [hl, Option.toList_none, List.append_nil] at he
        exact List.mem_of_mem_dropLast he
      | some e' =>
        rw [hl, Option.toList_some, List.dropLast_concat] at he
        exact he
    exact (hdone e hmem).2
  · rcases List.mem_append.mp he with he | he
    · obtain ⟨hne, o, ho, s, hs, -⟩ := hdone e he
      exact ⟨hne, o, s, ho, hs⟩
    · generalize l.current = c at hcurrent he
      cases hcurrent with
      | none => cases he
      | some hstarted =>
        rw [Option.toList_some, List.mem_singleton] at he
        obtain ⟨hne, o, s, ho, ⟨hs, -⟩, -⟩ := hstarted
        rw [he]
        exact ⟨hne, o, s, ho, hs⟩

/-- With nothing left to send, all transfers that were started are complete.  The last one that was
pushed was sent last, if it was not given up. -/
theorem emitted_last (h : Accounts pushed p d l none none)
    (hlast : l.indexes.getLast?.map (· + 1) = some pushed.length) :
    ∃ o frames, pushed.getLast? = some o ∧ o.Complete p d frames ∧
      l.sent.getLast? = some (pushed.length - 1, frames) := by
  obtain ⟨-, hdone, hcurrent, hpending⟩ := h
  have hl : l.current = none := by
    generalize l.current = c at hcurrent
    cases hcurrent
    rfl
  have hpending' : l.pending = none := by
    generalize l.pending = c at hpending
    cases hpending
    rfl
  have hsent : l.sent = l.done := by rw [Ledger.sent, hl, Option.toList_none, List.append_nil]
  rw [← Ledger.getLast?_sent hpending', hsent, List.getLast?_map, Option.map_map,
    Option.map_eq_some_iff] at hlast
  obtain ⟨⟨idx, frames⟩, he, hidx⟩ := hlast
  obtain ⟨-, o, ho, hcomplete⟩ := hdone _ (List.mem_of_getLast? he)
  obtain rfl : idx = pushed.length - 1 := by
    rw [← hidx]
    rfl
  refine ⟨o, frames, ?_, hcomplete, hsent ▸ he⟩
  rw [List.getLast?_eq_getElem?]
  exact ho

end Accounts

end Emcyphal
