import Emcyphal.Gather.Reassembly
import Emcyphal.Scatter.Emission

/-!
# A transfer that is sent is received

The frames of a transfer (`Encodes`), pushed in order and within the timeout, make a reassembly
deliver the message, whatever it was doing before, unless it takes them for duplicates.  Together
with `Scatter.emits_encodes` this is the round trip: `Gather` delivers what `Scatter` was given.
-/

set_option autoImplicit false

namespace Emcyphal

open Rust

namespace Reassembly

/-! ## What a reassembly does with a frame of its transfer -/

section Frames

variable {timeout : Duration} {call : Call} {payload : List Byte} {tid : TransferId}
  {r : Reassembly} {progress : Progress} {sof : Instant} {bytes : List Byte}

/-- A start of transfer is taken for a duplicate only in an assembled state. -/
theorem pushCall_single (hdata : call.data = frameData payload true true SOT_TOGGLE_BIT tid)
    (hnew : (r.isAssembled && r.isCurrent timeout tid call.timestamp) = false) :
    r.pushCall timeout call = (.assembled call.timestamp tid,
      some (⟨tid, call.priority, call.timestamp, payload.length⟩, payload)) := by
  rw [pushCall, Call.tail?_of_frameData hdata]
  simp only [push, Call.segment, Call.payload_of_frameData hdata, TailByte.sot_new,
    TailByte.eot_new, TailByte.toggle_new, TailByte.transferId_new, hnew, if_true]
  rfl

theorem pushCall_first (hdata : call.data = frameData payload true false SOT_TOGGLE_BIT tid)
    (hlen : payload.length + 1 = 8 ∨ payload.length + 1 = 64)
    (hnew : (r.isAssembled && r.isCurrent timeout tid call.timestamp) = false) :
    r.pushCall timeout call = (.running .first call.timestamp tid payload, none) := by
  have hmtu : (Mtu.tryFrom (payload.length + 1)).isNone = false := by
    rw [← Option.not_isSome, Mtu.tryFrom_isSome.mpr hlen]; rfl
  rw [pushCall, Call.tail?_of_frameData hdata]
  simp only [push, Call.segment, Call.payload_of_frameData hdata, TailByte.sot_new,
    TailByte.eot_new, TailByte.toggle_new, TailByte.transferId_new, hnew, if_true, start, hmtu]
  rfl

theorem isCurrent_running (hts : call.timestamp ≤ Instant.saturatingAdd sof timeout) :
    (Phase.running progress sof tid bytes).isCurrent timeout tid call.timestamp = true := by
  simp only [Phase.isCurrent, hts, decide_true, Bool.and_self]

theorem pushCall_more (hdata : call.data = frameData payload false false progress.expected tid)
    (hts : call.timestamp ≤ Instant.saturatingAdd sof timeout)
    (hlen : payload.length + 1 = 8 ∨ payload.length + 1 = 64)
    (hroom : bytes.length + payload.length < 2 ^ 32) :
    pushCall timeout (.running progress sof tid bytes) call =
      (.running progress.next sof tid (bytes ++ payload), none) := by
  have hmtu : (Mtu.tryFrom (payload.length + 1)).isNone = false := by
    rw [← Option.not_isSome, Mtu.tryFrom_isSome.mpr hlen]; rfl
  rw [pushCall, Call.tail?_of_frameData hdata]
  simp only [push, Call.segment, Call.payload_of_frameData hdata, TailByte.sot_new,
    TailByte.eot_new, TailByte.toggle_new, TailByte.transferId_new, isCurrent_running hts,
    Phase.isAssembled, proceed, extend, hmtu, hroom, if_true]
  rfl

theorem pushCall_last (hdata : call.data = frameData payload false true progress.expected tid)
    (hts : call.timestamp ≤ Instant.saturatingAdd sof timeout) (hne : payload ≠ [])
    (hcomplete : IsComplete (bytes ++ payload)) :
    pushCall timeout (.running progress sof tid bytes) call =
      (.assembled sof tid,
        some (⟨tid, call.priority, sof, (message (bytes ++ payload)).length⟩,
          message (bytes ++ payload))) := by
  rw [pushCall, Call.tail?_of_frameData hdata]
  simp only [push, Call.segment, Call.payload_of_frameData hdata, TailByte.sot_new,
    TailByte.eot_new, TailByte.toggle_new, TailByte.transferId_new, isCurrent_running hts,
    Phase.isAssembled, proceed, finish, hne, hcomplete, ne_eq, not_false_eq_true, and_self, if_true]
  rfl

end Frames

/-! ## A whole transfer -/

/-- Pushing `calls` delivers `d` with the last one, and nothing before. -/
def Delivers (timeout : Duration) (r : Reassembly) (calls : List Call) (d : Delivery) : Prop :=
  (runTotal (pushCall timeout) r calls).2 = List.replicate (calls.length - 1) none ++ [some d]

theorem delivers_singleton {timeout : Duration} {r : Reassembly} {call : Call} {d : Delivery}
    (h : (r.pushCall timeout call).2 = some d) : Delivers timeout r [call] d := by
  simp only [Delivers, runTotal, h]
  rfl

theorem delivers_cons {timeout : Duration} {r r' : Reassembly} {call : Call} {calls : List Call}
    {d : Delivery} (h : r.pushCall timeout call = (r', none)) (hne : calls ≠ [])
    (hrest : Delivers timeout r' calls d) : Delivers timeout r (call :: calls) d := by
  obtain ⟨c, cs, rfl⟩ := List.exists_cons_of_ne_nil hne
  simp only [Delivers] at hrest
  rw [Delivers, runTotal, h, hrest]
  rfl

/-- The frames after the first one.  The induction is on the frames; the running reassembly holds
the bytes sent before them. -/
theorem delivers_continues {timeout : Duration} {tid : TransferId} {sof : Instant} {toggle : Bool}
    {frames : List (List Byte)} {w : List Byte} (h : Continues tid toggle frames w)
    {progress : Progress} {bytes : List Byte} (hexpected : progress.expected = toggle)
    (hcomplete : IsComplete (bytes ++ w)) {calls : List Call} {last : Call}
    (hcalls : calls.map Call.data = frames) (hlast : calls.getLast? = some last)
    (hts : ∀ call ∈ calls, call.timestamp ≤ Instant.saturatingAdd sof timeout) :
    Delivers timeout (.running progress sof tid bytes) calls
      (⟨tid, last.priority, sof, (message (bytes ++ w)).length⟩, message (bytes ++ w)) := by
  induction h generalizing progress bytes calls with
  | @last toggle payload hne =>
    obtain ⟨call, rfl, hdata⟩ := List.map_eq_singleton_iff.mp hcalls
    obtain rfl : call = last := Option.some.inj hlast
    subst hexpected
    refine delivers_singleton ?_
    rw [pushCall_last hdata (hts call (by simp)) hne hcomplete]
  | @more toggle payload rest frames hlen hrest ih =>
    obtain ⟨call, calls, rfl, hdata, hcalls'⟩ := List.map_eq_cons_iff.mp hcalls
    subst hexpected
    have hne : calls ≠ [] := by
      rintro rfl
      exact hrest.ne_nil hcalls'.symm
    have hroom : bytes.length + payload.length < 2 ^ 32 := by
      have := hcomplete.1
      simp only [List.length_append] at this
      omega
    rw [← List.append_assoc] at hcomplete ⊢
    refine delivers_cons (pushCall_more hdata (hts call (by simp)) hlen hroom) hne ?_
    refine ih (Progress.expected_next progress) hcomplete hcalls' ?_ fun c hc ↦ hts c (by simp [hc])
    rwa [List.getLast?_cons_of_ne_nil hne] at hlast

theorem message_append_crc {text crc : List Byte} (h : crc.length = TransferCrc.LENGTH) :
    message (text ++ crc) = text := by
  rw [message, List.length_append, h, Nat.add_sub_cancel, List.take_left]

/-- **A transfer is delivered** to a reassembly that does not take it for a duplicate. -/
theorem delivers_encodes {timeout : Duration} {tid : TransferId} {frames : List (List Byte)}
    {text : List Byte} (h : Encodes tid frames text) (hlen : text.length + 2 < 2 ^ 32)
    {r : Reassembly} {first last : Call} {calls : List Call}
    (hcalls : (first :: calls).map Call.data = frames)
    (hlast : (first :: calls).getLast? = some last)
    (hts : ∀ call ∈ calls, call.timestamp ≤ Instant.saturatingAdd first.timestamp timeout)
    (hnew : (r.isAssembled && r.isCurrent timeout tid first.timestamp) = false) :
    Delivers timeout r (first :: calls)
      (⟨tid, last.priority, first.timestamp, text.length⟩, text) := by
  cases h with
  | single =>
    obtain ⟨hdata, hnil⟩ := List.cons_eq_cons.mp hcalls
    obtain rfl : calls = [] := List.map_eq_nil_iff.mp hnil
    obtain rfl : first = last := Option.some.inj hlast
    refine delivers_singleton ?_
    rw [pushCall_single hdata hnew]
  | @multi head rest _ crc frames hhead hrest hcat hcrc hresidue =>
    obtain ⟨hdata, hcalls'⟩ := List.cons_eq_cons.mp hcalls
    have hne : calls ≠ [] := by
      rintro rfl
      exact hrest.ne_nil hcalls'.symm
    have hcomplete : IsComplete (head ++ rest) := by
      rw [hcat]
      refine ⟨?_, ?_, hresidue⟩ <;> rw [List.length_append, hcrc, TransferCrc.LENGTH] <;> omega
    refine delivers_cons (pushCall_first hdata hhead hnew) hne ?_
    have hrun := delivers_continues hrest (show Progress.first.expected = _ from rfl)
      hcomplete hcalls'
      (by rwa [List.getLast?_cons_of_ne_nil hne] at hlast) hts
    rwa [hcat, message_append_crc hcrc] at hrun

end Reassembly

/-! ## The code -/

namespace Phase

/-- For a start of transfer that is no duplicate it does not matter what went on before. -/
theorem push_stop {p : Phase PayloadAccumulator} {timeout : Duration} {buffer : List Byte}
    {tail : TailByte} {segment : Segment} (hsot : tail.sot = true)
    (hnew : (p.isAssembled && p.isCurrent timeout segment.transferId segment.timestamp) = false) :
    p.push timeout buffer tail segment = p.stop.push timeout buffer tail segment := by
  have hstop : (p.stop.isAssembled &&
      p.stop.isCurrent timeout segment.transferId segment.timestamp) = false := by
    cases p <;> rfl
  have hidem : p.stop.stop = p.stop := by cases p <;> rfl
  unfold push
  simp only [hnew, hstop, hsot, start, hidem, if_true, Bool.false_eq_true, if_false]

/-- A stopped phase accumulates nothing. -/
theorem exists_reassembly_stop (p : Phase PayloadAccumulator) : ∃ r : Reassembly,
    p.stop = r.map .of ∧ r.bytes = [] ∧ r.isAssembled = false := by
  cases p with
  | idle => exact ⟨.idle, rfl, rfl, rfl⟩
  | _ => exact ⟨.idleLast _, rfl, rfl, rfl⟩

end Phase

namespace Gather

/-- Whether a start of transfer that is no duplicate comes before or after a stop does not
matter. -/
theorem step_toGather_stop {p : Phase PayloadAccumulator} {timeout : Duration} {buffer : List Byte}
    {call : Call} {payload : List Byte} {eot : Bool} {tid : TransferId}
    (hdata : call.data = frameData payload true eot SOT_TOGGLE_BIT tid)
    (hnew : (p.isAssembled && p.isCurrent timeout tid call.timestamp) = false) :
    step timeout (p.toGather, buffer) call = step timeout (p.stop.toGather, buffer) call := by
  have hpush : p.pushData timeout buffer call.priority call.data call.timestamp =
      p.stop.pushData timeout buffer call.priority call.data call.timestamp := by
    rw [Phase.pushData, Phase.pushData, hdata, frameData, splitLast_concat]
    exact Phase.push_stop (TailByte.sot_new true eot SOT_TOGGLE_BIT tid)
      (by rw [← hnew]; exact congrArg _ (congrArg (fun t ↦ Phase.isCurrent p timeout t _)
        (TailByte.transferId_new true eot SOT_TOGGLE_BIT tid)))
  simp only [step, Phase.pushFrame_toGather, hpush]

/-- The state takes a frame for one of a transfer it has delivered. -/
def IsDuplicate (g : Gather) (timeout : Duration) (tid : TransferId) (timestamp : Instant) : Prop :=
  g.state = .assembled ∧ g.transferId = some tid ∧
    ∃ sof, g.sofTimestamp = some sof ∧ timestamp ≤ Instant.saturatingAdd sof timeout

theorem isDuplicate_toGather {p : Phase PayloadAccumulator} {timeout : Duration} {tid : TransferId}
    {timestamp : Instant} (h : (p.isAssembled && p.isCurrent timeout tid timestamp) = true) :
    p.toGather.IsDuplicate timeout tid timestamp := by
  cases p with
  | assembled sof tid' =>
    simp only [Phase.isAssembled, Phase.isCurrent, Bool.true_and, Bool.and_eq_true,
      decide_eq_true_eq] at h
    obtain ⟨rfl, hts⟩ := h
    exact ⟨rfl, rfl, sof, rfl, hts⟩
  | _ => exact absurd h Bool.false_ne_true

/-- **Round trip**: in every reachable state, the frames a `Scatter` emits are received, unless the
state takes them for duplicates. -/
theorem push_emitted {g : Gather} (hg : g.Reachable) (timeout : Duration) (tid : TransferId)
    (d : List Byte) (hd : d.length + 66 < 2 ^ 32) (mtus : ℕ → Mtu) (buffer : List Byte) :
    (∃ frames, Scatter.Emits d (Scatter.new tid d.length (TransferCrc.default.addBytes d)) mtus
      frames) ∧
    ∀ frames, Scatter.Emits d (Scatter.new tid d.length (TransferCrc.default.addBytes d)) mtus
        frames →
      ∀ first last calls, (first :: calls).map Call.data = frames.map Data.bytes →
      (first :: calls).getLast? = some last →
      (∀ call ∈ calls, call.timestamp ≤ Instant.saturatingAdd first.timestamp timeout) →
      ¬ g.IsDuplicate timeout tid first.timestamp →
      ∃ s n, d.length ≤ n ∧ run (step timeout) (g, buffer) (first :: calls) = .ok (s,
        List.replicate calls.length none ++
          [some (⟨tid, last.priority, first.timestamp, n⟩,
            (d ++ List.replicate (n - d.length) 0).take buffer.length)]) := by
  obtain ⟨frames, pad, hemits, hpad, hencodes⟩ := Scatter.emits_encodes tid d mtus
  refine ⟨⟨frames, hemits⟩, fun frames' hemits' first last calls hcalls hlast hts hnew ↦ ?_⟩
  obtain rfl := hemits.unique hemits'
  obtain ⟨p, rfl⟩ := hg.eq_toGather
  have hfresh : (p.isAssembled && p.isCurrent timeout tid first.timestamp) = false :=
    Bool.eq_false_iff.mpr fun h ↦ hnew (isDuplicate_toGather h)
  -- the first frame stops whatever is going on, so the bytes received before do not matter
  obtain ⟨payload, eot, rest, hstart⟩ := hencodes.exists_start
  have hdata : first.data = frameData payload true eot SOT_TOGGLE_BIT tid := by
    rw [hstart, List.map_cons] at hcalls
    exact (List.cons_eq_cons.mp hcalls).1
  obtain ⟨r, hstop, hbytes, hidle⟩ := p.exists_reassembly_stop
  have hrep : Reassembly.Represents buffer.length (p.stop.toGather, buffer) r :=
    ⟨congrArg Phase.toGather hstop, by rw [hbytes]; exact stores_nil buffer, rfl⟩
  have hpayload : ∀ call ∈ first :: calls, call.payload.length < 2 ^ 32 := by
    intro call hcall
    have hmem : call.data ∈ frames.map Data.bytes := hcalls ▸ List.mem_map_of_mem hcall
    obtain ⟨frame, -, hframe⟩ := List.mem_map.mp hmem
    have hlen := frame.length_le
    rw [Call.payload, List.length_dropLast, ← hframe]
    omega
  obtain ⟨s, hrun, -⟩ :=
    (Reassembly.step_represents timeout buffer.length).run_ok hrep hpayload
  have hlen : (d ++ List.replicate pad PAD_VALUE).length = d.length + pad := by
    rw [List.length_append, List.length_replicate]
  have hdelivers := Reassembly.delivers_encodes (r := r) hencodes
    (by rw [hlen]; omega) hcalls hlast hts (by rw [hidle, Bool.false_and])
  rw [Reassembly.Delivers] at hdelivers
  refine ⟨s, d.length + pad, Nat.le_add_right _ _, ?_⟩
  rw [run, step_toGather_stop hdata hfresh, ← run, hrun, hdelivers]
  simp only [List.map_append, List.map_replicate, List.length_cons, Nat.add_sub_cancel,
    Option.map_none, List.map_singleton, Option.map_some, Reassembly.truncate, hlen,
    Nat.add_sub_cancel_left]
  rfl

/-- Eight bytes in two classic frames, received with a buffer of six bytes. -/
theorem push_emitted_two_frames : ∃ s n, 8 ≤ n ∧
    run (step 1000) (Gather.default, List.replicate 6 0xff)
      [⟨.nominal, [1, 2, 3, 4, 5, 6, 7, 0xa3], 100⟩, ⟨.high, [8, 0x47, 0x92, 0x43], 1100⟩] =
    .ok (s, [none, some (⟨3, .high, 100, n⟩,
      ([1, 2, 3, 4, 5, 6, 7, 8] ++ List.replicate (n - 8) 0).take 6)]) := by
  have hemits : Scatter.Emits [1, 2, 3, 4, 5, 6, 7, 8]
      (Scatter.new 3 8 (TransferCrc.default.addBytes [1, 2, 3, 4, 5, 6, 7, 8])) (fun _ ↦ .classic)
      [⟨[1, 2, 3, 4, 5, 6, 7, 0xa3], by decide⟩, ⟨[8, 0x47, 0x92, 0x43], by decide⟩] :=
    ⟨⟨3, true, 8, 10, TransferCrc.default.addBytes [1, 2, 3, 4, 5, 6, 7, 8]⟩, by decide +kernel⟩
  exact (push_emitted .default 1000 3 [1, 2, 3, 4, 5, 6, 7, 8] (by decide) (fun _ ↦ .classic)
    (List.replicate 6 0xff)).2 _ hemits _ _ _ rfl rfl (by decide) (by simp [IsDuplicate, default])

end Gather

end Emcyphal
