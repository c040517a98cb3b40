import Emcyphal.Gather.Reassembly

/-!
# A transfer that is received was sent

Nothing is assumed about the frames here.  Whatever a `Gather` is fed with, a transfer it returns is
the transfer of a subsequence of the frames it was fed with: they are frames of one transfer
(`Encodes`), in order, within the timeout, and not interrupted by a frame with another transfer
identifier.

`pushCall_pushes` lists the six things a frame can do to a reassembly.  The invariant `Traces` says
which frames of the history a running reassembly is made of.
-/

set_option autoImplicit false

namespace Emcyphal

open Rust

namespace Reassembly

/-! ## What a frame can do to a reassembly -/

/-- The transition as a relation. -/
inductive Pushes (timeout : Duration) (call : Call) :
    Reassembly → Reassembly → Option Delivery → Prop
  /-- The frame is ignored.  It does not carry another transfer identifier. -/
  | skip {r : Reassembly}
      (hsame : ∀ tid tail, r.tid? = some tid → call.tail? = some tail → tail.transferId = tid) :
      Pushes timeout call r r none
  /-- The reassembly ends without a delivery. -/
  | stop {r : Reassembly} : Pushes timeout call r r.stop none
  | single {r : Reassembly} {tid : TransferId}
      (hdata : call.data = frameData call.payload true true SOT_TOGGLE_BIT tid) :
      Pushes timeout call r (.assembled call.timestamp tid)
        (some (⟨tid, call.priority, call.timestamp, call.payload.length⟩, call.payload))
  | first {r : Reassembly} {tid : TransferId}
      (hdata : call.data = frameData call.payload true false SOT_TOGGLE_BIT tid)
      (hlen : call.payload.length + 1 = 8 ∨ call.payload.length + 1 = 64) :
      Pushes timeout call r (.running .first call.timestamp tid call.payload) none
  | more {progress : Progress} {sof : Instant} {tid : TransferId} {bytes : List Byte}
      (hdata : call.data = frameData call.payload false false progress.expected tid)
      (hlen : call.payload.length + 1 = 8 ∨ call.payload.length + 1 = 64)
      (hts : call.timestamp ≤ Instant.saturatingAdd sof timeout) :
      Pushes timeout call (.running progress sof tid bytes)
        (.running progress.next sof tid (bytes ++ call.payload)) none
  | last {progress : Progress} {sof : Instant} {tid : TransferId} {bytes : List Byte}
      (hdata : call.data = frameData call.payload false true progress.expected tid)
      (hts : call.timestamp ≤ Instant.saturatingAdd sof timeout) (hne : call.payload ≠ [])
      (hcomplete : IsComplete (bytes ++ call.payload)) :
      Pushes timeout call (.running progress sof tid bytes) (.assembled sof tid)
        (some (⟨tid, call.priority, sof, (message (bytes ++ call.payload)).length⟩,
          message (bytes ++ call.payload)))

/-- A data length the code accepts for a frame that does not end a transfer. -/
theorem length_of_mtu {payload : List Byte}
    (h : ¬ (Mtu.tryFrom (payload.length + 1)).isNone = true) :
    payload.length + 1 = 8 ∨ payload.length + 1 = 64 := by
  rw [← Mtu.tryFrom_isSome, Option.isSome_iff_ne_none]
  simpa using h

/-- The current transfer is the one the phase is about. -/
theorem tid?_of_isCurrent {r : Reassembly} {timeout : Duration} {tid : TransferId}
    {timestamp : Instant} (h : r.isCurrent timeout tid timestamp = true) : r.tid? = some tid := by
  cases r with
  | idle | idleLast => exact absurd h Bool.false_ne_true
  | running | assembled =>
    exact congrArg some (of_decide_eq_true (Bool.and_eq_true_iff.mp h).1).symm

variable {timeout : Duration} {call : Call} {tail : TailByte}

/-- A frame that belongs to the running reassembly. -/
theorem proceed_pushes {progress : Progress} {sof : Instant} {bytes : List Byte}
    (htail : call.tail? = some tail) (hsot : tail.sot = false)
    (hts : call.timestamp ≤ Instant.saturatingAdd sof timeout) :
    Pushes timeout call (.running progress sof tail.transferId bytes)
      (proceed sof tail.transferId progress bytes tail (call.segment tail)).2
      (proceed sof tail.transferId progress bytes tail (call.segment tail)).1 := by
  have hdata := Call.data_eq_frameData htail
  rw [hsot] at hdata
  rw [proceed]
  split
  · rename_i htoggle
    rw [htoggle] at hdata
    split
    · rename_i heot
      rw [heot] at hdata
      rw [finish]
      split
      · rename_i hc
        exact .last hdata hts hc.1 hc.2
      · exact .stop
    · rename_i heot
      rw [Bool.eq_false_iff.mpr heot] at hdata
      rw [extend]
      split
      · exact .stop
      · rename_i hmtu
        split
        · exact .more hdata (length_of_mtu hmtu) hts
        · exact .stop
  · split
    · exact .stop
    · refine .skip fun tid tail' htid htail' ↦ ?_
      cases htid
      rw [Option.some.inj (htail.symm.trans htail')]

theorem pushCall_pushes (timeout : Duration) (r : Reassembly) (call : Call) :
    Pushes timeout call r (r.pushCall timeout call).1 (r.pushCall timeout call).2 := by
  rw [pushCall]
  cases htail : call.tail? with
  | none =>
    exact .skip fun _ tail _ htail' ↦ absurd (htail.symm.trans htail') (by simp)
  | some tail =>
    have hdata := Call.data_eq_frameData htail
    unfold push
    simp only [Prod.fst_swap, Prod.snd_swap]
    split
    · rename_i hdup
      refine .skip fun tid tail' htid htail' ↦ ?_
      obtain rfl := Option.some.inj (htail.symm.trans htail')
      have hcurrent := tid?_of_isCurrent (Bool.and_eq_true_iff.mp hdup).2
      exact Option.some.inj (hcurrent.symm.trans htid)
    split
    · rename_i hsot
      rw [hsot] at hdata
      split
      · rename_i htoggle
        rw [htoggle] at hdata
        split
        · rename_i heot
          rw [heot] at hdata
          exact .single hdata
        · rename_i heot
          rw [Bool.eq_false_iff.mpr heot] at hdata
          rw [start]
          split
          · exact .stop
          · rename_i hmtu
            exact .first hdata (length_of_mtu hmtu)
      · exact .stop
    · rename_i hsot
      split
      · rename_i progress sof tid bytes hcurrent
        simp only [Phase.isCurrent, Bool.and_eq_true, decide_eq_true_eq] at hcurrent
        obtain ⟨rfl, hts⟩ := hcurrent
        exact proceed_pushes htail (Bool.eq_false_iff.mpr hsot) hts
      · exact .stop

/-- The last start of transfer stays, or is the frame itself. -/
theorem sof?_pushCall (timeout : Duration) (r : Reassembly) (call : Call) :
    (r.pushCall timeout call).1.sof? = r.sof? ∨
      (r.pushCall timeout call).1.sof? = some call.timestamp := by
  have hp := pushCall_pushes timeout r call
  generalize (r.pushCall timeout call).1 = r', (r.pushCall timeout call).2 = o at hp ⊢
  cases hp with
  | skip | more | last => exact .inl rfl
  | stop => exact .inl (Phase.sof?_stop r)
  | single | first => exact .inr rfl

/-- A delivery ends the reassembly, and has the priority of the frame. -/
theorem pushCall_delivers {r : Reassembly} {d : Delivery}
    (h : (r.pushCall timeout call).2 = some d) :
    (r.pushCall timeout call).1.bytes = [] ∧ d.1.priority = call.priority ∧
      d.1.length = d.2.length := by
  have hp := pushCall_pushes timeout r call
  generalize (r.pushCall timeout call).1 = r' at hp ⊢
  rw [h] at hp
  cases hp with
  | single | last => exact ⟨rfl, rfl, rfl⟩

/-! ## The frames a reassembly is made of -/

/-- The calls `frames` are found in the history at the positions `idx`, in order, within the timeout
of the first one, and from there on no frame carries another transfer identifier. -/
structure Selects (timeout : Duration) (history : List Call) (idx : List ℕ) (frames : List Call)
    (sof : Instant) (tid : TransferId) : Prop where
  positions : List.Forall₂ (fun i call ↦ history[i]? = some call) idx frames
  increasing : idx.Pairwise (· < ·)
  start : frames.head?.map Call.timestamp = some sof
  inTime : ∀ call ∈ frames, call.timestamp ≤ Instant.saturatingAdd sof timeout
  uninterrupted : ∀ i j call tail, idx.head? = some i → i < j → history[j]? = some call →
    call.tail? = some tail → tail.transferId = tid

/-- The transfer `t` with the payload `text` is made of the calls `frames`, of which the last one is
the last call of the history. -/
structure Explains (timeout : Duration) (history : List Call) (idx : List ℕ) (frames : List Call)
    (t : Transfer) (text : List Byte) : Prop where
  selects : Selects timeout history idx frames t.timestamp t.id
  ends : idx.getLast?.map (· + 1) = some history.length
  encodes : Encodes t.id (frames.map Call.data) text
  length : t.length = text.length
  priority : frames.getLast?.map Call.priority = some t.priority

namespace Selects

variable {history : List Call} {idx : List ℕ} {frames : List Call} {sof : Instant}
  {tid : TransferId}

/-- Positions stay valid when the history grows. -/
theorem getElem?_concat {i : ℕ} {c : Call} (call : Call) (h : history[i]? = some c) :
    (history ++ [call])[i]? = some c := by
  have hi : i < history.length := (List.getElem?_eq_some_iff.mp h).1
  rwa [List.getElem?_append_left hi]

theorem lt_length (h : List.Forall₂ (fun i call ↦ history[i]? = some call) idx frames) :
    ∀ i ∈ idx, i < history.length := by
  induction h with
  | nil => simp
  | cons hc _ ih =>
    rw [List.forall_mem_cons]
    exact ⟨(List.getElem?_eq_some_iff.mp hc).1, ih⟩

/-- A frame of a transfer with the same identifier, or an empty one, does not interrupt. -/
theorem uninterrupted_concat (h : Selects timeout history idx frames sof tid)
    (hsame : ∀ tail, call.tail? = some tail → tail.transferId = tid) (i j : ℕ) (c : Call)
    (tail : TailByte) (hi : idx.head? = some i) (hij : i < j)
    (hj : (history ++ [call])[j]? = some c) (htail : c.tail? = some tail) :
    tail.transferId = tid := by
  rcases Nat.lt_or_ge j history.length with hlt | hge
  · rw [List.getElem?_append_left hlt] at hj
    exact h.uninterrupted i j c tail hi hij hj htail
  · rw [List.getElem?_append_right hge] at hj
    obtain rfl : call = c := by
      obtain ⟨hlt, hc⟩ := List.getElem?_eq_some_iff.mp hj
      rwa [List.getElem_singleton] at hc
    exact hsame tail htail

theorem skip (h : Selects timeout history idx frames sof tid)
    (hsame : ∀ tail, call.tail? = some tail → tail.transferId = tid) :
    Selects timeout (history ++ [call]) idx frames sof tid where
  positions := h.positions.imp fun _ _ ↦ getElem?_concat call
  increasing := h.increasing
  start := h.start
  inTime := h.inTime
  uninterrupted := h.uninterrupted_concat hsame

theorem first (timeout : Duration) (history : List Call) (call : Call) (tid : TransferId) :
    Selects timeout (history ++ [call]) [history.length] [call] call.timestamp tid where
  positions := .cons (by simp) .nil
  increasing := List.pairwise_singleton _ _
  start := rfl
  inTime := by
    intro c hc
    rw [List.mem_singleton.mp hc, Instant.le_saturatingAdd]
    omega
  uninterrupted := by
    intro i j c tail hi hij hj _
    cases hi
    obtain ⟨hlt, -⟩ := List.getElem?_eq_some_iff.mp hj
    rw [List.length_append, List.length_singleton] at hlt
    omega

theorem more (h : Selects timeout history idx frames sof tid)
    (hsame : ∀ tail, call.tail? = some tail → tail.transferId = tid)
    (hts : call.timestamp ≤ Instant.saturatingAdd sof timeout) :
    Selects timeout (history ++ [call]) (idx ++ [history.length]) (frames ++ [call]) sof tid where
  positions := by
    refine List.rel_append (h.positions.imp fun _ _ ↦ getElem?_concat call) (.cons ?_ .nil)
    simp
  increasing := by
    rw [List.pairwise_append]
    refine ⟨h.increasing, List.pairwise_singleton _ _, fun i hi j hj ↦ ?_⟩
    rw [List.mem_singleton.mp hj]
    exact lt_length h.positions i hi
  start := by
    cases frames with
    | nil => exact absurd h.start (by simp)
    | cons c cs => exact h.start
  inTime := by
    intro c hc
    rcases List.mem_append.mp hc with hc | hc
    · exact h.inTime c hc
    · rwa [List.mem_singleton.mp hc]
  uninterrupted := by
    intro i j c tail hi
    refine h.uninterrupted_concat hsame i j c tail ?_
    cases idx with
    | nil =>
      cases h.positions
      exact absurd h.start (by simp)
    | cons i' is => exact hi

end Selects

/-- Which frames of the history a running reassembly is made of. -/
def Traces (timeout : Duration) (history : List Call) : Reassembly → Prop
  | .running progress sof tid bytes => ∃ idx frames, Selects timeout history idx frames sof tid ∧
      Begins tid (frames.map Call.data) progress.expected bytes
  | _ => True

theorem traces_of_tid? {r : Reassembly} (history : List Call) (h : r.tid? = none) :
    Traces timeout history r := by
  cases r with
  | running => exact absurd h (by simp [Phase.tid?])
  | _ => trivial

/-- The identifier in the tail byte of a frame. -/
theorem transferId_of_frameData {payload : List Byte} {sot eot toggle : Bool} {tid : TransferId}
    (hdata : call.data = frameData payload sot eot toggle tid) :
    ∀ tail, call.tail? = some tail → tail.transferId = tid := by
  intro tail htail
  rw [Call.tail?_of_frameData hdata] at htail
  rw [← Option.some.inj htail, TailByte.transferId_new]

/-- One frame keeps the trace, and a delivery is explained by it. -/
theorem Traces.pushes {history : List Call} {r r' : Reassembly} {o : Option Delivery}
    (h : Traces timeout history r) (hp : Pushes timeout call r r' o) :
    Traces timeout (history ++ [call]) r' ∧ ∀ d ∈ o, ∃ idx frames,
      Explains timeout (history ++ [call]) idx frames d.1 d.2 := by
  cases hp with
  | skip hsame =>
    refine ⟨?_, by simp⟩
    cases r with
    | running progress sof tid bytes =>
      obtain ⟨idx, frames, hs, hb⟩ := h
      exact ⟨idx, frames, hs.skip fun tail ↦ hsame tid tail rfl, hb⟩
    | _ => trivial
  | stop => exact ⟨traces_of_tid? _ (Phase.tid?_stop _), by simp⟩
  | single hdata =>
    refine ⟨trivial, fun d hd ↦ ?_⟩
    cases hd
    refine ⟨[history.length], [call], Selects.first timeout history call _, by simp, ?_, rfl, rfl⟩
    rw [List.map_singleton, hdata]
    exact .single
  | @first _ tid hdata hlen =>
    refine ⟨⟨[history.length], [call], Selects.first timeout history call tid, ?_⟩, by simp⟩
    rw [List.map_singleton, hdata]
    exact .first hlen
  | more hdata hlen hts =>
    obtain ⟨idx, frames, hs, hb⟩ := h
    refine ⟨⟨idx ++ [history.length], frames ++ [call],
      hs.more (transferId_of_frameData hdata) hts, ?_⟩, by simp⟩
    rw [List.map_append, List.map_singleton, hdata, Progress.expected_next]
    exact hb.more hlen
  | last hdata hts hne hcomplete =>
    obtain ⟨idx, frames, hs, hb⟩ := h
    refine ⟨trivial, fun d hd ↦ ?_⟩
    cases hd
    refine ⟨idx ++ [history.length], frames ++ [call],
      hs.more (transferId_of_frameData hdata) hts, by simp, ?_, rfl, by simp⟩
    rw [List.map_append, List.map_singleton, hdata]
    exact hb.encodes hne hcomplete.2.1 hcomplete.2.2

/-- The trace along a run. -/
theorem traces_run (timeout : Duration) (history : List Call) :
    Traces timeout history (runTotal (pushCall timeout) .idle history).1 := by
  induction history using List.reverseRecOn with
  | nil => trivial
  | append_singleton history call ih =>
    rw [runTotal_concat]
    exact (ih.pushes (pushCall_pushes timeout _ call)).1

end Reassembly

/-! ## The code -/

namespace Gather

/-- What a step shows of a returned transfer is what the buffer holds of it. -/
theorem eq_take_of_step {timeout : Duration} {s s' : Gather × List Byte} {call : Call}
    {t : Transfer} {bytes : List Byte} (h : step timeout s call = .ok (s', some (t, bytes))) :
    bytes = s'.2.take t.length := by
  obtain ⟨⟨o, g, buffer⟩, -, hr⟩ := bind_eq_ok.mp h
  cases o with
  | none => cases hr
  | some t' => cases hr; rfl

/-- **Soundness**: whatever was pushed before, a transfer that is returned is made of frames that
were pushed, and the buffer starts with its payload. -/
theorem pushFrame_sound (timeout : Duration) (buffer : List Byte) (calls : List Call) (call : Call)
    {s : Gather × List Byte} {outs : List (Option Delivery)} {t : Transfer} {bytes : List Byte}
    (h : run (step timeout) (Gather.default, buffer) (calls ++ [call]) =
      .ok (s, outs ++ [some (t, bytes)])) :
    ∃ idx frames text, Reassembly.Explains timeout (calls ++ [call]) idx frames t text ∧
      s.2.take t.length = text.take buffer.length := by
  have hrun := ((Reassembly.step_represents timeout buffer.length).run_eq
    (Reassembly.represents_default buffer) h).2
  rw [runTotal_concat, List.map_append, List.map_singleton] at hrun
  obtain ⟨-, hlast⟩ := List.append_inj' hrun rfl
  obtain ⟨⟨t', text⟩, hd, hseen⟩ := Option.map_eq_some_iff.mp (List.cons_eq_cons.mp hlast).1.symm
  obtain ⟨rfl, rfl⟩ := Prod.mk.inj hseen
  obtain ⟨idx, frames, hex⟩ := ((Reassembly.traces_run timeout calls).pushes
    (Reassembly.pushCall_pushes timeout _ call)).2 _ hd
  obtain ⟨s', outs', o, -, hstep, hos⟩ := run_concat_eq_ok.mp h
  obtain ⟨-, ho⟩ := List.append_inj' hos rfl
  obtain rfl := (List.cons_eq_cons.mp ho).1
  exact ⟨idx, frames, text, hex, (eq_take_of_step hstep).symm⟩

/-- A transfer of two frames, with an empty frame and a duplicate of an older transfer before. -/
theorem pushFrame_sound_two_frames : ∃ idx frames text, Reassembly.Explains 1000
    ([⟨.low, [9, 0xe2], 50⟩, ⟨.nominal, [1, 2, 3, 4, 5, 6, 7, 0xa3], 100⟩, ⟨.low, [], 200⟩] ++
      [⟨.high, [8, 0x47, 0x92, 0x43], 1100⟩]) idx frames ⟨3, .high, 100, 8⟩ text ∧
    [1, 2, 3, 4, 5, 6].take 8 = text.take 6 := by
  have hrun : run (step 1000) (Gather.default, List.replicate 6 0xff)
      ([⟨.low, [9, 0xe2], 50⟩, ⟨.nominal, [1, 2, 3, 4, 5, 6, 7, 0xa3], 100⟩, ⟨.low, [], 200⟩] ++
        [⟨.high, [8, 0x47, 0x92, 0x43], 1100⟩]) =
      .ok ((⟨.assembled, some 100, some 3, .default⟩, [1, 2, 3, 4, 5, 6]),
        [some (⟨2, .low, 50, 1⟩, [9]), none, none] ++
          [some (⟨3, .high, 100, 8⟩, [1, 2, 3, 4, 5, 6])]) := by
    decide +kernel
  exact pushFrame_sound 1000 (List.replicate 6 0xff) _ _ hrun

end Gather

end Emcyphal
