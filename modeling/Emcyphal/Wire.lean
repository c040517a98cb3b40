import Emcyphal.Format

/-!
# The wire format of a transfer

What a transfer looks like as a sequence of frames, independently of who produced them and of who
reads them.  Segmentation and reassembly are two separately written state machines; they are
compared by comparing each of them with `Encodes`.
-/

set_option autoImplicit false

namespace Emcyphal

/-- The data of a frame: its payload, then its tail byte. -/
def frameData (payload : List Byte) (sot eot toggle : Bool) (tid : TransferId) : List Byte :=
  payload ++ [(TailByte.new sot eot toggle tid).val]

/-- The frames after the first one of a multi-frame transfer, with the bytes they carry.  The first
of them has the given toggle bit, and only the last one ends the transfer; the others use the whole
MTU. -/
inductive Continues (tid : TransferId) : Bool → List (List Byte) → List Byte → Prop
  | last {toggle : Bool} {payload : List Byte} (hne : payload ≠ []) :
      Continues tid toggle [frameData payload false true toggle tid] payload
  | more {toggle : Bool} {payload rest : List Byte} {frames : List (List Byte)}
      (hlen : payload.length + 1 = 8 ∨ payload.length + 1 = 64)
      (hrest : Continues tid (!toggle) frames rest) :
      Continues tid toggle (frameData payload false false toggle tid :: frames) (payload ++ rest)

/-- The frames of a transfer with the payload `message`: a single frame, or several frames that
carry the message and its CRC. -/
inductive Encodes (tid : TransferId) : List (List Byte) → List Byte → Prop
  | single {message : List Byte} :
      Encodes tid [frameData message true true SOT_TOGGLE_BIT tid] message
  | multi {first rest message crc : List Byte} {frames : List (List Byte)}
      (hlen : first.length + 1 = 8 ∨ first.length + 1 = 64)
      (hrest : Continues tid (!SOT_TOGGLE_BIT) frames rest)
      (hcat : first ++ rest = message ++ crc) (hcrc : crc.length = TransferCrc.LENGTH)
      (hresidue : (TransferCrc.default.addBytes (message ++ crc)).get = 0) :
      Encodes tid (frameData first true false SOT_TOGGLE_BIT tid :: frames) message

/-- The frames of a multi-frame transfer before its last one, with the toggle bit of the next frame
and the bytes carried so far. -/
inductive Begins (tid : TransferId) : List (List Byte) → Bool → List Byte → Prop
  | first {payload : List Byte} (hlen : payload.length + 1 = 8 ∨ payload.length + 1 = 64) :
      Begins tid [frameData payload true false SOT_TOGGLE_BIT tid] (!SOT_TOGGLE_BIT) payload
  | more {toggle : Bool} {payload w : List Byte} {frames : List (List Byte)}
      (hw : Begins tid frames toggle w) (hlen : payload.length + 1 = 8 ∨ payload.length + 1 = 64) :
      Begins tid (frames ++ [frameData payload false false toggle tid]) (!toggle) (w ++ payload)

theorem Continues.ne_nil {tid : TransferId} {toggle : Bool} {frames : List (List Byte)}
    {w : List Byte} (h : Continues tid toggle frames w) : frames ≠ [] := by
  cases h <;> simp

/-- The first frame starts the transfer. -/
theorem Encodes.exists_start {tid : TransferId} {frames : List (List Byte)} {message : List Byte}
    (h : Encodes tid frames message) : ∃ payload eot rest,
      frames = frameData payload true eot SOT_TOGGLE_BIT tid :: rest := by
  cases h with
  | single => exact ⟨_, true, [], rfl⟩
  | multi => exact ⟨_, false, _, rfl⟩

/-- What begins a transfer, and what continues it. -/
theorem Begins.append {tid : TransferId} {frames rest : List (List Byte)} {toggle : Bool}
    {w w' : List Byte} (h : Begins tid frames toggle w) (hrest : Continues tid toggle rest w') :
    ∃ head tail rest', (head.length + 1 = 8 ∨ head.length + 1 = 64) ∧
      Continues tid (!SOT_TOGGLE_BIT) rest' tail ∧ w ++ w' = head ++ tail ∧
      frames ++ rest = frameData head true false SOT_TOGGLE_BIT tid :: rest' := by
  induction h generalizing rest w' with
  | @first payload hlen => exact ⟨payload, w', rest, hlen, hrest, rfl, rfl⟩
  | more _ hlen ih =>
    obtain ⟨head, tail, rest', hhead, htail, hcat, hframes⟩ := ih (hrest.more hlen)
    exact ⟨head, tail, rest', hhead, htail, by rw [List.append_assoc, hcat],
      by rw [List.append_assoc, List.singleton_append, hframes]⟩

/-- A transfer that was begun is ended by a frame that makes its CRC match. -/
theorem Begins.encodes {tid : TransferId} {frames : List (List Byte)} {toggle : Bool}
    {w payload : List Byte} (h : Begins tid frames toggle w) (hne : payload ≠ [])
    (hlen : TransferCrc.LENGTH ≤ (w ++ payload).length)
    (hresidue : (TransferCrc.default.addBytes (w ++ payload)).get = 0) :
    Encodes tid (frames ++ [frameData payload false true toggle tid])
      ((w ++ payload).take ((w ++ payload).length - TransferCrc.LENGTH)) := by
  obtain ⟨head, tail, rest, hhead, htail, hcat, hframes⟩ := h.append (.last hne)
  have hsplit := (List.take_append_drop ((w ++ payload).length - TransferCrc.LENGTH)
    (w ++ payload)).symm
  rw [hframes]
  refine Encodes.multi hhead htail (hcat.symm.trans hsplit) ?_ (by rwa [← hsplit])
  rw [List.length_drop]
  omega

end Emcyphal
