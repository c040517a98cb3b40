import Emcyphal.Endpoint
import Emcyphal.Lib.Machine
import Emcyphal.Scatter.Fetch

/-!
# A transfer on its way out

The transmit buffers keep a transfer in one of their data buffers, with a `Scatter` that says how
far it was sent.  `Outgoing` is what such an entry stands for, whichever buffer it is kept in, and
`Sends` is what happens when a frame is fetched from it: there is always one to fetch, and with the
last one the transfer is gone.
-/

set_option autoImplicit false

namespace Emcyphal

open Rust

structure Outgoing where
  scatter : Scatter
  timestamp : Instant
  loopBack : Bool
  destination : Option NodeId
  buffer : List Byte
deriving DecidableEq

namespace Outgoing

/-- A transfer that was just pushed. -/
def new (transferMeta : TransferMeta) (length : ℕ) (crc : TransferCrc) (buffer : List Byte) :
    Outgoing where
  scatter := .new transferMeta.transferId length crc
  timestamp := transferMeta.timestamp
  loopBack := transferMeta.loopBack
  destination := transferMeta.address
  buffer := buffer

/-- A frame of the transfer. -/
def frame (o : Outgoing) (priority : Priority) (dataSpec : DataSpecifier) (data : Data) :
    Frame where
  header := ⟨priority, dataSpec, none, o.destination⟩
  data := data
  timestamp := o.timestamp
  loopBack := o.loopBack

/-- There is something left to send. -/
def Ready (o : Outgoing) : Prop := o.scatter.Ready o.buffer.length

/-- A frame is fetched, and this is what is left of the transfer. -/
inductive Sends (o : Outgoing) (mtu : Mtu) (data : Data) : Option Outgoing → Prop
  | more {s : Scatter} (h : o.scatter.Fetched o.buffer mtu data s) (hleft : s.isExhausted = false) :
      Sends o mtu data (some { o with scatter := s })
  | last {s : Scatter} (h : o.scatter.Fetched o.buffer mtu data s) (hdone : s.isExhausted = true) :
      Sends o mtu data none

variable {o : Outgoing} {mtu : Mtu} {data : Data} {rest : Option Outgoing}

theorem ready_new {transferMeta : TransferMeta} {length : ℕ} {crc : TransferCrc}
    {buffer : List Byte} (h : length ≤ buffer.length) :
    (new transferMeta length crc buffer).Ready := Scatter.ready_new h

/-- There is always a next frame. -/
theorem Ready.sends (h : o.Ready) (mtu : Mtu) : ∃ data rest, o.Sends mtu data rest := by
  obtain ⟨data, s, hfetched⟩ := Scatter.Ready.fetch h mtu
  cases hleft : s.isExhausted with
  | false => exact ⟨data, _, .more hfetched hleft⟩
  | true => exact ⟨data, _, .last hfetched hleft⟩

theorem Sends.ready (h : o.Sends mtu data rest) : ∀ o' ∈ rest, o'.Ready := by
  intro o' ho'
  cases h with
  | more hfetched hleft =>
    cases ho'
    exact hfetched.ready hleft
  | last => cases ho'

/-- The frame is not longer than the MTU. -/
theorem Sends.length_le (h : o.Sends mtu data rest) : data.bytes.length ≤ mtu.toUsize := by
  rcases h with ⟨hfetched, -⟩ | ⟨hfetched, -⟩ <;> exact hfetched.length

/-- The last frame is the one that ends the transfer. -/
theorem Sends.eot (h : o.Sends mtu data rest) {priority : Priority} {dataSpec : DataSpecifier} :
    isEotFrame (o.frame priority dataSpec data) = some rest.isNone := by
  rcases h with ⟨hfetched, hleft⟩ | ⟨hfetched, hleft⟩
  · exact hfetched.eot.trans (congrArg some hleft)
  · exact hfetched.eot.trans (congrArg some hleft)

/-- The first frame is the one that starts the transfer. -/
theorem Sends.sot (h : o.Sends mtu data rest) (ho : o.Ready) {priority : Priority}
    {dataSpec : DataSpecifier} :
    isSotFrame (o.frame priority dataSpec data) = some (decide (o.scatter.offset = 0)) := by
  rcases h with ⟨hfetched, -⟩ | ⟨hfetched, -⟩ <;> exact hfetched.sot ho

/-- What is left of the transfer was sent in part. -/
theorem Sends.offset_ne_zero (h : o.Sends mtu data rest) :
    ∀ o' ∈ rest, o'.scatter.offset ≠ 0 := by
  intro o' ho'
  rcases h with ⟨hfetched, -⟩ | ⟨hfetched, -⟩
  · cases ho'
    exact Nat.ne_of_gt (Nat.zero_lt_of_lt hfetched.offset)
  · cases ho'

/-- The bytes that are left to send. -/
def remaining (o : Outgoing) : ℕ := o.scatter.dataLength + Scatter.CRC_LENGTH - o.scatter.offset

/-- Each frame leaves less. -/
theorem Sends.remaining_lt (h : o.Sends mtu data rest) : (rest.map remaining).getD 0 <
    o.remaining := by
  rcases h with ⟨hfetched, -⟩ | ⟨hfetched, -⟩
  · have hoffset := hfetched.offset
    have hbound := hfetched.bound
    rw [Option.map_some, Option.getD_some, remaining, remaining]
    dsimp only
    rw [hfetched.dataLength]
    omega
  · have hoffset := hfetched.offset
    have hbound := hfetched.bound
    rw [Option.map_none, Option.getD_none, remaining]
    omega

end Outgoing

end Emcyphal
