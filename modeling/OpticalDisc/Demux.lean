import OpticalDisc.Error
import OpticalDisc.TimeBase

/-!
# Transport demultiplexers

A `Demultiplexer` takes apart an MPEG transport stream: given a byte stream it reports the programs
and elementary streams in it, and then their packets. How it does so is its own affair.
-/

namespace OpticalDisc

inductive StreamKind
  | video
  | audio
  | subtitle
  | data
  deriving DecidableEq, Repr

structure Program where
  id : Nat
  number : Nat
  /-- Positions in the list of streams. -/
  streams : List Nat
  startTime : Option Int := none
  deriving DecidableEq, Repr

/-- How a stream is coded, as the demultiplexer tells it. -/
structure Codec where
  kind : StreamKind := .data
  name : String := ""
  width : Option Nat := none
  height : Option Nat := none
  channels : Option Nat := none
  sampleRate : Option Nat := none
  bitRate : Option Nat := none
  privateData : ByteArray := .empty

structure ElementaryStream where
  index : Nat
  /-- The packet identifier in a transport stream. -/
  id : Nat
  codec : Codec
  timeBase : TimeBase
  startTime : Option Int := none
  /-- A three-letter language code. -/
  language : Option String := none

structure TransportTables where
  programs : List Program := []
  streams : List ElementaryStream := []

structure Packet where
  stream : Nat
  presentation : Option Int := none
  decoding : Option Int := none
  keyframe : Bool := false
  data : ByteArray

/-- Takes apart byte streams of type `ι`. The stream goes along with the own state of the
demultiplexer. -/
class Demultiplexer (τ ι : Type) where
  /-- Reads the program tables. -/
  openTables : EStateM Error (τ × ι) TransportTables
  /-- The next packet; none at the end of the stream. -/
  nextPacket : EStateM Error (τ × ι) (Option Packet)

end OpticalDisc
