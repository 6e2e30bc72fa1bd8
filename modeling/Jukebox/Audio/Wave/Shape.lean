import Jukebox.Audio.Riff
import Jukebox.Audio.Stream
/-!
# The format chunk of a WAV file

The chunk tells the shape of the stream, how its samples are coded, and how many bytes a frame
takes. The last two are independent: what is left of a frame behind its samples is passed over
packet by packet.
-/
namespace Jukebox.Audio.Wave

structure Shape where
  format : Format
  coding : SampleCoding
  /-- Bytes of a frame. -/
  block : Nat
  deriving DecidableEq, Repr

/-- Most channels, which is how many positions of speakers have a name. -/
def mostChannels : Nat := 26

def wholeCoding? : Nat → Option SampleCoding
  | 8 => some .unsigned8
  | 16 => some .signed16
  | 24 => some .signed24
  | 32 => some .signed32
  | _ => none

def floatCoding? : Nat → Option SampleCoding
  | 32 => some .float32
  | 64 => some .float64
  | _ => none

def wholeTag : Nat := 1

def floatTag : Nat := 3

def aLawTag : Nat := 6

def muLawTag : Nat := 7

/-- Tag that stands for an identifier further on. -/
def extensibleTag : Nat := 0xFFFE

def coding? (tag bits : Nat) : Option SampleCoding :=
  if tag = wholeTag then wholeCoding? bits
  else if tag = floatTag then floatCoding? bits
  else if tag = aLawTag then some .aLaw
  else if tag = muLawTag then some .muLaw
  else none

/-- What follows the tag in an identifier of a coding. -/
def codingFamily : Array UInt8 :=
  #[0, 0, 0, 0, 0x10, 0, 0x80, 0, 0, 0xAA, 0, 0x38, 0x9B, 0x71]

/-- The coding that a chunk of a size names, its body starting at a place. Each way of naming it
has sizes of its own; an extensible chunk gives an identifier, with the tag in front. -/
def codingAt? (bytes : Array UInt8) (start size : Nat) : Option SampleCoding :=
  let tag := Riff.little bytes start 2
  let bits := Riff.little bytes (start + 14) 2
  let extra := Riff.little bytes (start + 16) 2
  if tag = extensibleTag then
    if size = 40 ∧ extra = 22 ∧ bits % 8 = 0 ∧
        bytes.extract (start + 26) (start + 40) = codingFamily then
      coding? (Riff.little bytes (start + 24) 2) bits
    else none
  else
    let fits :=
      if tag = wholeTag then size = 16 ∨ size = 18 ∨ size = 40
      else if tag = floatTag then size = 16 ∨ size = 18 ∧ extra = 0 ∨ size = 40
      else size = 18
    if fits then coding? tag bits else none

/-- What a format chunk of a size declares, its body starting at a place. A stream has frames and
channels at least one by one. -/
def Shape.read? (bytes : Array UInt8) (start size : Nat) : Option Shape := do
  let channels := Riff.little bytes (start + 2) 2
  let rate := Riff.little bytes (start + 4) 4
  guard (0 < rate ∧ 0 < channels ∧ channels ≤ mostChannels)
  let coding ← codingAt? bytes start size
  return ⟨⟨rate, channels⟩, coding, Riff.little bytes (start + 12) 2⟩

end Jukebox.Audio.Wave
