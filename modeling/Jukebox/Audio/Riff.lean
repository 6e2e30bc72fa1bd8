/-!
# RIFF files and the samples in them

A RIFF file is a kind and a list of chunks. A chunk is a name of four bytes, a size and a body; a
body of odd size is followed by one byte of padding. The body of the last chunk may be cut short by
the end of the file. Numbers of several bytes have the least significant byte first.

Samples are uncompressed or companded. Each stands for a value between -1 and 1.
-/
namespace Jukebox.Audio.Riff

/-- The byte at a place, or zero past the end. -/
def byteAt (bytes : Array UInt8) (i : Nat) : Nat :=
  (bytes[i]?.getD 0).toNat

/-- A number of several bytes, the least significant first. -/
def little (bytes : Array UInt8) (start : Nat) : Nat → Nat
  | 0 => 0
  | count + 1 => byteAt bytes start + 256 * little bytes (start + 1) count

/-- A number of several bytes, the most significant first. -/
def big (bytes : Array UInt8) (start count : Nat) : Nat :=
  (List.range count).foldl (fun n i => n * 256 + byteAt bytes (start + i)) 0

def nameAt (bytes : Array UInt8) (start : Nat) : String :=
  String.ofList ((List.range 4).map fun i => Char.ofNat (byteAt bytes (start + i)))

structure Chunk where
  name : String
  size : Nat
  body : Array UInt8
  deriving Repr

def chunksFrom (bytes : Array UInt8) (start : Nat) : List Chunk :=
  if start + 8 ≤ bytes.size then
    let size := little bytes (start + 4) 4
    ⟨nameAt bytes start, size, bytes.extract (start + 8) (start + 8 + size)⟩ ::
      chunksFrom bytes (start + 8 + size + size % 2)
  else []
termination_by bytes.size - start

end Jukebox.Audio.Riff

namespace Jukebox.Audio

inductive SampleCoding where
  | unsigned8 | signed16 | signed24 | signed32 | float32 | float64 | aLaw | muLaw
  deriving DecidableEq, Repr

namespace SampleCoding

def width : SampleCoding → Nat
  | unsigned8 | aLaw | muLaw => 1
  | signed16 => 2
  | signed24 => 3
  | signed32 | float32 => 4
  | float64 => 8

theorem width_pos (c : SampleCoding) : 0 < c.width := by
  cases c <;> decide

/-- A number below twice a half as a signed one. -/
def signed (half n : Nat) : Int :=
  if n < half then n else n - 2 * half

def scaled (scale n : Int) : Float32 :=
  (Float.ofInt n / Float.ofInt scale).toFloat32

/-- The line of a segment that a companded byte lies on, counted from zero. -/
def segment (b : Nat) : Nat :=
  b / 16 % 8

/-- The linear value of an A-law byte. Every other bit of the byte is inverted. -/
def ofALaw (b : UInt8) : Int :=
  let b := (b ^^^ 0x55).toNat
  let step := b % 16 * 16
  let size : Int := match segment b with
    | 0 => step + 8
    | s + 1 => (step + 264) <<< s
  if 128 ≤ b then size else -size

/-- The linear value of a µ-law byte. All bits of the byte are inverted. -/
def ofMuLaw (b : UInt8) : Int :=
  let b := (b ^^^ 0xFF).toNat
  let size : Int := (b % 16 * 8 + 132) <<< segment b
  if 128 ≤ b then 132 - size else size - 132

def decode (c : SampleCoding) (bytes : Array UInt8) (start : Nat) : Float32 :=
  let n := Riff.little bytes start c.width
  match c with
  | unsigned8 => scaled 128 ((n : Int) - 128)
  | signed16 => scaled 32768 (signed 32768 n)
  | signed24 => scaled 8388608 (signed 8388608 n)
  | signed32 => scaled 2147483648 (signed 2147483648 n)
  | float32 => Float32.ofBits (UInt32.ofNat n)
  | float64 => (Float.ofBits (UInt64.ofNat n)).toFloat32
  | aLaw => scaled 32768 (ofALaw (UInt8.ofNat n))
  | muLaw => scaled 32768 (ofMuLaw (UInt8.ofNat n))

/-- The interleaved samples of the whole frames in a run of bytes, up to a count of frames. -/
def decodeFrames (c : SampleCoding) (channels most : Nat) (bytes : Array UInt8) : Array Float32 :=
  let frames := min most (bytes.size / (channels * c.width))
  (Array.range (frames * channels)).map fun i => c.decode bytes (i * c.width)

end SampleCoding

end Jukebox.Audio
