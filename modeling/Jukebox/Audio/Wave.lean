import Jukebox.Audio.Decoder
import Jukebox.Audio.Wave.Shape
/-!
# WAV files

A WAV file as a recording: one track, cut into packets of a fixed number of frames. Its chunks are
read strictly, and only up to the data. The length is the one that the data chunk declares; a file
that is cut short ends early, after its last whole frame.
-/
namespace Jukebox.Audio.Wave

def packetFrames : Nat := 1152

def track : Nat := 0

/-- Bytes in front of the first chunk: a name, a size and a kind. -/
def preambleSize : Nat := 12

/-- A size that says that the size is not known. -/
def unknownSize : Nat := 0xFFFFFFFF

structure Sound where
  shape : Shape
  start : Nat
  size : Option Nat
  deriving DecidableEq, Repr

/-- Whether the chunks of a list lie within it. The list takes so many bytes from a place on, of
which some are read. -/
def listFits (bytes : Array UInt8) (start limit consumed : Nat) : Bool :=
  let here := consumed + consumed % 2
  if _more : here + 8 ≤ limit then
    let size := Riff.little bytes (start + here + 4) 4
    if limit < here + 8 + size then false else listFits bytes start limit (here + 8 + size)
  else true
termination_by limit - consumed

/-- Whether a list chunk is well formed, its body starting at a place. Lists of texts are looked
into, others are not. The chunks in a list are padded, so it has an even size. -/
def isListSound (bytes : Array UInt8) (start size : Nat) : Bool :=
  4 ≤ size && (Riff.nameAt bytes start ≠ "INFO" ||
    size % 2 = 0 && listFits bytes (start + 4) (size - 4) 0)

/-- Looks for the data behind the chunks that are read so far. A chunk that reaches beyond the
limit, and one of a known name that is malformed, spoil the file. Of several format chunks the last
one in front of the data counts. -/
def soundFrom (bytes : Array UInt8) (limit : Option Nat) (consumed : Nat) (shape : Option Shape) :
    Option Sound :=
  let here := consumed + consumed % 2
  let start := preambleSize + here + 8
  if _inside : start ≤ bytes.size then
    let name := Riff.nameAt bytes (preambleSize + here)
    let size := Riff.little bytes (preambleSize + here + 4) 4
    let next := here + 8 + size
    if limit.any (· < next) then none
    else if name = "data" then
      shape.map fun shape =>
        ⟨shape, start, if limit.isNone ∧ size = unknownSize then none else some size⟩
    else if name = "fmt " then
      (Shape.read? bytes start size).bind fun shape => soundFrom bytes limit next (some shape)
    else if name = "fact" ∧ size ≠ 4 ∨ name = "LIST" ∧ !isListSound bytes start size then none
    else soundFrom bytes limit next shape
  else none
termination_by bytes.size - consumed
decreasing_by
  all_goals
    simp +zetaDelta only [preambleSize] at *
    omega

def sound? (bytes : Array UInt8) : Option Sound :=
  let size := Riff.little bytes 4 4
  if preambleSize ≤ bytes.size ∧ Riff.nameAt bytes 0 = "RIFF" ∧ Riff.nameAt bytes 8 = "WAVE" ∧
      4 ≤ size then
    soundFrom bytes (if size = unknownSize then none else some (size - 4)) 0 none
  else none

namespace Sound

def frames? (s : Sound) : Option Nat :=
  s.size.map (· / s.shape.block)

/-- The bytes of the declared frames that are there. -/
def body (s : Sound) (bytes : Array UInt8) : Array UInt8 :=
  let size := s.frames?.elim bytes.size (· * s.shape.block)
  bytes.extract s.start (s.start + size)

/-- The sound cut into packets. Without bytes in a frame there is no telling where one ends. -/
def pieces (s : Sound) (bytes : Array UInt8) : List (Piece Float32) :=
  if s.shape.block = 0 then [.unreadable]
  else
    let body := s.body bytes
    let width := packetFrames * s.shape.block
    (List.range ((body.size + width - 1) / width)).map fun i =>
      let part := body.extract (i * width) ((i + 1) * width)
      .packet ⟨track, packetFrames, .samples
        (s.shape.coding.decodeFrames s.shape.format.channels packetFrames part)⟩

/-- Goes to the packet that holds a frame, if the frame is one of those declared or the one behind
them. -/
def seek (s : Sound) (pieces : List (Piece Float32)) (target : Nat) (c : Cursor Float32) :
    Except String Unit × Cursor Float32 :=
  if s.shape.block = 0 then (.error "stream is not seekable", c)
  else if s.frames?.any (· < target) then
    (.error "requested seek timestamp is out-of-range for stream", c)
  else
    let packet := target / packetFrames
    (.ok (), ⟨packet * packetFrames, pieces.drop packet⟩)

def recording (s : Sound) (bytes : Array UInt8) : Recording Float32 :=
  let pieces := s.pieces bytes
  { format := s.shape.format
    length := s.frames?.getD 0 / s.shape.format.rate
    track
    pieces
    seek := s.seek pieces }

end Sound

def recording? (bytes : Array UInt8) : Option (Recording Float32) :=
  (sound? bytes).map (Sound.recording · bytes)

end Jukebox.Audio.Wave
