import Jukebox.Audio.Decoder
import Jukebox.Audio.Riff
/-!
# ADTS streams

An ADTS stream is a run of frames, each with a header that says how long it is. Bytes between
frames are skipped up to the next header. A header that makes no sense is a place that cannot be
read, and a frame that the end of the file cuts short is the last.

The stream has no index. A seek starts over if it has to and counts frames from there, so it can
only fail on its way, and stays where it failed. The length is a guess from the size of frames met
at a few places in the file.

Of the frames themselves only those without coded channels are decoded: they are silent. Coupling
channels and program configurations are beyond the codec, and anything else is taken as damaged.
-/
namespace Jukebox.Audio.Adts

def frameSamples : Nat := 1024

def track : Nat := 0

def rates : List Nat :=
  [96000, 88200, 64000, 48000, 44100, 32000, 24000, 22050, 16000, 12000, 11025, 8000, 7350]

/-- Bytes in a header without checksum. -/
def headerSize : Nat := 7

structure Header where
  rateIndex : Nat
  channels : Nat
  /-- Bytes in the frame, the header included. -/
  length : Nat
  /-- Bytes before the data. -/
  size : Nat
  /-- Raw blocks in the frame beyond the first. -/
  extraBlocks : Nat
  deriving DecidableEq, Repr

def isSync (bytes : Array UInt8) (i : Nat) : Bool :=
  Riff.byteAt bytes i = 0xFF && (Riff.byteAt bytes (i + 1) &&& 0xF6) = 0xF0

def headerAt (bytes : Array UInt8) (i : Nat) : Header :=
  let b := fun k => Riff.byteAt bytes (i + k)
  { rateIndex := (b 2 >>> 2) % 16
    channels := b 2 % 2 * 4 + (b 3 >>> 6)
    length := b 3 % 4 * 2048 + b 4 * 8 + (b 5 >>> 5)
    size := if b 1 % 2 = 1 then headerSize else headerSize + 2
    extraBlocks := b 6 % 4 }

/-- Whether a header makes sense: a rate of the table, a length that covers the header, and a
single block. -/
def Header.isSound (h : Header) : Bool :=
  h.rateIndex < rates.length && headerSize ≤ h.length && h.size ≤ h.length && h.extraBlocks = 0

/-- What the codec makes of the data of a frame. The first three bits name its first element. -/
def decode (channels : Nat) (data : Array UInt8) : Content Float32 :=
  let silence : Content Float32 := .samples (Array.replicate (frameSamples * channels) 0)
  match data[0]? with
  | none => silence
  | some b =>
    match b.toNat >>> 5 with
    | 7 => silence
    | 2 | 5 => .fatal
    | _ => .damaged

theorem headerSize_le_of_isSound {h : Header} (sound : h.isSound) : headerSize ≤ h.length := by
  simp only [Header.isSound, Bool.and_eq_true, decide_eq_true_eq] at sound
  exact sound.1.1.2

def piecesFrom (channels : Nat) (bytes : Array UInt8) (start : Nat) : List (Piece Float32) :=
  if _inside : start + headerSize ≤ bytes.size then
    if isSync bytes start then
      let header := headerAt bytes start
      if _sound : header.isSound then
        if bytes.size < start + header.length then [.cutShort frameSamples]
        else
          let data := bytes.extract (start + header.size) (start + header.length)
          .packet ⟨track, frameSamples, decode channels data⟩ ::
            piecesFrom channels bytes (start + header.length)
      else .unreadable :: piecesFrom channels bytes (start + headerSize)
    else piecesFrom channels bytes (start + 1)
  else []
termination_by bytes.size - start
decreasing_by
  · have := headerSize_le_of_isSound _sound
    simp +zetaDelta only [headerSize] at *
    omega
  · unfold headerSize at *
    omega
  · unfold headerSize at *
    omega

/-- Goes on from a place to the frame that holds a target. -/
def skipTo (target frame : Nat) : List (Piece Float32) → Except String Unit × Cursor Float32
  | [] => (.error "unexpected end of file", ⟨frame, []⟩)
  | .unreadable :: rest => (.error "malformed stream: adts: invalid frame", ⟨frame, rest⟩)
  | .cutShort frames :: rest =>
    if target < frame + frames then (.ok (), ⟨frame, .cutShort frames :: rest⟩)
    else (.error "unexpected end of file", ⟨frame, rest⟩)
  | .packet p :: rest =>
    if target < frame + p.frames then (.ok (), ⟨frame, .packet p :: rest⟩)
    else skipTo target (frame + p.frames) rest

/-- Goes to the frame that holds a target: onwards if it is ahead, and from the start if not. -/
def seek (all : List (Piece Float32)) (target : Nat) (c : Cursor Float32) :
    Except String Unit × Cursor Float32 :=
  if target < c.frame then skipTo target 0 all else skipTo target c.frame c.rest

/-- Most frames that are measured at a place. -/
def sampleFrames : Nat := 100

/-- The lengths of the whole frames that follow a place, up to a count. -/
def lengthsFrom (bytes : Array UInt8) (start count : Nat) : List Nat :=
  if _inside : start + headerSize ≤ bytes.size ∧ 0 < count then
    if isSync bytes start then
      let header := headerAt bytes start
      if header.isSound ∧ start + header.length ≤ bytes.size then
        header.length :: lengthsFrom bytes (start + header.length) (count - 1)
      else []
    else lengthsFrom bytes (start + 1) count
  else []
termination_by (count, bytes.size - start)
decreasing_by
  · exact Prod.Lex.left _ _ (by omega)
  · exact Prod.Lex.right _ (by unfold headerSize at *; omega)

/-- The count of samples in the stream, as far as the frames at four places tell: at its start and
at each further quarter that has a quarter behind it. -/
def estimate (bytes : Array UInt8) : Nat :=
  let step := bytes.size / 4
  let starts := ((List.range 4).map (· * step)).filter (· < bytes.size - step)
  let lengths := starts.flatMap fun start => lengthsFrom bytes start sampleFrames
  bytes.size / (lengths.foldl (· + ·) 0 / lengths.length) * frameSamples

/-- The recording in an ADTS stream of one or two channels that starts with a whole frame. -/
def recording? (bytes : Array UInt8) : Option (Recording Float32) := do
  guard (headerSize ≤ bytes.size ∧ isSync bytes 0)
  let header := headerAt bytes 0
  guard (header.isSound ∧ header.length ≤ bytes.size)
  guard (header.channels = 1 ∨ header.channels = 2)
  let rate ← rates[header.rateIndex]?
  let pieces := piecesFrom header.channels bytes 0
  return {
    format := ⟨rate, header.channels⟩
    length := estimate bytes / rate
    track
    pieces
    seek := seek pieces }

end Jukebox.Audio.Adts
