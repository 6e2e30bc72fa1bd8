import Jukebox.Audio.Wave.Shape
import Jukebox.Library.Id3.Tag
/-!
# Tags of WAV files

The tags of a WAV file are in its chunks: in an ID3 tag, or in a list of texts. Here the chunks are
read leniently. One may reach beyond the end of the file, unless it is read for what it holds, and
nothing is made of the size that the file declares.
-/
namespace Jukebox.Library

open Audio

inductive TagFlaw where
  | unknownFormat | notWave | badFormat | noSound | noChannels | noCount | cutShort
  | badKey | badText | badTag
  deriving DecidableEq, Repr

def TagFlaw.message : TagFlaw → String
  | unknownFormat => "No format could be determined from the provided file"
  | notWave => "WAV file doesn't contain a RIFF chunk"
  | badFormat => "File does not contain a valid \"fmt \" chunk"
  | noSound => "File does not contain a valid \"data\" chunk"
  | noChannels => "File contains 0 channels"
  | noCount => "Non-PCM format identified, no \"fact\" chunk found"
  | cutShort => "failed to fill whole buffer"
  | badKey => "RIFF INFO item key contains invalid characters"
  | badText => "Failed to read the chunk value"
  | badTag => "ID3v2: tag is malformed"

structure WaveContents where
  /-- The body of the first format chunk. -/
  format : Array UInt8
  /-- The count of samples in the first fact chunk that gives one. -/
  count : Nat
  /-- The size of the first data chunk that is not empty. -/
  soundSize : Nat
  /-- The texts of lists, by their keys. -/
  texts : List (String × String)
  /-- The frames of all ID3 tags. -/
  frames : Option (List Id3.Frame)
  deriving DecidableEq, Repr

namespace WaveContents

def empty : WaveContents :=
  ⟨#[], 0, 0, [], none⟩

/-- A body that has to be there as a whole. -/
def whole (bytes : Array UInt8) (start size : Nat) : Except TagFlaw (Array UInt8) :=
  if start + size ≤ bytes.size then .ok (bytes.extract start (start + size)) else .error .cutShort

/-- Whether a text is a key of a list: four capital letters. -/
def isKey (s : String) : Bool :=
  s.toList.length = 4 && s.toList.all Char.isUpper

def addText (c : WaveContents) (key : String) (body : Array UInt8) :
    Except TagFlaw WaveContents :=
  match Text.ofBytes? body.toList with
  | some s => .ok { c with texts := c.texts ++ [(key, Text.trimNuls s)] }
  | none => .error .badText

/-- Adds an ID3 tag. A further one adds its frames to those of the first. -/
def addTag (c : WaveContents) (tag : Id3.Tag) : WaveContents :=
  { c with frames := some (c.frames.elim tag.frames (tag.frames.foldl Id3.put)) }

/-- A size with the byte of padding that may follow. -/
def padded (size : Nat) : Nat :=
  size + size % 2

/-- Where a list ends that has so many bytes behind its kind. The sizes have 32 bits. -/
def listEnd (start size : Nat) : Nat :=
  start + 4 + (size + 4294967296 - 4) % 4294967296

def readText (bytes : Array UInt8) (start size : Nat) (key : String) (c : WaveContents) :
    Except TagFlaw WaveContents := do
  if !isKey key then throw .badKey
  c.addText key (← whole bytes start size)

/-- What a chunk adds: its share, how far it is read beyond its header, and where the list of texts
ends that it opens. A chunk of a name without meaning is passed over. -/
def readChunk (bytes : Array UInt8) (start size : Nat) (name : String) (c : WaveContents) :
    Except TagFlaw (WaveContents × Nat × Option Nat) := do
  let passed := (c, padded size, none)
  match name with
  | "fmt " =>
    if c.format.isEmpty then
      let format ← whole bytes start size
      return ({ c with format }, size, none)
    else return passed
  | "fact" =>
    if c.count = 0 then
      let body ← whole bytes start 4
      return ({ c with count := Riff.little body 0 4 }, 4, none)
    else return (c, 4, none)
  | "data" => return ({ c with soundSize := if c.soundSize = 0 then size else c.soundSize },
      padded size, none)
  | "LIST" =>
    let _ ← whole bytes start 4
    if Riff.nameAt bytes start = "INFO" then return (c, 4, some (listEnd start size))
    else return passed
  | "id3 " | "ID3 " =>
    let some tag := Id3.Tag.read? (← whole bytes start size) | throw .badTag
    let footer := if tag.hasFooter then Id3.footerSize else 0
    return (c.addTag tag, padded size + footer, none)
  | _ => return passed

/-- What the chunks from a place on add. Inside a list of texts, its end is known; the list is left
only if a chunk ends right there. -/
def readFrom (bytes : Array UInt8) (place : Nat) (list : Option Nat) (c : WaveContents) :
    Except TagFlaw WaveContents :=
  let start := place + 8
  if _inside : start ≤ bytes.size then
    let name := Riff.nameAt bytes place
    let size := Riff.little bytes (place + 4) 4
    if list.any (· ≠ place) then
      (readText bytes start size name c).bind fun c =>
        readFrom bytes (start + padded size) list c
    else
      (readChunk bytes start size name c).bind fun (c, taken, list) =>
        readFrom bytes (start + taken) list c
  else .ok c
termination_by bytes.size - place
decreasing_by
  all_goals
    simp +zetaDelta only at *
    omega

/-- Whether a coding needs a count of samples beside it: all but whole and floating-point numbers
do. -/
def needsCount (tag : Nat) : Bool :=
  tag ≠ Wave.wholeTag && tag ≠ Wave.floatTag

def check (c : WaveContents) : Except TagFlaw Unit := do
  if c.format.size < 16 then throw .badFormat
  if c.soundSize = 0 then throw .noSound
  if Riff.byteAt c.format 2 = 0 then throw .noChannels
  let tag := Riff.little c.format 0 2
  if tag = Wave.extensibleTag ∧ c.format.size < 40 then throw .badFormat
  let tag := if tag = Wave.extensibleTag then Riff.little c.format 24 2 else tag
  if needsCount tag ∧ c.count = 0 then throw .noCount

def read (bytes : Array UInt8) : Except TagFlaw WaveContents := do
  if bytes.size < 12 ∨ Riff.nameAt bytes 0 ≠ "RIFF" ∨ Riff.nameAt bytes 8 ≠ "WAVE" then
    throw .notWave
  let c ← readFrom bytes 12 none empty
  c.check
  return c

/-- The tags in texts of lists. The first text under a key counts. -/
def textTags (texts : List (String × String)) : Tags :=
  let text := fun key => texts.lookup key
  let track := texts.find? fun (key, _) => key = "IPRT" ∨ key = "ITRK"
  { title := text "INAM"
    artist := text "IART"
    album := text "IPRD"
    comment := text "ICMT"
    genre := text "IGNR"
    track := (track.map fun (_, s) => numberOf s).getD 0
    year := ((text "ICRD").map yearOf).getD 0
    picture := none }

/-- The tags of a file. An ID3 tag hides the texts of lists. -/
def tags (c : WaveContents) : Tags :=
  match c.frames with
  | some fs => Id3.tagsOf fs
  | none => textTags c.texts

end WaveContents

end Jukebox.Library
