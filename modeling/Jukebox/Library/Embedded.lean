import Jukebox.Audio.Adts
import Jukebox.Audio.Wave
import Jukebox.Library.WaveTags
import Jukebox.Storage.FileSystem
/-!
# Media files on disk

Opening a file for decoding goes by what it holds and not by its name. A tag in front is passed
over. An ADTS stream starts right there; a WAV file may have other bytes in front of it.

Reading the tags of a file goes by its extension. Tags are read from WAV files. Of a WavPack file it
is only said that it has none.
-/
namespace Jukebox.Audio.Container

def tagHeaderSize : Nat := 10

/-- Where the content starts, behind a tag. The size of the tag has seven bits a byte. -/
def contentStart (bytes : Array UInt8) : Nat :=
  let size := fun (n i : Nat) => n * 128 + Riff.byteAt bytes (6 + i) % 128
  if bytes.extract 0 3 = #[0x49, 0x44, 0x33] then
    tagHeaderSize + (List.range 4).foldl size 0
  else 0

/-- Bytes that are looked at to tell what a file holds. -/
def probeSize : Nat := 16

/-- Where a RIFF file starts, from a place on. -/
def riffStart? (bytes : Array UInt8) (start : Nat) : Option Nat :=
  if _inside : start + probeSize ≤ bytes.size then
    if Riff.nameAt bytes start = "RIFF" then some start else riffStart? bytes (start + 1)
  else none
termination_by bytes.size - start
decreasing_by
  unfold probeSize at *
  omega

def recording? (bytes : Array UInt8) : Option (Recording Float32) :=
  let content := bytes.extract (contentStart bytes) bytes.size
  if probeSize ≤ content.size ∧ Adts.isSync content 0 then Adts.recording? content
  else
    (riffStart? content 0).bind fun start =>
      Wave.recording? (content.extract start content.size)

end Jukebox.Audio.Container

namespace Jukebox.Library

open Audio Storage

def fileType? (path : Path) : Option String :=
  (path.extension?.bind Text.ofBytes?).map fun e => e.map Char.toLower

def openMedia (path : Path) (content : Except SystemError (Array UInt8)) :
    Except Fault (Decoder Float32) :=
  match content with
  | .error e => .error (.media ("Failed to open file " ++ path.display ++ ": " ++ e.message))
  | .ok bytes =>
    match Container.recording? bytes with
    | none =>
      .error (.media ("Failed to probe format: unsupported feature: core (probe): " ++
        "no suitable format reader found"))
    | some r => .ok (.start path r)

/-- Least bytes of a WavPack file: the header of a block. -/
def blockHeaderSize : Nat := 32

def tagsIn (type : Option String) (bytes : Array UInt8) : Except TagFlaw Tags :=
  match type with
  | some "wav" | some "wave" => (WaveContents.read bytes).map (·.tags)
  | some "wv" => if blockHeaderSize ≤ bytes.size then .ok .none else .error .cutShort
  | _ => .error .unknownFormat

/-- Reads the tags of a file, with its cover art on demand. -/
def readTags (path : Path) (content : Except SystemError (Array UInt8)) (withPicture : Bool) :
    Except Fault Tags := do
  let bytes ← content.mapError fun e =>
    .media ("Failed to open " ++ path.display ++ ": " ++ e.message)
  let tags ← (tagsIn (fileType? path) bytes).mapError fun flaw =>
    .media ("Failed to read tags of " ++ path.display ++ ": " ++ flaw.message)
  return if withPicture then tags else { tags with picture := none }

end Jukebox.Library
