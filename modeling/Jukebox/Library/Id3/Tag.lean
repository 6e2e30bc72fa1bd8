import Jukebox.Library.Genre
import Jukebox.Library.Id3.Frame
import Jukebox.Text.Numeral
/-!
# ID3 tags

A tag of version 2.2, 2.3 or 2.4 has a header in front of its frames. The header may go on with an
extension, and tells whether the bytes of the frames were changed lest they look like sound.

What a tag says about a title is in its frames. A text may hold several values, parted by NULs, of
which the first one counts. Numbers are held as texts; a text that is none counts as zero.
-/
namespace Jukebox.Library.Id3

open Audio

def headerSize : Nat := 10

/-- Bytes of a footer, which says the same as the header. -/
def footerSize : Nat := 10

structure Header where
  version : Version
  unsynced : Bool
  hasFooter : Bool
  /-- Bytes of the tag behind the fixed part of the header. -/
  size : Nat
  /-- Bytes of the extension as it declares them, and as it takes them. -/
  declared : Nat
  taken : Nat
  deriving DecidableEq, Repr

structure Tag where
  frames : List Frame
  hasFooter : Bool
  deriving DecidableEq, Repr

def Version.ofNumber? : Nat → Option Version
  | 2 => some .two
  | 3 => some .three
  | 4 => some .four
  | _ => none

/-- The bytes of an extension as it declares them and as it takes them: a size and flags, and what
two of the flags add. The size goes below that of the tag. -/
def extension? (bytes : Array UInt8) (size : Nat) : Option (Nat × Nat) := do
  guard (headerSize + 6 ≤ bytes.size)
  let declared := sevenBits (Riff.big bytes headerSize 4)
  let flags := Riff.byteAt bytes (headerSize + 5)
  guard (6 ≤ declared ∧ declared < size)
  let taken := 6 + 6 * (flags.testBit 5).toNat + 2 * (flags.testBit 4).toNat
  guard (!flags.testBit 4 ∨ headerSize + taken ≤ bytes.size)
  return (declared, taken)

/-- The header in front of a tag. The oldest version marks an unknown compression by what is an
extension later. -/
def Header.read? (bytes : Array UInt8) : Option Header := do
  guard (headerSize ≤ bytes.size ∧ bytes.extract 0 3 = #[0x49, 0x44, 0x33])
  let version ← Version.ofNumber? (Riff.byteAt bytes 3)
  let flags := Riff.byteAt bytes 5
  let size := sevenBits (Riff.big bytes 6 4)
  guard (!(version = .two ∧ flags.testBit 6))
  let (declared, taken) ← if flags.testBit 6 then extension? bytes size else some (0, 0)
  return ⟨version, flags.testBit 7, version ≠ .two && flags.testBit 4, size, declared, taken⟩

def Tag.read? (bytes : Array UInt8) : Option Tag := do
  let h ← Header.read? bytes
  let start := headerSize + h.taken
  let body := (bytes.extract start (start + (h.size - h.declared))).toList
  let frames ← framesFrom? h.version (if h.unsynced then resync body else body) []
  return ⟨frames, h.hasFooter⟩

end Jukebox.Library.Id3

namespace Jukebox.Library

def numberOf (s : String) : UInt32 :=
  UInt32.ofNat ((Text.Numeral.parse? Text.Numeral.halfBound s).getD 0)

/-- The year that a date starts with: four digits. -/
def yearOf (s : String) : UInt32 :=
  let digits := ((s.toList.dropWhile Text.isBlank).takeWhile Char.isDigit).take 4
  if digits.length = 4 then
    UInt32.ofNat (digits.foldl (fun n c => n * 10 + (c.toNat - '0'.toNat)) 0)
  else 0

/-- Whether a character parts the number of a track from the count of tracks. -/
def partsTrack (c : Char) : Bool :=
  c = '/' || c = '\x00'

/-- The first of the values in a text, which are parted by NULs. -/
def firstValue (s : String) : String :=
  String.ofList (s.toList.takeWhile (· ≠ '\x00'))

/-- The number of a track in a text that may give the count of tracks too. If both are numbers,
blanks around them do not count. -/
def trackOf (s : String) : UInt32 :=
  let front := s.toList.takeWhile (!partsTrack ·)
  let behind := (s.toList.dropWhile (!partsTrack ·)).tail?
  let number? := fun cs =>
    Text.Numeral.parse? Text.Numeral.halfBound (String.ofList (Text.trimBlanks cs))
  match number? front, behind.map number? with
  | some n, none | some n, some (some _) => UInt32.ofNat n
  | _, _ => numberOf (firstValue s)

end Jukebox.Library

namespace Jukebox.Library.Id3

/-- What a frame gives under a name: a text of that name as it is read, or the first value in a
frame for any text with the name as its label. -/
def Frame.under? {α : Type} (name : String) (read : String → Option α) (plain : String → α)
    (f : Frame) : Option α :=
  match f.content with
  | .text value => if f.name = name then read value else none
  | .labelled label value =>
    if f.name = "TXXX" ∧ label = name then some (plain (firstValue value)) else none
  | _ => none

/-- The comment that a frame gives. A comment with a label is about something else. -/
def Frame.comment? (f : Frame) : Option String :=
  match f.content with
  | .labelled label value =>
    if f.name = "COMM" ∧ label.isEmpty ∨ f.name = "TXXX" ∧ label = "COMM" then some value else none
  | _ => none

def Frame.picture? (f : Frame) : Option Picture :=
  match f.content with
  | .picture _ _ _ p => some p
  | _ => none

def tagsOf (fs : List Frame) : Tags :=
  let text := fun name => fs.findSome? (Frame.under? name (fun s => some (firstValue s)) id)
  { title := text "TIT2"
    artist := text "TPE1"
    album := text "TALB"
    comment := (fs.findSome? Frame.comment?).map firstValue
    genre := fs.findSome? (Frame.under? "TCON" Genre.first? id)
    track := (fs.findSome? (Frame.under? "TRCK" (fun s => some (trackOf s)) numberOf)).getD 0
    year := ((text "TDRC").map yearOf).getD 0
    picture := fs.findSome? Frame.picture? }

end Jukebox.Library.Id3
