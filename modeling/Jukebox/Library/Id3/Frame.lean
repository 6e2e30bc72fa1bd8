import Jukebox.Audio.Riff
import Jukebox.Compression.Inflate
import Jukebox.Library.Id3.Content
/-!
# Frames of ID3 tags

A frame has a name, a size and flags in front of its body. Names and flags differ between the
versions; frames are known here by the names of the latest. The body may be packed in several ways.

Frames follow each other up to the first byte of padding or to the end of the tag, which may cut the
last one short. A frame whose name makes no sense is passed over. A frame that makes no sense behind
its name spoils the tag.
-/
namespace Jukebox.Library.Id3

open Audio

structure Frame where
  name : String
  content : Content
  deriving DecidableEq, Repr

/-- Names of the oldest version that are known by another one. All others start as their frames are
read: with `T` a text, with `W` an address. -/
def shortNames : List (String × String) :=
  [("COM", "COMM"), ("ETC", "ETCO"), ("GP1", "GRP1"), ("IPL", "TIPL"), ("MVI", "MVIN"),
    ("MVN", "MVNM"), ("PIC", "APIC"), ("POP", "POPM"), ("TAL", "TALB"), ("TCO", "TCON"),
    ("TP1", "TPE1"), ("TRD", "TDRC"), ("TRK", "TRCK"), ("TT2", "TIT2"), ("TXX", "TXXX"),
    ("TYE", "TDRC"), ("UFI", "UFID"), ("ULT", "USLT"), ("WFD", "WFED"), ("WXX", "WXXX")]

/-- Names of the middle version that are known by another one. -/
def formerNames : List (String × String) :=
  [("IPLS", "TIPL"), ("TORY", "TDOR"), ("TYER", "TDRC")]

structure Packing where
  encrypted : Bool
  grouped : Bool
  /-- The length of the unpacked data is given. -/
  sized : Bool
  unsynced : Bool
  compressed : Bool
  deriving DecidableEq, Repr

/-- The packing that flags of a version tell. -/
def Packing.ofFlags (v : Version) (flags : Nat) : Packing :=
  match v with
  | .two => ⟨false, false, false, false, false⟩
  | .three => ⟨flags.testBit 6, flags.testBit 5, flags.testBit 7, false, flags.testBit 7⟩
  | .four =>
    ⟨flags.testBit 2, flags.testBit 6, flags.testBit 0 || flags.testBit 3, flags.testBit 1,
      flags.testBit 3⟩

/-- Bytes in front of a packed body: one for the encryption, one for the group, four for the
length. -/
def Packing.size (p : Packing) : Nat :=
  p.encrypted.toNat + p.grouped.toNat + 4 * p.sized.toNat

structure FrameHeader where
  name : Option String
  size : Nat
  packing : Packing
  deriving DecidableEq, Repr

def Version.frameHeaderSize : Version → Nat
  | .two => 6
  | _ => 10

theorem Version.frameHeaderSize_pos (v : Version) : 0 < v.frameHeaderSize := by
  cases v <;> decide

/-- A number of four bytes, the highest one first, with seven bits a byte. -/
def sevenBits (n : Nat) : Nat :=
  n % 256 ||| (n / 256 % 256) <<< 7 ||| (n / 65536 % 256) <<< 14 ||| (n / 16777216) <<< 21

/-- The latest name of a frame that some names map to another one. -/
def renamed (names : List (String × String)) (bytes : List UInt8) : String :=
  let name := ofLatin1 bytes
  (names.lookup name).getD name

/-- The name of a frame in a version, which is of capital letters and digits. The middle version may
give a short name with a zero behind it. -/
def nameOf? (v : Version) (bytes : List UInt8) : Option String :=
  let name := match v with
    | .two => renamed shortNames bytes
    | .three =>
      if bytes[3]? = some 0 then renamed shortNames (bytes.take 3) else renamed formerNames bytes
    | .four => renamed [] bytes
  if name.all fun c => c.isUpper || c.isDigit then some name else none

/-- The header that a tag goes on with. Padding starts with a zero. -/
def FrameHeader.read? (v : Version) (bytes : List UInt8) : Option FrameHeader :=
  let field := Riff.big (bytes.take v.frameHeaderSize).toArray
  if bytes.length < v.frameHeaderSize ∨ bytes.head? = some 0 then none
  else
    match v with
    | .two => some ⟨nameOf? v (bytes.take 3), field 3 3, .ofFlags v 0⟩
    | .three => some ⟨nameOf? v (bytes.take 4), field 4 4, .ofFlags v (field 9 1)⟩
    | .four => some ⟨nameOf? v (bytes.take 4), sevenBits (field 4 4), .ofFlags v (field 9 1)⟩

/-- Bytes without the zeros that were put behind bytes of all ones, lest they look like sound. -/
def resync : List UInt8 → List UInt8
  | 0xFF :: 0 :: rest => 0xFF :: resync rest
  | b :: rest => b :: resync rest
  | [] => []

/-- What the body of a frame of a size says, packed as its header tells. Of an encrypted body
nothing is known. -/
def FrameHeader.content? (h : FrameHeader) (v : Version) (name : String) (body : List UInt8) :
    Option Content := do
  let p := h.packing
  guard (p.size < h.size ∧ p.size ≤ body.length)
  let body := body.drop p.size
  let body := if p.unsynced then resync body else body
  let body ← if p.compressed then Compression.inflate? body else some body
  if p.encrypted then
    guard p.sized
    return .other
  Content.read? v name body

/-- Whether a frame takes the place of an older one in a tag: a text of the same name, a text with
the same label, or the same picture again. -/
def Frame.replaces (new old : Frame) : Bool :=
  new.name = old.name &&
    match new.content, old.content with
    | .text _, .text _ => true
    | .labelled a _, .labelled b _ => a = b
    | .picture .., .picture .. => new.content = old.content
    | _, _ => false

/-- Puts a frame at the end, in place of an older one. -/
def put (fs : List Frame) (f : Frame) : List Frame :=
  fs.eraseP f.replaces ++ [f]

/-- Adds a frame that was read. One that says nothing does not take the place of one that does. -/
def add (fs : List Frame) (f : Frame) : List Frame :=
  match fs.find? f.replaces with
  | some old =>
    if f.content.isEmpty && !old.content.isEmpty then put (put fs f) old else put fs f
  | none => put fs f

/-- The frames from a place to the end of a tag, added to those in front. -/
def framesFrom? (v : Version) (bytes : List UInt8) (fs : List Frame) : Option (List Frame) :=
  match _header : FrameHeader.read? v bytes with
  | none => some fs
  | some h =>
    let body := bytes.drop v.frameHeaderSize
    let rest := body.drop h.size
    match h.name with
    | none => if body.length < h.size then none else framesFrom? v rest fs
    | some name =>
      if h.size = 0 then framesFrom? v rest fs
      else
        (h.content? v name (body.take h.size)).bind fun content =>
          framesFrom? v rest (add fs ⟨name, content⟩)
termination_by bytes.length
decreasing_by
  all_goals
    have := v.frameHeaderSize_pos
    have long : ¬ bytes.length < v.frameHeaderSize := fun short => by
      simp [FrameHeader.read?, short] at _header
    simp +zetaDelta only [List.length_drop]
    omega

end Jukebox.Library.Id3
