import Jukebox.Library.Id3.Encoded
import Jukebox.Library.Media
/-!
# What frames say

The body of a frame is read by the name of the frame. Of the frames that say nothing about a title,
only the form is checked, where it has one.
-/
namespace Jukebox.Library.Id3

open Text

inductive Version where
  | two | three | four
  deriving DecidableEq, Repr

inductive Content where
  | text (value : String)
  /-- A text under a label of its own. -/
  | labelled (label value : String)
  /-- A picture with its role and its description. -/
  | picture (encoding : Encoding) (role : UInt8) (label : String) (p : Picture)
  | other
  deriving DecidableEq, Repr

def Content.isEmpty : Content → Bool
  | .text value => value.isEmpty
  | .labelled _ value => value.isEmpty
  | _ => false

/-- The encoding that the first byte of a body names, and the bytes behind it. The oldest version
knows two encodings only. -/
def encodingOf? (v : Version) : List UInt8 → Option (Encoding × List UInt8)
  | [] => none
  | b :: rest =>
    (Encoding.ofByte? b).bind fun e =>
      if v = .two ∧ e ≠ .latin1 ∧ e ≠ .marked16 then none else some (e, rest)

def languageSize : Nat := 3

/-- A label and a text in encodings of their own. The order of bytes in the label holds for the text
too. -/
def labelled? (e value : Encoding) (bytes : List UInt8) : Option Content := do
  let (front, behind) ← e.cut? bytes
  return .labelled (← e.decode? none front) (← value.decode? (orderOf? front) behind)

/-- The name by which a MIME type is reported. -/
def mimeName? (mime : String) : Option String :=
  let lower := mime.map Char.toLower
  if lower.isEmpty then none
  else if lower = "image/jpeg" ∨ lower = "image/jpg" then some "image/jpeg"
  else if lower ∈ ["image/png", "image/tiff", "image/bmp", "image/gif"] then some lower
  else some mime

/-- The kind of a picture, and the bytes behind it. The oldest version names two file formats, the
later ones give a MIME type. -/
def pictureKind? (v : Version) (bytes : List UInt8) : Option (Option String × List UInt8) :=
  if v = .two then
    match ofLatin1 (bytes.take 3) with
    | "PNG" => some (some "image/png", bytes.drop 3)
    | "JPG" => some (some "image/jpeg", bytes.drop 3)
    | _ => none
  else (Encoding.latin1.take? bytes).map fun (mime, rest) => (mimeName? mime, rest)

def picture? (v : Version) (e : Encoding) (bytes : List UInt8) : Option Content := do
  let (mime, rest) ← pictureKind? v bytes
  let role :: rest := rest | none
  let (label, data) ← e.take? rest
  return .picture e role label ⟨data, mime⟩

/-- Whether bytes are settings of channels: for each one its number, two bytes of volume, and a peak
with its count of bits in front. -/
def areChannels : List UInt8 → Bool
  | [] => true
  | _ :: _ :: _ :: bits :: rest =>
    let size := (bits.toNat + 7) / 8
    size ≤ rest.length && areChannels (rest.drop size)
  | _ => false
termination_by bytes => bytes.length
decreasing_by
  simp only [List.length_drop, List.length_cons]
  omega

/-- Whether bytes are events: for each one its number and four bytes of time. -/
def areEvents : List UInt8 → Bool
  | [] => true
  | _ :: _ :: _ :: _ :: _ :: rest => areEvents rest
  | _ => false

/-- A purchase: a price, the eight bytes of a date, and a seller. -/
def purchase? (e : Encoding) (bytes : List UInt8) : Option Content := do
  let (_, rest) ← Encoding.latin1.take? bytes
  guard (8 ≤ rest.length)
  let _ ← Text.ofBytes? (rest.take 8)
  let _ ← e.decode? none (rest.drop 8)
  return .other

/-- Names of text frames that do not start like one. -/
def otherTexts : List String :=
  ["WFED", "GRP1", "MVNM", "MVIN"]

/-- What a body under a name says, if it is well formed. -/
def Content.read? (v : Version) (name : String) (body : List UInt8) : Option Content := do
  match name with
  | "APIC" =>
    let (e, rest) ← encodingOf? v body
    picture? v e rest
  | "TXXX" =>
    let (e, rest) ← encodingOf? v body
    labelled? e e rest
  | "WXXX" =>
    let (e, rest) ← encodingOf? v body
    labelled? e .latin1 rest
  | "COMM" | "USLT" =>
    let (e, rest) ← encodingOf? v body
    guard (languageSize ≤ rest.length)
    labelled? e e (rest.drop languageSize)
  | "TIPL" | "TMCL" =>
    let (e, rest) ← encodingOf? v body
    let (front, rest) ← e.cut? rest
    let _ ← e.decode? none front
    let (value, _) ← e.cut? rest
    let _ ← e.decode? (orderOf? front) value
    return .other
  | "UFID" | "PRIV" =>
    let _ ← Encoding.latin1.take? body
    return .other
  | "POPM" =>
    let (_, rest) ← Encoding.latin1.take? body
    guard (!rest.isEmpty)
    return .other
  | "RVA2" =>
    let (_, rest) ← Encoding.latin1.take? body
    guard (areChannels rest)
    return .other
  | "ETCO" =>
    let format :: rest := body | none
    guard ((format = 1 ∨ format = 2) ∧ areEvents rest)
    return .other
  | "OWNE" =>
    let (e, rest) ← encodingOf? v body
    purchase? e rest
  | _ =>
    if name.startsWith "T" ∨ name ∈ otherTexts then
      let (e, rest) ← encodingOf? v body
      return .text (← e.decode? none rest)
    else if name.startsWith "W" then
      let _ ← Encoding.latin1.take? body
      return .other
    else return .other

end Jukebox.Library.Id3
