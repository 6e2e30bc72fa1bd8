import Jukebox.Text.Numeral
import Jukebox.Text.Utf16
import Jukebox.Text.Utf8
/-!
# Texts in ID3 frames

A text is in one of four encodings, which a byte in front names. In the middle of a frame a text
reaches up to a NUL, which has the width of the encoding; without it the frame is damaged. At the
end of a frame it takes what is left. NULs at the end of a text do not count.
-/
namespace Jukebox.Library.Id3

open Text

inductive Encoding where
  | latin1
  /-- UTF-16 with a mark of its order in front. -/
  | marked16
  /-- UTF-16 with the high byte first. -/
  | big16
  | utf8
  deriving DecidableEq, Repr

def Encoding.ofByte? (b : UInt8) : Option Encoding :=
  match b.toNat with
  | 0 => some .latin1
  | 1 => some .marked16
  | 2 => some .big16
  | 3 => some .utf8
  | _ => none

def ofLatin1 (bytes : List UInt8) : String :=
  String.ofList (bytes.map fun b => Char.ofNat b.toNat)

/-- The order that the mark in front of a text tells. -/
def orderOf? : List UInt8 → Option Utf16.Order
  | a :: b :: _ => Utf16.Order.ofMark? a b
  | _ => none

/-- The text of a run of bytes, if they are well formed. Where the order of bytes is not known
beforehand, a mark has to tell it. -/
def Encoding.decode? (e : Encoding) (known : Option Utf16.Order) (bytes : List UInt8) :
    Option String :=
  if bytes.isEmpty then some ""
  else
    let text := match e with
      | .latin1 => some (ofLatin1 bytes)
      | .utf8 => Text.ofBytes? bytes
      | .big16 => Utf16.ofBytes? .bigFirst bytes
      | .marked16 =>
        if bytes.length % 2 = 0 then
          (known <|> orderOf? bytes).bind fun order => Utf16.ofBytes? order bytes
        else none
    text.map trimEndNuls

def cut? : List UInt8 → Option (List UInt8 × List UInt8)
  | [] => none
  | b :: rest =>
    if b = 0 then some ([], rest)
    else (cut? rest).map fun (front, behind) => (b :: front, behind)

/-- The bytes in front of a NUL of two bytes, and those behind it. -/
def cutWide? : List UInt8 → Option (List UInt8 × List UInt8)
  | a :: b :: rest =>
    if a = 0 ∧ b = 0 then some ([], rest)
    else (cutWide? rest).map fun (front, behind) => (a :: b :: front, behind)
  | _ => none

/-- The bytes of a text in front of its NUL, and those behind it. -/
def Encoding.cut? (e : Encoding) : List UInt8 → Option (List UInt8 × List UInt8) :=
  match e with
  | .latin1 | .utf8 => Id3.cut?
  | .marked16 | .big16 => Id3.cutWide?

/-- The text in front of its NUL, and the bytes behind it. -/
def Encoding.take? (e : Encoding) (bytes : List UInt8) : Option (String × List UInt8) := do
  let (front, behind) ← e.cut? bytes
  return (← e.decode? none front, behind)

end Jukebox.Library.Id3
