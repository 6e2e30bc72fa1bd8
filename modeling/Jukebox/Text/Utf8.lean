/-!
# Reading UTF-8 leniently

File names are byte strings. Where one is shown as text, every maximal ill-formed prefix of a
sequence is shown as one replacement character, and well-formed text is shown as it is. The reader
is a two-state machine over the bytes: either between characters or inside a started sequence.
Strict reading is `String.fromUTF8?` of the core library.
-/
namespace Jukebox.Text

/-- The character that stands for bytes that are no UTF-8. -/
def replacement : Char := '\uFFFD'

/-- A started sequence: bytes still missing, the range the next one must lie in, and the code
collected so far. -/
structure Started where
  missing : Nat
  low : Nat
  high : Nat
  code : Nat
  deriving DecidableEq, Repr

/-- What the first byte of a sequence is good for: a whole character, the start of a longer
sequence, or nothing. The ranges exclude overlong forms, surrogates and codes past `U+10FFFF`. -/
inductive Lead where
  | whole (c : Char)
  | starts (s : Started)
  | invalid
  deriving DecidableEq, Repr

/-- Table of first bytes. -/
def lead (b : Nat) : Lead :=
  if b < 0x80 then .whole (Char.ofNat b)
  else if b < 0xC2 then .invalid
  else if b < 0xE0 then .starts ⟨1, 0x80, 0xBF, b - 0xC0⟩
  else if b = 0xE0 then .starts ⟨2, 0xA0, 0xBF, 0⟩
  else if b = 0xED then .starts ⟨2, 0x80, 0x9F, 0xD⟩
  else if b < 0xF0 then .starts ⟨2, 0x80, 0xBF, b - 0xE0⟩
  else if b = 0xF0 then .starts ⟨3, 0x90, 0xBF, 0⟩
  else if b < 0xF4 then .starts ⟨3, 0x80, 0xBF, b - 0xF0⟩
  else if b = 0xF4 then .starts ⟨3, 0x80, 0x8F, 4⟩
  else .invalid

/-- Characters that a byte met between two sequences gives at once, and the state after it. -/
def begin (b : Nat) : List Char × Option Started :=
  match lead b with
  | .whole c => ([c], none)
  | .starts s => ([], some s)
  | .invalid => ([replacement], none)

/-- One byte met in a state. A byte that cannot continue a started sequence ends it with a
replacement and is read again as a first byte. -/
def feed : Option Started → Nat → List Char × Option Started
  | none, b => begin b
  | some s, b =>
    if s.low ≤ b ∧ b ≤ s.high then
      let code := s.code * 64 + (b - 0x80)
      if s.missing ≤ 1 then ([Char.ofNat code], none)
      else ([], some ⟨s.missing - 1, 0x80, 0xBF, code⟩)
    else
      let (shown, next) := begin b
      (replacement :: shown, next)

/-- Characters of the rest of a text, from a state. -/
def decodeFrom : Option Started → List UInt8 → List Char
  | none, [] => []
  | some _, [] => [replacement]
  | state, b :: rest =>
    let (shown, next) := feed state b.toNat
    shown ++ decodeFrom next rest

/-- The text that a byte string is shown as. -/
def lossy (bytes : List UInt8) : String :=
  String.ofList (decodeFrom none bytes)

def bytesOf (s : String) : List UInt8 :=
  s.toUTF8.data.toList

/-- The text whose bytes these are, if they are well-formed. -/
def ofBytes? (bytes : List UInt8) : Option String :=
  String.fromUTF8? ⟨bytes.toArray⟩

end Jukebox.Text
