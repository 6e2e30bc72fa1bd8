/-!
# Blanks and numerals

Blanks are the characters that separate words without being seen.

A numeral is an optional `+` and one or more ASCII digits that denote a number below a bound.
Leading zeros are allowed; blanks, other signs and other digits are not.
-/
namespace Jukebox.Text

/-- Codes of the blanks: the property `White_Space` of Unicode. -/
def blanks : List Nat :=
  [0x09, 0x0A, 0x0B, 0x0C, 0x0D, 0x20, 0x85, 0xA0, 0x1680, 0x2000, 0x2001, 0x2002, 0x2003, 0x2004,
    0x2005, 0x2006, 0x2007, 0x2008, 0x2009, 0x200A, 0x2028, 0x2029, 0x202F, 0x205F, 0x3000]

def isBlank (c : Char) : Bool :=
  blanks.contains c.toNat

/-- A list without the elements at its end that are of a kind. -/
def dropEnd {α : Type} (p : α → Bool) (l : List α) : List α :=
  (l.reverse.dropWhile p).reverse

def trimBlanks (cs : List Char) : List Char :=
  dropEnd isBlank (cs.dropWhile isBlank)

def trimEndNuls (s : String) : String :=
  String.ofList (dropEnd (· = '\x00') s.toList)

def trimNuls (s : String) : String :=
  String.ofList (dropEnd (· = '\x00') (s.toList.dropWhile (· = '\x00')))

end Jukebox.Text

namespace Jukebox.Text.Numeral

def digit? (c : Char) : Option Nat :=
  if '0' ≤ c ∧ c ≤ '9' then some (c.toNat - 48) else none

/-- Value of a digit list read onto a number already seen; none at the first other character. -/
def digits? : Nat → List Char → Option Nat
  | n, [] => some n
  | n, c :: rest =>
    match digit? c with
    | some d => digits? (n * 10 + d) rest
    | none => none

def unsigned : List Char → List Char
  | '+' :: rest => rest
  | cs => cs

/-- The number that a numeral denotes, if it is one and below `bound`. -/
def parse? (bound : Nat) (s : String) : Option Nat :=
  match unsigned s.toList with
  | [] => none
  | cs =>
    match digits? 0 cs with
    | some n => if n < bound then some n else none
    | none => none

/-- Two to the 64: bound of the numbers that index playlists and count seconds. -/
def wordBound : Nat := 18446744073709551616

/-- Two to the 63: bound of the numbers that a signed word holds. -/
def signedBound : Nat := 9223372036854775808

/-- Two to the 32: bound of the numbers that half a word holds. -/
def halfBound : Nat := 4294967296

end Jukebox.Text.Numeral
