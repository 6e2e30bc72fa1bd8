/-!
# Paths of a URL as texts of segments

In a request target a `%` followed by two hexadecimal digits stands for one byte; every other byte
stands for itself, also a `%` that no two digits follow. Decoding is one pass, so a decoded `%`
starts nothing.

Slashes are trimmed from either end, and a text is cut into the segments between its slashes.
`joined` puts segments together again, so `segments` loses nothing.
-/
namespace Jukebox.Text.Percent

def hexValue? (b : UInt8) : Option UInt8 :=
  if 48 ≤ b ∧ b ≤ 57 then some (b - 48)
  else if 65 ≤ b ∧ b ≤ 70 then some (b - 55)
  else if 97 ≤ b ∧ b ≤ 102 then some (b - 87)
  else none

/-- The byte that `%` and these two bytes stand for. -/
def pair? (high low : UInt8) : Option UInt8 :=
  match hexValue? high, hexValue? low with
  | some h, some l => some (h * 16 + l)
  | _, _ => none

def decode : List UInt8 → List UInt8
  | 37 :: high :: low :: rest =>
    match pair? high low with
    | some b => b :: decode rest
    | none => 37 :: decode (high :: low :: rest)
  | b :: rest => b :: decode rest
  | [] => []

end Jukebox.Text.Percent

namespace Jukebox.Text

def trimLeft (cs : List Char) : List Char :=
  cs.dropWhile (· = '/')

def trimRight (cs : List Char) : List Char :=
  (cs.reverse.dropWhile (· = '/')).reverse

def trimBoth (cs : List Char) : List Char :=
  trimRight (trimLeft cs)

def trimSlashes (s : String) : String :=
  String.ofList (trimBoth s.toList)

/-- The text after `stem`, if it starts with it. -/
def dropStem? : List Char → List Char → Option (List Char)
  | [], cs => some cs
  | _ :: _, [] => none
  | p :: ps, c :: cs => if p = c then dropStem? ps cs else none

/-- The parts before and after the first slash; without a slash the second part is empty. -/
def cutFirst (cs : List Char) : List Char × List Char :=
  (cs.takeWhile (· ≠ '/'), (cs.dropWhile (· ≠ '/')).drop 1)

/-- The segments between slashes; a text without a slash is one segment. -/
def segments : List Char → List (List Char)
  | [] => [[]]
  | c :: cs =>
    if c = '/' then [] :: segments cs
    else
      match segments cs with
      | [] => [[c]]
      | s :: rest => (c :: s) :: rest

/-- Segments with one slash between neighbours. -/
def joined : List (List Char) → List Char
  | [] => []
  | [s] => s
  | s :: rest => s ++ '/' :: joined rest

end Jukebox.Text
