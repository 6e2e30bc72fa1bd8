import Jukebox.Json.Value
import Jukebox.Text.Numeral
import Jukebox.Text.Utf8
/-!
# Reading JSON

`Value.parse?` reads one value with blanks around it and nothing else. Arrays and objects nest at
most `maxDepth` deep. An integer that fits in 64 bits stays exact, any other number is the double
that `Literal.number?` computes; a repeated key keeps its last value; escapes of lone surrogates,
raw control characters and overflowing numbers are refused.

A number that is not an integer is its significand, rounded to a double and then scaled by powers of
ten that are doubles themselves, one rounding per step. This can differ in the last place from
rounding the exact decimal. A result beyond the largest double is refused.

Every reader takes the text that is left and returns what it leaves. `fuel` is a bound on the steps
that the length of the text always covers.
-/
namespace Jukebox.Decimal

def greatestPower : Nat := 308

def power (k : Nat) : Float :=
  Float.ofScientific 1 false k

/-- `x · 10^e` by steps of at most `greatestPower`, or nothing on overflow. -/
def scale (x : Float) (e : Int) : Option Float :=
  if 0 ≤ e then
    if e ≤ greatestPower then
      let y := x * power e.toNat
      if y.isInf then none else some y
    else if x == 0.0 then some x
    else none
  else if -(greatestPower : Int) ≤ e then some (x / power (-e).toNat)
  else if x == 0.0 then some x
  else scale (x / power greatestPower) (e + greatestPower)
termination_by e.natAbs
decreasing_by
  simp only [greatestPower] at *
  omega

end Jukebox.Decimal

namespace Jukebox.Json

def maxDepth : Nat := 127

def isBlank (c : Char) : Bool :=
  c = ' ' ∨ c = '\n' ∨ c = '\t' ∨ c = '\r'

def skipBlanks (cs : List Char) : List Char :=
  cs.dropWhile isBlank

def hexValue? (c : Char) : Option Nat :=
  let n := c.toNat
  if 48 ≤ n ∧ n ≤ 57 then some (n - 48)
  else if 97 ≤ n ∧ n ≤ 102 then some (n - 87)
  else if 65 ≤ n ∧ n ≤ 70 then some (n - 55)
  else none

def readHex : List Char → Option (Nat × List Char)
  | a :: b :: c :: d :: rest => do
    let a ← hexValue? a
    let b ← hexValue? b
    let c ← hexValue? c
    let d ← hexValue? d
    some (a * 4096 + b * 256 + c * 16 + d, rest)
  | _ => none

def isHighSurrogate (n : Nat) : Bool := 0xD800 ≤ n ∧ n < 0xDC00

def isLowSurrogate (n : Nat) : Bool := 0xDC00 ≤ n ∧ n < 0xE000

/-- The character after the `u` of an escape; a pair of surrogates takes two escapes. -/
def readUnicode (cs : List Char) : Option (Char × List Char) :=
  match readHex cs with
  | none => none
  | some (n, rest) =>
    if isHighSurrogate n then
      match rest with
      | '\\' :: 'u' :: more =>
        match readHex more with
        | some (m, rest) =>
          if isLowSurrogate m then
            some (Char.ofNat (0x10000 + (n - 0xD800) * 1024 + (m - 0xDC00)), rest)
          else none
        | none => none
      | _ => none
    else if isLowSurrogate n then none
    else some (Char.ofNat n, rest)

def readEscape : List Char → Option (Char × List Char)
  | '"' :: rest => some ('"', rest)
  | '\\' :: rest => some ('\\', rest)
  | '/' :: rest => some ('/', rest)
  | 'b' :: rest => some ('\x08', rest)
  | 'f' :: rest => some ('\x0c', rest)
  | 'n' :: rest => some ('\n', rest)
  | 'r' :: rest => some ('\r', rest)
  | 't' :: rest => some ('\t', rest)
  | 'u' :: rest => readUnicode rest
  | _ => none

/-- The rest of a quoted text up to its closing quote, after the characters read so far, which are
kept in reverse. -/
def readQuoted : Nat → List Char → List Char → Option (String × List Char)
  | 0, _, _ => none
  | _, _, [] => none
  | fuel + 1, seen, c :: rest =>
    if c = '"' then some (String.ofList seen.reverse, rest)
    else if c = '\\' then
      match readEscape rest with
      | some (e, rest) => readQuoted fuel (e :: seen) rest
      | none => none
    else if c.toNat < 32 then none
    else readQuoted fuel (c :: seen) rest

structure Literal where
  negative : Bool
  whole : List Nat
  fraction : Option (List Nat)
  exponent : Option Int
  deriving DecidableEq, Repr

def readDigits : List Char → List Nat × List Char
  | [] => ([], [])
  | c :: rest =>
    match Text.Numeral.digit? c with
    | some d =>
      let (ds, rest) := readDigits rest
      (d :: ds, rest)
    | none => ([], c :: rest)

def ofDigits (ds : List Nat) : Nat :=
  ds.foldl (fun n d => n * 10 + d) 0

def readExponent : List Char → Option (Option Int × List Char)
  | c :: rest =>
    if c = 'e' ∨ c = 'E' then
      let (negative, rest) :=
        match rest with
        | '+' :: more => (false, more)
        | '-' :: more => (true, more)
        | more => (false, more)
      match readDigits rest with
      | ([], _) => none
      | (ds, rest) => some (some (if negative then -(ofDigits ds : Int) else ofDigits ds), rest)
    else some (none, c :: rest)
  | [] => some (none, [])

def readTail (negative : Bool) (whole : List Nat) (cs : List Char) :
    Option (Literal × List Char) :=
  match cs with
  | '.' :: rest =>
    match readDigits rest with
    | ([], _) => none
    | (ds, rest) =>
      (readExponent rest).map fun (e, rest) => (⟨negative, whole, some ds, e⟩, rest)
  | _ => (readExponent cs).map fun (e, rest) => (⟨negative, whole, none, e⟩, rest)

/-- A number as it is written. A whole part of several digits does not start with zero. -/
def readLiteral (cs : List Char) : Option (Literal × List Char) :=
  let (negative, cs) :=
    match cs with
    | '-' :: rest => (true, rest)
    | rest => (false, rest)
  match readDigits cs with
  | ([], _) => none
  | (0 :: _ :: _, _) => none
  | (ds, rest) => readTail negative ds rest

/-- Reads digits onto a significand while it is at most the greatest integer. The second part is the
number of digits taken. -/
def absorb : Nat → List Nat → Nat × Nat
  | n, [] => (n, 0)
  | n, d :: rest =>
    if (n * 10 + d : Nat) ≤ greatestInteger then
      let (m, k) := absorb (n * 10 + d) rest
      (m, k + 1)
    else (n, 0)

/-- The value of a written number. Digits of the whole part that do not fit the significand count
as powers of ten, digits of the fraction that do not fit are dropped. -/
def Literal.number? (l : Literal) : Option Number :=
  let (whole, taken) := absorb 0 l.whole
  let sign (x : Float) : Float := if l.negative then -x else x
  match l.fraction, l.exponent, decide (taken = l.whole.length) with
  | none, none, true =>
    if ¬l.negative then some (.integer whole)
    else if 0 < whole ∧ leastInteger ≤ -(whole : Int) then some (.integer (-(whole : Int)))
    else some (.real (-(Float.ofNat whole)))
  | fraction, exponent, _ =>
    let (significand, places) := absorb whole (fraction.getD [])
    let e := (l.whole.length - taken : Nat) - (places : Int) + exponent.getD 0
    (Decimal.scale (Float.ofNat significand) e).map fun x => .real (sign x)

def readNumber (cs : List Char) : Option (Value × List Char) :=
  match readLiteral cs with
  | some (l, rest) => l.number?.map fun n => (.number n, rest)
  | none => none

def readWord (word : List Char) (v : Value) (cs : List Char) : Option (Value × List Char) :=
  (dropWord word cs).map fun rest => (v, rest)
where
  dropWord : List Char → List Char → Option (List Char)
    | [], cs => some cs
    | _ :: _, [] => none
    | w :: ws, c :: cs => if w = c then dropWord ws cs else none

mutual
/-- One value after blanks, inside at most `depth` further levels. -/
def readValue : Nat → Nat → List Char → Option (Value × List Char)
  | 0, _, _ => none
  | fuel + 1, depth, cs =>
    match skipBlanks cs with
    | '\x7b' :: rest =>
      match depth with
      | 0 => none
      | depth + 1 =>
        match skipBlanks rest with
        | '\x7d' :: rest => some (.object [], rest)
        | rest => (readMembers fuel depth [] rest).map fun (ms, rest) => (.object ms, rest)
    | '[' :: rest =>
      match depth with
      | 0 => none
      | depth + 1 =>
        match skipBlanks rest with
        | ']' :: rest => some (.array [], rest)
        | rest => (readItems fuel depth [] rest).map fun (vs, rest) => (.array vs, rest)
    | '"' :: rest => (readQuoted (rest.length + 1) [] rest).map fun (s, rest) => (.string s, rest)
    | 't' :: rest => readWord ['r', 'u', 'e'] (.bool true) rest
    | 'f' :: rest => readWord ['a', 'l', 's', 'e'] (.bool false) rest
    | 'n' :: rest => readWord ['u', 'l', 'l'] .null rest
    | rest => readNumber rest

/-- Items up to the closing bracket, after those read so far, which are kept in reverse. -/
def readItems : Nat → Nat → List Value → List Char → Option (List Value × List Char)
  | 0, _, _, _ => none
  | fuel + 1, depth, seen, cs =>
    match readValue fuel depth cs with
    | none => none
    | some (v, rest) =>
      match skipBlanks rest with
      | ',' :: rest => readItems fuel depth (v :: seen) rest
      | ']' :: rest => some ((v :: seen).reverse, rest)
      | _ => none

/-- Members up to the closing brace, added to those read so far. -/
def readMembers : Nat → Nat → Members → List Char → Option (Members × List Char)
  | 0, _, _, _ => none
  | fuel + 1, depth, seen, cs =>
    match skipBlanks cs with
    | '"' :: rest =>
      match readQuoted (rest.length + 1) [] rest with
      | none => none
      | some (k, rest) =>
        match skipBlanks rest with
        | ':' :: rest =>
          match readValue fuel depth rest with
          | none => none
          | some (v, rest) =>
            match skipBlanks rest with
            | ',' :: rest => readMembers fuel depth (Members.set k v seen) rest
            | '\x7d' :: rest => some (Members.set k v seen, rest)
            | _ => none
        | _ => none
    | _ => none
end

/-- Steps that are enough for a text of this length. -/
def stepsFor (cs : List Char) : Nat :=
  2 * cs.length + 2

def parseChars? (cs : List Char) : Option Value :=
  match readValue (stepsFor cs) maxDepth cs with
  | some (v, rest) => if (skipBlanks rest).isEmpty then some v else none
  | none => none

def Value.parse? (s : String) : Option Value :=
  parseChars? s.toList

/-- The value of a byte string, which has to be UTF-8. -/
def Value.parseBytes? (bytes : List UInt8) : Option Value :=
  match Text.ofBytes? bytes with
  | some s => Value.parse? s
  | none => none

end Jukebox.Json
