import Jukebox.Decimal.Layout
import Jukebox.Json.Value
import Jukebox.Text.Printable
/-!
# Writing JSON

Two layouts: `Value.compact` without blanks, for responses, and `Value.pretty` with one member or
item a line and two blanks per level, for the configuration file. Both escape only what JSON
requires: the quote, the backslash and control characters, the latter by their short name or as
four lowercase hexadecimal digits.

`Value.describe` names the kind of every value. It is for people who look into the daemon, not for
clients.
-/
namespace Jukebox.Json

/-- Doubles are positional from `0.00001` up to sixteen whole digits, and an exponent always
carries its sign. -/
def realLayout : Decimal.Layout :=
  ⟨-5, 15, 'e', true, "null"⟩

def Number.text : Number → List Char
  | .integer n => if n < 0 then '-' :: Nat.toDigits 10 n.natAbs else Nat.toDigits 10 n.natAbs
  | .real x => realLayout.text x

def hexDigit (n : Nat) : Char :=
  if n < 10 then Char.ofNat (48 + n) else Char.ofNat (87 + n)

def escaped (c : Char) : List Char :=
  if c = '"' then ['\\', '"']
  else if c = '\\' then ['\\', '\\']
  else if c = '\x08' then ['\\', 'b']
  else if c = '\t' then ['\\', 't']
  else if c = '\n' then ['\\', 'n']
  else if c = '\x0c' then ['\\', 'f']
  else if c = '\r' then ['\\', 'r']
  else if c.toNat < 32 then
    ['\\', 'u', '0', '0', hexDigit (c.toNat / 16), hexDigit (c.toNat % 16)]
  else [c]

def quoted (s : String) : List Char :=
  '"' :: s.toList.flatMap escaped ++ ['"']

mutual
def Value.compact : Value → List Char
  | .null => "null".toList
  | .bool true => "true".toList
  | .bool false => "false".toList
  | .number n => n.text
  | .string s => quoted s
  | .array items => '[' :: compactItems items ++ [']']
  | .object members => '\x7b' :: compactMembers members ++ ['\x7d']

def compactItems : List Value → List Char
  | [] => []
  | v :: rest =>
    v.compact ++ match rest with
      | [] => []
      | _ :: _ => ',' :: compactItems rest

def compactMembers : List (String × Value) → List Char
  | [] => []
  | (k, v) :: rest =>
    quoted k ++ ':' :: v.compact ++ match rest with
      | [] => []
      | _ :: _ => ',' :: compactMembers rest
end

/-- A line break and the blanks of a level. -/
def newline (level : Nat) : List Char :=
  '\n' :: List.replicate (2 * level) ' '

mutual
/-- Text of a value at a level of nesting. An empty array or object takes no line of its own. -/
def Value.prettyAt (level : Nat) : Value → List Char
  | .array [] => ['[', ']']
  | .array (v :: rest) =>
    '[' :: prettyItems (level + 1) (v :: rest) ++ newline level ++ [']']
  | .object [] => ['\x7b', '\x7d']
  | .object (m :: rest) =>
    '\x7b' :: prettyMembers (level + 1) (m :: rest) ++ newline level ++ ['\x7d']
  | .null => "null".toList
  | .bool true => "true".toList
  | .bool false => "false".toList
  | .number n => n.text
  | .string s => quoted s

def prettyItems (level : Nat) : List Value → List Char
  | [] => []
  | v :: rest =>
    newline level ++ v.prettyAt level ++ match rest with
      | [] => []
      | _ :: _ => ',' :: prettyItems level rest

def prettyMembers (level : Nat) : List (String × Value) → List Char
  | [] => []
  | (k, v) :: rest =>
    newline level ++ quoted k ++ ':' :: ' ' :: v.prettyAt level ++ match rest with
      | [] => []
      | _ :: _ => ',' :: prettyMembers level rest
end

def Value.toText (v : Value) : String :=
  String.ofList v.compact

def Value.toPretty (v : Value) : String :=
  String.ofList (v.prettyAt 0)

open Text (literal)

mutual
def Value.describe : Value → String
  | .null => "Null"
  | .bool true => "Bool(true)"
  | .bool false => "Bool(false)"
  | .number n => "Number(" ++ String.ofList n.text ++ ")"
  | .string s => "String(" ++ literal s ++ ")"
  | .array items => "Array [" ++ ", ".intercalate (describeItems items) ++ "]"
  | .object members => "Object \x7b" ++ ", ".intercalate (describeMembers members) ++ "\x7d"

def describeItems : List Value → List String
  | [] => []
  | v :: rest => v.describe :: describeItems rest

def describeMembers : List (String × Value) → List String
  | [] => []
  | (k, v) :: rest => (literal k ++ ": " ++ v.describe) :: describeMembers rest
end

end Jukebox.Json
