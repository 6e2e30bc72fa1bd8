/-!
# Reading UTF-16

Text in units of 16 bits, in either order of bytes. A mark that tells the order of bytes is no part
of the text, wherever it stands. Characters outside the basic plane take two units, a high surrogate
and a low one; a surrogate without its partner spoils the text.
-/
namespace Jukebox.Text.Utf16

inductive Order where
  | bigFirst | littleFirst
  deriving DecidableEq, Repr

def Order.ofMark? (a b : UInt8) : Option Order :=
  if a = 0xFE ∧ b = 0xFF then some .bigFirst
  else if a = 0xFF ∧ b = 0xFE then some .littleFirst
  else none

def Order.unit (o : Order) (a b : UInt8) : Nat :=
  match o with
  | .bigFirst => a.toNat * 256 + b.toNat
  | .littleFirst => b.toNat * 256 + a.toNat

/-- The units of a run of bytes, without marks. An odd byte at the end is left out. -/
def units (o : Order) : List UInt8 → List Nat
  | a :: b :: rest =>
    if (Order.ofMark? a b).isSome then units o rest else o.unit a b :: units o rest
  | _ => []

def isHigh (u : Nat) : Bool :=
  0xD800 ≤ u && u < 0xDC00

def isLow (u : Nat) : Bool :=
  0xDC00 ≤ u && u < 0xE000

def pair (high low : Nat) : Char :=
  Char.ofNat (0x10000 + (high - 0xD800) * 0x400 + (low - 0xDC00))

/-- The characters that units stand for, if they are well formed. -/
def ofUnits? : List Nat → Option (List Char)
  | [] => some []
  | [u] => if isHigh u || isLow u then none else some [Char.ofNat u]
  | u :: v :: rest =>
    if isHigh u then
      if isLow v then (ofUnits? rest).map (pair u v :: ·) else none
    else if isLow u then none
    else (ofUnits? (v :: rest)).map (Char.ofNat u :: ·)

def ofBytes? (o : Order) (bytes : List UInt8) : Option String :=
  (ofUnits? (units o bytes)).map String.ofList

end Jukebox.Text.Utf16
