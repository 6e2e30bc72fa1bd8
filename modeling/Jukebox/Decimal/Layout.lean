import Jukebox.Decimal.Shortest
/-!
# Writing doubles

How the shortest digits of a double are laid out is one record. Digits whose first one has an
exponent inside a window are written positionally, with at least one digit on either side of the
point; all others with an exponent mark.
-/
namespace Jukebox.Decimal

structure Layout where
  /-- Least exponent of the first digit that is written positionally. -/
  lowest : Int
  /-- Greatest exponent of the first digit that is written positionally. -/
  highest : Int
  /-- Stands before an exponent. -/
  mark : Char
  /-- A positive exponent has a sign, too. -/
  plus : Bool
  /-- Text of a value that is no number. -/
  undefined : String
  deriving DecidableEq, Repr

def Layout.exponentText (l : Layout) (e : Int) : List Char :=
  let sign := if e < 0 then ['-'] else if l.plus then ['+'] else []
  l.mark :: sign ++ (Nat.toDigits 10 e.natAbs)

/-- Text of digits whose first one has the exponent `e`. -/
def Layout.digitsText (l : Layout) (ds : List Char) (e : Int) : List Char :=
  if l.lowest ≤ e ∧ e ≤ l.highest then
    if e < 0 then '0' :: '.' :: List.replicate ((-e).toNat - 1) '0' ++ ds
    else
      let whole := e.toNat + 1
      let padded := ds ++ List.replicate (whole - ds.length) '0'
      let rest := padded.drop whole
      padded.take whole ++ '.' :: (if rest.isEmpty then ['0'] else rest)
  else
    match ds with
    | [] => []
    | [d] => d :: l.exponentText e
    | d :: rest => d :: '.' :: rest ++ l.exponentText e

/-- Text of a double. Zero keeps its sign. -/
def Layout.text (l : Layout) (x : Float) : List Char :=
  let bits := x.toBits
  if exponentField bits = 2047 then l.undefined.toList
  else
    let sign := if isNegative bits then ['-'] else []
    let b := Binary.ofBits bits
    if b.mantissa = 0 then sign ++ l.digitsText ['0'] 0
    else
      let d := b.shortest
      let ds := Nat.toDigits 10 d.digits
      sign ++ l.digitsText ds (d.exponent + ds.length - 1)

end Jukebox.Decimal
