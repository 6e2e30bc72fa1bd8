/-!
# Canonical prefix codes

A code gives each symbol a string of bits, none the start of another. Canonical codes are fixed by
the lengths of the strings alone: shorter ones come first, equally long ones in the order of their
symbols, each one higher than the one before.
-/
namespace Jukebox.Compression

/-- A canonical prefix code: how many strings there are of each length from one bit on, and the
symbols in the order of their strings. -/
structure PrefixCode where
  counts : List Nat
  symbols : Array Nat
  deriving DecidableEq, Repr

namespace PrefixCode

/-- Bits of the longest string. -/
def longest : Nat := 15

def symbolsOfLength (lengths : List Nat) (length : Nat) : List Nat :=
  (lengths.zipIdx.filter (·.1 = length)).map (·.2)

/-- The code with these lengths, symbol by symbol. A symbol of length zero has no string. -/
def ofLengths (lengths : List Nat) : PrefixCode :=
  let byLength := (List.range longest).map fun i => symbolsOfLength lengths (i + 1)
  ⟨byLength.map List.length, byLength.flatten.toArray⟩

/-- The strings of all the longest length that a code of these counts covers, one count for each
length up to that of a number of strings. -/
def covered (strings : Nat) : List Nat → Nat
  | [] => 0
  | count :: rest => count * (strings / 2) + covered (strings / 2) rest

/-- Whether a code covers all strings, each once. A code of one string need not. -/
def isComplete (c : PrefixCode) : Bool :=
  covered 32768 c.counts = 32768 || c.symbols.size ≤ 1

/-- The symbol in front of a list of bits, and the bits behind it. The string so far, as a number,
lies so many places behind the first one of its length; so many symbols have shorter strings. -/
def next? (c : PrefixCode) : List Nat → Nat → Nat → List Bool → Option (Option Nat × List Bool)
  | [], _, _, bits => some (none, bits)
  | _ :: _, _, _, [] => none
  | count :: counts, place, shorter, bit :: bits =>
    let place := place * 2 + bit.toNat
    if place < count then some (c.symbols[shorter + place]?, bits)
    else c.next? counts (place - count) (shorter + count) bits

end PrefixCode

end Jukebox.Compression
