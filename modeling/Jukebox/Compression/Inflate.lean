import Jukebox.Compression.Prefix
/-!
# Inflating

Data in the deflate format come in blocks. A block holds bytes as they are, or symbols of two prefix
codes: bytes, and copies of what was put out before. The codes are fixed or stand in front of the
block. Around the blocks there are a header and a checksum.

Inflating stops at damaged data. Data that end too early give what came before.
-/
namespace Jukebox.Compression

inductive Stop where
  | exhausted | damaged
  deriving DecidableEq, Repr

structure Inflater where
  bits : List Bool
  out : Array UInt8

/-- A step of inflating. What is put out stays, also where it stops. -/
abbrev Inflating (α : Type) := ExceptT Stop (StateM Inflater) α

namespace Inflater

/-- The bits of bytes, the lowest one of each byte first. -/
def bitsOf (bytes : List UInt8) : List Bool :=
  bytes.flatMap fun b => (List.range 8).map fun i => b.toNat.testBit i

def bit : Inflating Bool := do
  let s ← get
  match s.bits with
  | [] => throw .exhausted
  | b :: bits =>
    set { s with bits }
    return b

/-- Reads a number of so many bits, the lowest one first. -/
def number : Nat → Inflating Nat
  | 0 => return 0
  | count + 1 => do
    let low ← bit
    return low.toNat + 2 * (← number count)

def symbol (c : PrefixCode) : Inflating Nat := do
  let s ← get
  match c.next? c.counts 0 0 s.bits with
  | none => throw .exhausted
  | some (none, _) => throw .damaged
  | some (some value, bits) =>
    set { s with bits }
    return value

def put (b : UInt8) : Inflating Unit :=
  modify fun s => { s with out := s.out.push b }

def align : Inflating Unit :=
  modify fun s => { s with bits := s.bits.drop (s.bits.length % 8) }

/-- Puts out a copy of so many bytes that were put out some distance ago. -/
def copy (distance : Nat) : Nat → Inflating Unit
  | 0 => return ()
  | length + 1 => do
    let s ← get
    put (s.out[s.out.size - distance]?.getD 0)
    copy distance length

/-- Bases and extra bits of the lengths of copies, from symbol 257 on. -/
def lengths : Array (Nat × Nat) :=
  #[(3, 0), (4, 0), (5, 0), (6, 0), (7, 0), (8, 0), (9, 0), (10, 0), (11, 1), (13, 1), (15, 1),
    (17, 1), (19, 2), (23, 2), (27, 2), (31, 2), (35, 3), (43, 3), (51, 3), (59, 3), (67, 4),
    (83, 4), (99, 4), (115, 4), (131, 5), (163, 5), (195, 5), (227, 5), (258, 0)]

def distances : Array (Nat × Nat) :=
  #[(1, 0), (2, 0), (3, 0), (4, 0), (5, 1), (7, 1), (9, 2), (13, 2), (17, 3), (25, 3), (33, 4),
    (49, 4), (65, 5), (97, 5), (129, 6), (193, 6), (257, 7), (385, 7), (513, 8), (769, 8),
    (1025, 9), (1537, 9), (2049, 10), (3073, 10), (4097, 11), (6145, 11), (8193, 12), (12289, 12),
    (16385, 13), (24577, 13)]

/-- Reads the extra bits of an entry of a table. -/
def extended (table : Array (Nat × Nat)) (i : Nat) : Inflating Nat := do
  let some (base, extra) := table[i]? | throw .damaged
  return base + (← number extra)

def endOfBlock : Nat := 256

/-- Reads the symbols of a block, no more than a count. Each takes a bit at least. -/
def symbols (literals far : PrefixCode) : Nat → Inflating Unit
  | 0 => throw .exhausted
  | fuel + 1 => do
    let value ← symbol literals
    if value = endOfBlock then return ()
    if value < endOfBlock then put (UInt8.ofNat value)
    else
      let length ← extended lengths (value - endOfBlock - 1)
      let distance ← extended distances (← symbol far)
      if (← get).out.size < distance then throw .damaged
      copy distance length
    symbols literals far fuel

/-- Lengths of the strings of the fixed code of bytes and lengths. -/
def fixedLiterals : List Nat :=
  List.replicate 144 8 ++ List.replicate 112 9 ++ List.replicate 24 7 ++ List.replicate 8 8

def fixedDistances : List Nat :=
  List.replicate 30 5

/-- The order in which the lengths of the code of lengths come. -/
def lengthOrder : List Nat :=
  [16, 17, 18, 0, 8, 7, 9, 6, 10, 5, 11, 4, 12, 3, 13, 2, 14, 1, 15]

/-- Reads lengths until there are so many. Three of the symbols repeat a length. -/
def readLengths (c : PrefixCode) (wanted : Nat) : Nat → List Nat → Inflating (List Nat)
  | 0, _ => throw .exhausted
  | fuel + 1, known => do
    if wanted < known.length then throw .damaged
    if known.length = wanted then return known
    let value ← symbol c
    let more ← match value with
      | 16 =>
        let some last := known.getLast? | throw .damaged
        pure (List.replicate (3 + (← number 2)) last)
      | 17 => pure (List.replicate (3 + (← number 3)) 0)
      | 18 => pure (List.replicate (11 + (← number 7)) 0)
      | length => pure [length]
    readLengths c wanted fuel (known ++ more)

def code (lengths : List Nat) : Inflating PrefixCode := do
  let c := PrefixCode.ofLengths lengths
  unless c.isComplete do throw .damaged
  return c

def codes : Inflating (PrefixCode × PrefixCode) := do
  let literals := 257 + (← number 5)
  let far := 1 + (← number 5)
  let given := 4 + (← number 4)
  let short ← (lengthOrder.take given).mapM fun i => do return (i, ← number 3)
  let c ← code ((List.range 19).map fun i => (short.lookup i).getD 0)
  let all ← readLengths c (literals + far) (literals + far + 1) []
  return (← code (all.take literals), ← code (all.drop literals))

/-- Reads a block of bytes as they are. Their count stands in front twice, once inverted. -/
def stored : Inflating Unit := do
  align
  let count ← number 16
  let inverted ← number 16
  if count + inverted ≠ 0xFFFF then throw .damaged
  for _ in List.range count do
    put (UInt8.ofNat (← number 8))

/-- Reads blocks up to the last one, no more than a count. Each takes a bit at least. -/
def blocks : Nat → Inflating Unit
  | 0 => throw .exhausted
  | fuel + 1 => do
    let last ← number 1
    match ← number 2 with
    | 0 => stored
    | 1 =>
      symbols (.ofLengths fixedLiterals) (.ofLengths fixedDistances) ((← get).bits.length + 1)
    | 2 =>
      let (literals, far) ← codes
      symbols literals far ((← get).bits.length + 1)
    | _ => throw .damaged
    if last = 0 then blocks fuel

/-- Checksum of bytes: their sum, and the sum of those sums, both from one on and modulo a prime. -/
def checksum (bytes : Array UInt8) : Nat :=
  let (low, high) := bytes.foldl (fun (low, high) b =>
    let low := (low + b.toNat) % 65521
    (low, (high + low) % 65521)) (1, 0)
  high * 65536 + low

/-- Reads a number of four bytes, the highest one first. -/
def word : Inflating Nat := do
  let bytes ← (List.range 4).mapM fun _ => number 8
  return bytes.foldl (fun n b => n * 256 + b) 0

def stream : Inflating Unit := do
  let method ← number 8
  let flags ← number 8
  if (method * 256 + flags) % 31 ≠ 0 ∨ method % 16 ≠ 8 ∨ 8 ≤ method / 16 ∨ flags.testBit 5 then
    throw .damaged
  blocks ((← get).bits.length + 1)
  align
  if (← word) ≠ checksum (← get).out then throw .damaged

end Inflater

/-- The bytes that were deflated, or as many as the data go. -/
def inflate? (bytes : List UInt8) : Option (List UInt8) :=
  match Inflater.stream.run ⟨Inflater.bitsOf bytes, #[]⟩ with
  | (.error .damaged, _) => none
  | (_, s) => some s.out.toList

end Jukebox.Compression
