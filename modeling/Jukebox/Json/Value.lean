/-!
# JSON documents

A document is one `Value`. An object lists its members in increasing order of their keys, each key
once; `Members.set` and `Members.erase` keep that, and `Value.Sound` says it for a whole value
together with the range of its integers. Keys are compared character by character, which is the
order of their UTF-8 bytes.
-/
namespace Jukebox.Json

/-- Integers are exact; every other number is a double. -/
inductive Number where
  | integer (n : Int)
  | real (x : Float)

inductive Value where
  | null
  | bool (b : Bool)
  | number (n : Number)
  | string (s : String)
  | array (items : List Value)
  | object (members : List (String × Value))

instance : Inhabited Value := ⟨.null⟩

abbrev Members := List (String × Value)

def Members.find? (key : String) : Members → Option Value
  | [] => none
  | (k, v) :: rest => if k = key then some v else find? key rest

/-- Members with one key set; a value it had is replaced. -/
def Members.set (key : String) (value : Value) : Members → Members
  | [] => [(key, value)]
  | (k, v) :: rest =>
    if key < k then (key, value) :: (k, v) :: rest
    else if key = k then (key, value) :: rest
    else (k, v) :: set key value rest

def Members.erase (key : String) : Members → Members
  | [] => []
  | (k, v) :: rest => if k = key then rest else (k, v) :: erase key rest

/-- Members with one key set, or removed when there is no value for it. -/
def Members.put (key : String) : Option Value → Members → Members
  | some value => Members.set key value
  | none => Members.erase key

/-- Members collected from a list of pairs; the last value of a key counts. -/
def Members.ofList (pairs : List (String × Value)) : Members :=
  pairs.foldl (fun ms p => Members.set p.1 p.2 ms) []

/-- The object with these members, given in any order. -/
def Value.ofList (pairs : List (String × Value)) : Value :=
  .object (Members.ofList pairs)

def Value.nat (n : Nat) : Value :=
  .number (.integer n)

def Value.string? : Option String → Value
  | some s => .string s
  | none => .null

def Value.member? (key : String) : Value → Option Value
  | .object members => Members.find? key members
  | _ => none

def Value.items : Value → List Value
  | .array items => items
  | _ => []

def Value.text? : Value → Option String
  | .string s => some s
  | _ => none

def Value.integer? : Value → Option Int
  | .number (.integer n) => some n
  | _ => none

def Value.natural? (v : Value) : Option Nat :=
  v.integer?.bind Int.toNat?

/-- Least integer that is kept exactly: the least signed number of 64 bits. -/
def leastInteger : Int := -9223372036854775808

/-- Greatest integer that is kept exactly: the greatest unsigned number of 64 bits. -/
def greatestInteger : Int := 18446744073709551615

/-- Integers are kept exactly between these two. -/
def Number.InRange : Number → Prop
  | .integer n => leastInteger ≤ n ∧ n ≤ greatestInteger
  | .real _ => True

/-- Keys are in increasing order. -/
def Members.Sorted (ms : Members) : Prop :=
  ms.Pairwise fun a b => a.1 < b.1

mutual
/-- Every object in the value is sorted and every integer in range. -/
def Value.Sound : Value → Prop
  | .number n => n.InRange
  | .array items => Value.AllSound items
  | .object members => Members.Sorted members ∧ Value.MembersSound members
  | _ => True

def Value.AllSound : List Value → Prop
  | [] => True
  | v :: rest => v.Sound ∧ Value.AllSound rest

def Value.MembersSound : List (String × Value) → Prop
  | [] => True
  | (_, v) :: rest => v.Sound ∧ Value.MembersSound rest
end

mutual
/-- Number of arrays and objects around the innermost value, the outermost one counted. -/
def Value.depth : Value → Nat
  | .array items => Value.deepest items + 1
  | .object members => Value.deepestMember members + 1
  | _ => 0

def Value.deepest : List Value → Nat
  | [] => 0
  | v :: rest => max v.depth (Value.deepest rest)

def Value.deepestMember : List (String × Value) → Nat
  | [] => 0
  | (_, v) :: rest => max v.depth (Value.deepestMember rest)
end

end Jukebox.Json
