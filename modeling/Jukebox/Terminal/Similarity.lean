/-!
# Similar words

How alike two words are, between none and one, by the measure of Jaro: the share of letters that
both have at nearly the same place, less those that stand in another order.
-/
namespace Jukebox.Terminal

/-- Marks the first letter equal to `c` that is not marked yet within a window of places. None if
there is no such letter. -/
def markFirst (c : Char) (low high : Nat) : Nat → List (Char × Bool) → Option (List (Char × Bool))
  | _, [] => none
  | i, (d, marked) :: rest =>
    if low ≤ i ∧ i ≤ high ∧ c = d ∧ ¬marked then some ((d, true) :: rest)
    else (markFirst c low high (i + 1) rest).map ((d, marked) :: ·)

/-- The letters of the first word that have a partner, and the second word with the partners
marked. -/
def pairUp (reach : Nat) : Nat → List Char → List (Char × Bool) → List Char × List (Char × Bool)
  | _, [], marks => ([], marks)
  | i, c :: rest, marks =>
    match markFirst c (i - reach) (i + reach) 0 marks with
    | none => pairUp reach (i + 1) rest marks
    | some marks =>
      let (paired, marks) := pairUp reach (i + 1) rest marks
      (c :: paired, marks)

def similarity (a b : String) : Float :=
  let m := a.length
  let n := b.length
  if m = 0 ∧ n = 0 then 1
  else
    let (paired, marks) := pairUp (max m n / 2 - 1) 0 a.toList (b.toList.map (·, false))
    let partners := (marks.filter (·.2)).map (·.1)
    let displaced := ((paired.zip partners).filter fun (c, d) => c ≠ d).length / 2
    let common := Float.ofNat paired.length
    if paired = [] then 0
    else
      (common / Float.ofNat m + common / Float.ofNat n +
        (common - Float.ofNat displaced) / common) / 3

/-- Similarity from which on a word is taken for a slip of the pen. -/
def closeEnough : Float := 0.7

/-- The word most like a given one, if any is close enough; of equals the last. -/
def closest? {α : Type} (word : String) (name : α → String) (candidates : List α) : Option α :=
  let scored := candidates.map fun c => (similarity word (name c), c)
  let best := scored.foldl (fun (best : Option (Float × α)) (s, c) =>
    if s > closeEnough ∧ best.all (fun b => s ≥ b.1) then some (s, c) else best) none
  best.map (·.2)

end Jukebox.Terminal
