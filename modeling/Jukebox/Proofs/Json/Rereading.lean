import Mathlib.Data.List.DropRight
import Mathlib.Tactic
import Jukebox.Proofs.Json.Members
import Jukebox.Proofs.Json.Numerals
import Jukebox.Proofs.Text.Numerals
/-!
# Reading what was printed

A printed value is read back wherever it stands in a document: texts always, integers of 64 bits
always, any other number if it comes back by itself, and arrays and objects if what they hold comes
back and they nest no deeper than the reader goes.

A number has no closing character, so where it ends depends on what follows it; `Delimited` says
that a number does not go on there. In a printed document a comma, a line break or nothing at all
follows a value.
-/
namespace Jukebox.Json

open Text.Numeral (digit? digit?_digitChar)

/-- No number in front of this text goes on with it. -/
def Delimited (cs : List Char) : Prop :=
  ∀ c ∈ cs.head?, digit? c = none ∧ c ≠ '.' ∧ c ≠ 'e' ∧ c ≠ 'E'

/-- A number that is read as it was printed. -/
def Number.Rereads (n : Number) : Prop :=
  readNumber n.text = some (.number n, [])

mutual
/-- Values whose numbers come back and whose objects are in order. -/
def Value.Rereads : Value → Prop
  | .number n => n.Rereads
  | .array items => Value.AllReread items
  | .object members => Members.Sorted members ∧ Value.MembersReread members
  | _ => True

def Value.AllReread : List Value → Prop
  | [] => True
  | v :: rest => v.Rereads ∧ Value.AllReread rest

def Value.MembersReread : List (String × Value) → Prop
  | [] => True
  | (_, v) :: rest => v.Rereads ∧ Value.MembersReread rest
end

/-- A value that comes back as a member of a document, which is a level of its own. -/
def Value.ComesBack (v : Value) : Prop :=
  v.Rereads ∧ v.depth < maxDepth

section Numbers

variable {cs rest left : List Char}

theorem readDigits_append (delimited : Delimited rest) (cs : List Char) :
    readDigits (cs ++ rest) = ((readDigits cs).1, (readDigits cs).2 ++ rest) := by
  induction cs with
  | nil =>
    cases rest with
    | nil => rfl
    | cons c more => simp [readDigits, (delimited c rfl).1]
  | cons c more ih =>
    rw [List.cons_append, readDigits, readDigits]
    cases digit? c with
    | none => rfl
    | some d => simp [ih]

/-- The sign that an exponent may have, and what follows it. -/
def exponentSign : List Char → Bool × List Char
  | '+' :: more => (false, more)
  | '-' :: more => (true, more)
  | more => (false, more)

theorem exponentSign_append (filled : cs ≠ []) (rest : List Char) :
    exponentSign (cs ++ rest) = ((exponentSign cs).1, (exponentSign cs).2 ++ rest) := by
  cases cs with
  | nil => exact absurd rfl filled
  | cons c more =>
    by_cases plus : c = '+'
    · rw [plus]
      rfl
    by_cases minus : c = '-'
    · rw [minus]
      rfl
    simp [exponentSign, plus, minus]

theorem readExponent_cons (c : Char) (cs : List Char) :
    readExponent (c :: cs) =
      if c = 'e' ∨ c = 'E' then
        match readDigits (exponentSign cs).2 with
        | ([], _) => none
        | (ds, rest) =>
          some (some (if (exponentSign cs).1 then -(ofDigits ds : Int) else ofDigits ds), rest)
      else some (none, c :: cs) := by
  rfl

/-- An exponent has digits, so what follows does not take part in it. -/
theorem readExponent_append (delimited : Delimited rest) {e : Option Int}
    (read : readExponent cs = some (e, left)) :
    readExponent (cs ++ rest) = some (e, left ++ rest) := by
  cases cs with
  | nil =>
    -- no exponent was read, and none begins with what follows
    cases read
    cases rest with
    | nil => rfl
    | cons c more =>
      obtain ⟨-, -, lower, upper⟩ := delimited c rfl
      simp [readExponent_cons, lower, upper]
  | cons c more =>
    rw [readExponent_cons] at read
    rw [List.cons_append, readExponent_cons]
    by_cases mark : c = 'e' ∨ c = 'E'
    · rw [if_pos mark] at read ⊢
      have filled : more ≠ [] := by
        rintro rfl
        simp [exponentSign, readDigits] at read
      rw [exponentSign_append filled, readDigits_append delimited]
      rcases digits : readDigits (exponentSign more).2 with ⟨_ | ⟨d, ds⟩, after⟩
      · simp [digits] at read
      · simp only [digits] at read
        cases read
        rfl
    · rw [if_neg mark] at read ⊢
      cases read
      rfl

theorem readTail_of_no_point (negative : Bool) (whole : List Nat)
    (no_point : ∀ c ∈ cs.head?, c ≠ '.') :
    readTail negative whole cs =
      (readExponent cs).map fun (e, rest) => (⟨negative, whole, none, e⟩, rest) := by
  cases cs with
  | nil => rfl
  | cons c more =>
    have other : c ≠ '.' := no_point c rfl
    simp [readTail, other]

theorem readTail_append (delimited : Delimited rest) {negative : Bool} {whole : List Nat}
    {l : Literal} (read : readTail negative whole cs = some (l, left)) :
    readTail negative whole (cs ++ rest) = some (l, left ++ rest) := by
  by_cases no_point : ∀ c ∈ cs.head?, c ≠ '.'
  · have no_point' : ∀ c ∈ (cs ++ rest).head?, c ≠ '.' := by
      cases cs with
      | nil => exact fun c first => (delimited c first).2.1
      | cons c more => exact no_point
    rw [readTail_of_no_point _ _ no_point] at read
    obtain ⟨⟨e, left'⟩, exponent, same⟩ := Option.map_eq_some_iff.mp read
    cases same
    rw [readTail_of_no_point _ _ no_point', readExponent_append delimited exponent]
    rfl
  · obtain ⟨more, rfl⟩ : ∃ more, cs = '.' :: more := by
      cases cs with
      | nil => exact absurd (fun c first => nomatch first) no_point
      | cons c more => exact ⟨more, by simpa using no_point⟩
    rw [readTail] at read
    rw [List.cons_append, readTail, readDigits_append delimited]
    rcases digits : readDigits more with ⟨_ | ⟨d, ds⟩, after⟩
    · simp [digits] at read
    · simp only [digits] at read
      obtain ⟨⟨e, left'⟩, exponent, same⟩ := Option.map_eq_some_iff.mp read
      cases same
      simp [readExponent_append delimited exponent]

/-- The sign that a number may have, and what follows it. -/
def numberSign : List Char → Bool × List Char
  | '-' :: rest => (true, rest)
  | rest => (false, rest)

theorem readLiteral_eq (cs : List Char) :
    readLiteral cs =
      match readDigits (numberSign cs).2 with
      | ([], _) => none
      | (0 :: _ :: _, _) => none
      | (ds, rest) => readTail (numberSign cs).1 ds rest := by
  rfl

theorem readLiteral_append (delimited : Delimited rest) {l : Literal}
    (read : readLiteral cs = some (l, left)) :
    readLiteral (cs ++ rest) = some (l, left ++ rest) := by
  have signed : numberSign (cs ++ rest) = ((numberSign cs).1, (numberSign cs).2 ++ rest) := by
    cases cs with
    | nil => cases read
    | cons c more =>
      by_cases minus : c = '-'
      · rw [minus]
        rfl
      · simp [numberSign, minus]
  rw [readLiteral_eq] at read
  rw [readLiteral_eq, signed, readDigits_append delimited]
  rcases digits : readDigits (numberSign cs).2 with ⟨_ | ⟨d, _ | ⟨d', ds⟩⟩, after⟩
  · simp [digits] at read
  · simp only [digits] at read ⊢
    exact readTail_append delimited read
  · cases d with
    | zero => simp [digits] at read
    | succ n =>
      simp only [digits] at read ⊢
      exact readTail_append delimited read

theorem readNumber_append (delimited : Delimited rest) {v : Value}
    (read : readNumber cs = some (v, left)) : readNumber (cs ++ rest) = some (v, left ++ rest) := by
  rw [readNumber] at read
  cases literal : readLiteral cs with
  | none => rw [literal] at read; cases read
  | some found =>
    obtain ⟨l, left'⟩ := found
    rw [literal] at read
    obtain ⟨n, means, same⟩ := Option.map_eq_some_iff.mp read
    cases same
    rw [readNumber, readLiteral_append delimited literal]
    simp [means]

theorem skipBlanks_solid {c : Char} (solid : isBlank c = false) (cs : List Char) :
    skipBlanks (c :: cs) = c :: cs := by
  simp [skipBlanks, solid]

/-- Nothing else starts as a number does. -/
theorem readValue_numeric {c : Char} (first : InNumber c) (fuel depth : Nat) (cs : List Char) :
    readValue (fuel + 1) depth (c :: cs) = readNumber (c :: cs) := by
  have apart {x : Char} := first.ne (x := x)
  rw [readValue, skipBlanks_solid first.solid]
  -- one case for each character that another value starts with
  split
  · exact absurd (List.cons.inj ‹_›).1 (apart (by decide))
  · exact absurd (List.cons.inj ‹_›).1 (apart (by decide))
  · exact absurd (List.cons.inj ‹_›).1 (apart (by decide))
  · exact absurd (List.cons.inj ‹_›).1 (apart (by decide))
  · exact absurd (List.cons.inj ‹_›).1 (apart (by decide))
  · exact absurd (List.cons.inj ‹_›).1 (apart (by decide))
  · rfl

end Numbers

section Integers

/-- The digits of a number, the first one first. -/
def decimals (n : Nat) : List Nat :=
  (Nat.toDigits 10 n).filterMap digit?

theorem readDigits_of_digits {cs : List Char} (digits : ∀ c ∈ cs, (digit? c).isSome) :
    readDigits cs = (cs.filterMap digit?, []) := by
  induction cs with
  | nil => rfl
  | cons c more ih =>
    obtain ⟨d, here⟩ := Option.isSome_iff_exists.mp (digits c List.mem_cons_self)
    simp [readDigits, here, ih fun c' there => digits c' (List.mem_cons_of_mem c there)]

theorem readDigits_toDigits (n : Nat) : readDigits (Nat.toDigits 10 n) = (decimals n, []) :=
  readDigits_of_digits fun _ there =>
    digit?_isSome (Nat.isDigit_of_mem_toDigits (by decide) (by decide) there)

theorem decimals_eq (n : Nat) :
    decimals n = if n < 10 then [n] else decimals (n / 10) ++ [n % 10] := by
  rw [decimals, Nat.toDigits_eq_if (by decide)]
  split
  · rename_i small
    simp [digit?_digitChar small]
  · simp [decimals, digit?_digitChar (Nat.mod_lt n (by decide : 0 < 10))]

theorem decimals_ne_nil (n : Nat) : decimals n ≠ [] := by
  rw [decimals_eq]
  split <;> simp

/-- Only zero starts with a zero. -/
theorem zero_of_decimals {n : Nat} {ds : List Nat} (leading : decimals n = 0 :: ds) : n = 0 := by
  induction n using Nat.strongRecOn generalizing ds with
  | ind n ih =>
    rw [decimals_eq] at leading
    split at leading
    · exact (List.cons.inj leading).1
    · cases front : decimals (n / 10) with
      | nil => exact absurd front (decimals_ne_nil _)
      | cons d more =>
        rw [front] at leading
        obtain ⟨rfl, -⟩ := List.cons.inj leading
        have zero : n / 10 = 0 := ih (n / 10) (by omega) front
        omega

theorem absorb_append {n m d : Nat} {ds : List Nat} (all : absorb n ds = (m, ds.length))
    (fits : ((m * 10 + d : Nat) : Int) ≤ greatestInteger) :
    absorb n (ds ++ [d]) = (m * 10 + d, ds.length + 1) := by
  induction ds generalizing n with
  | nil =>
    cases all
    rw [List.nil_append, absorb, if_pos fits]
    rfl
  | cons first more ih =>
    rw [absorb] at all
    rw [List.cons_append, absorb]
    split at all
    · rename_i small
      have rest : absorb (n * 10 + first) more = (m, more.length) := by
        simpa [Prod.ext_iff] using all
      rw [if_pos small, ih rest]
      rfl
    · simp at all

/-- The digits of a number that fits are all taken, and denote it. -/
theorem absorb_decimals {n : Nat} (fits : (n : Int) ≤ greatestInteger) :
    absorb 0 (decimals n) = (n, (decimals n).length) := by
  induction n using Nat.strongRecOn with
  | ind n ih =>
    rw [decimals_eq]
    split
    · simp [absorb, fits]
    · have whole : n / 10 * 10 + n % 10 = n := Nat.div_add_mod' n 10
      have front := ih (n / 10) (by omega) (by omega)
      rw [absorb_append front (by rw [whole]; exact fits), whole]
      simp

/-- The digits of a number behind its sign. -/
theorem readLiteral_of_digits {cs : List Char} {n : Nat}
    (digits : (numberSign cs).2 = Nat.toDigits 10 n) :
    readLiteral cs = some (⟨(numberSign cs).1, decimals n, none, none⟩, []) := by
  rw [readLiteral_eq, digits, readDigits_toDigits]
  rcases read : decimals n with _ | ⟨_ | d, _ | ⟨d', ds⟩⟩
  · exact absurd read (decimals_ne_nil n)
  · rfl
  · rw [zero_of_decimals read] at read
    cases read
  · rfl
  · rfl

theorem numberSign_toDigits (n : Nat) :
    numberSign (Nat.toDigits 10 n) = (false, Nat.toDigits 10 n) := by
  cases digits : Nat.toDigits 10 n with
  | nil => exact absurd digits Nat.toDigits_ne_nil
  | cons c more =>
    have digit : c.isDigit = true :=
      Nat.isDigit_of_mem_toDigits (by decide) (by decide) (digits ▸ List.mem_cons_self)
    have other : c ≠ '-' := by
      rintro rfl
      cases digit
    simp [numberSign, other]

/-- An integer of 64 bits comes back. -/
theorem Number.rereads_integer {n : Int} (range : (Number.integer n).InRange) :
    (Number.integer n).Rereads := by
  obtain ⟨least, greatest⟩ := range
  rw [Rereads, readNumber]
  cases n with
  | ofNat m =>
    have digits : (Number.integer (Int.ofNat m)).text = Nat.toDigits 10 m := rfl
    have sign := numberSign_toDigits m
    rw [digits, readLiteral_of_digits (congrArg Prod.snd sign), sign]
    simp [Literal.number?, absorb_decimals greatest]
  | negSucc m =>
    obtain ⟨k, whole⟩ : ∃ k, k = m + 1 := ⟨m + 1, rfl⟩
    have digits : (Number.integer (Int.negSucc m)).text = '-' :: Nat.toDigits 10 k := by
      rw [text, if_pos (Int.negSucc_lt_zero m), Int.natAbs_negSucc, whole]
    have fits : (k : Int) ≤ greatestInteger := by
      unfold leastInteger at least
      unfold greatestInteger
      omega
    have value : -(k : Int) = Int.negSucc m := by omega
    have positive : 0 < k := by omega
    rw [digits, readLiteral_of_digits (n := k) rfl]
    simp [Literal.number?, absorb_decimals fits, numberSign, value, positive, least]

end Integers

section Texts

variable {rest : List Char}

theorem hexValue?_hexDigit {n : Nat} (small : n < 16) : hexValue? (hexDigit n) = some n := by
  interval_cases n <;> rfl

/-- A character that stands for itself inside quotes, or the escape that stands for it. -/
theorem escaped_cases (c : Char) :
    (escaped c = [c] ∧ c ≠ '"' ∧ c ≠ '\\' ∧ ¬c.toNat < 32) ∨
      ∃ cs, escaped c = '\\' :: cs ∧ ∀ rest, readEscape (cs ++ rest) = some (c, rest) := by
  unfold escaped
  split
  · exact Or.inr ⟨_, rfl, fun rest => by subst c; rfl⟩
  split
  · exact Or.inr ⟨_, rfl, fun rest => by subst c; rfl⟩
  split
  · exact Or.inr ⟨_, rfl, fun rest => by subst c; rfl⟩
  split
  · exact Or.inr ⟨_, rfl, fun rest => by subst c; rfl⟩
  split
  · exact Or.inr ⟨_, rfl, fun rest => by subst c; rfl⟩
  split
  · exact Or.inr ⟨_, rfl, fun rest => by subst c; rfl⟩
  split
  · exact Or.inr ⟨_, rfl, fun rest => by subst c; rfl⟩
  split
  · rename_i control
    refine Or.inr ⟨_, rfl, fun rest => ?_⟩
    have high := hexValue?_hexDigit (show c.toNat / 16 < 16 by omega)
    have low := hexValue?_hexDigit (Nat.mod_lt c.toNat (by decide : 0 < 16))
    have code : c.toNat / 16 * 16 + c.toNat % 16 = c.toNat := Nat.div_add_mod' c.toNat 16
    have read : readHex (['0', '0', hexDigit (c.toNat / 16), hexDigit (c.toNat % 16)] ++ rest) =
        some (c.toNat, rest) := by
      have zero : hexValue? '0' = some 0 := rfl
      simp [readHex, zero, high, low, code]
    have no_high : isHighSurrogate c.toNat = false := by
      simp [isHighSurrogate]
      omega
    have no_low : isLowSurrogate c.toNat = false := by
      simp [isLowSurrogate]
      omega
    rw [List.cons_append, readEscape, readUnicode, read]
    simp [no_high, no_low, Char.ofNat_toNat]
  · exact Or.inl ⟨rfl, ‹_›, ‹_›, ‹_›⟩

/-- A text in quotes is read up to its closing quote, whatever characters it has. -/
theorem readQuoted_escaped (cs : List Char) {fuel : Nat} (seen rest : List Char)
    (enough : (cs.flatMap escaped).length < fuel) :
    readQuoted fuel seen (cs.flatMap escaped ++ '"' :: rest) =
      some (String.ofList (seen.reverse ++ cs), rest) := by
  induction cs generalizing fuel seen with
  | nil =>
    obtain ⟨fuel, rfl⟩ : ∃ n, fuel = n + 1 := Nat.exists_eq_succ_of_ne_zero (by omega)
    simp [readQuoted]
  | cons c more ih =>
    obtain ⟨fuel, rfl⟩ : ∃ n, fuel = n + 1 := Nat.exists_eq_succ_of_ne_zero (by omega)
    have later (enough : (more.flatMap escaped).length < fuel) :
        readQuoted fuel (c :: seen) (more.flatMap escaped ++ '"' :: rest) =
          some (String.ofList (seen.reverse ++ c :: more), rest) := by
      rw [ih (c :: seen) enough]
      simp
    rcases escaped_cases c with ⟨plain, no_quote, no_escape, no_control⟩ | ⟨cs, escape, read⟩
    · simp only [List.flatMap_cons, plain, List.cons_append, List.nil_append,
        List.length_cons] at enough ⊢
      rw [readQuoted, if_neg no_quote, if_neg no_escape, if_neg no_control]
      exact later (by omega)
    · simp only [List.flatMap_cons, escape, List.cons_append, List.length_cons,
        List.length_append, List.append_assoc] at enough ⊢
      rw [readQuoted, if_neg (by decide), if_pos rfl, read]
      exact later (by omega)

/-- What the reader of quoted texts is given behind an opening quote. -/
theorem readQuoted_quoted (s : String) (rest : List Char) :
    ∃ inner, quoted s ++ rest = '"' :: inner ∧
      readQuoted (inner.length + 1) [] inner = some (s, rest) := by
  refine ⟨s.toList.flatMap escaped ++ '"' :: rest, by simp [quoted], ?_⟩
  rw [readQuoted_escaped _ _ _ (by simp)]
  simp

end Texts

section Values

theorem skipBlanks_newline (level : Nat) (cs : List Char) :
    skipBlanks (newline level ++ cs) = skipBlanks cs := by
  refine List.dropWhile_append_of_pos fun c there => ?_
  rcases List.mem_cons.mp there with rfl | later
  · rfl
  · rw [List.eq_of_mem_replicate later]
    rfl

theorem skipBlanks_space (cs : List Char) : skipBlanks (' ' :: cs) = skipBlanks cs := rfl

theorem readValue_skip {cs cs' : List Char} (same : skipBlanks cs = skipBlanks cs')
    (fuel depth : Nat) : readValue fuel depth cs = readValue fuel depth cs' := by
  cases fuel with
  | zero => rw [readValue, readValue]
  | succ fuel => rw [readValue, readValue, same]

theorem readItems_skip {cs cs' : List Char} (same : skipBlanks cs = skipBlanks cs')
    (fuel depth : Nat) (seen : List Value) :
    readItems fuel depth seen cs = readItems fuel depth seen cs' := by
  cases fuel with
  | zero => rw [readItems, readItems]
  | succ fuel => rw [readItems, readItems, readValue_skip same]

theorem readMembers_skip {cs cs' : List Char} (same : skipBlanks cs = skipBlanks cs')
    (fuel depth : Nat) (seen : Members) :
    readMembers fuel depth seen cs = readMembers fuel depth seen cs' := by
  cases fuel with
  | zero => rw [readMembers, readMembers]
  | succ fuel => rw [readMembers, readMembers, same]

theorem skipBlanks_idem (cs : List Char) : skipBlanks (skipBlanks cs) = skipBlanks cs :=
  List.dropWhile_idempotent isBlank cs

/-- An array that does not end at once is read item by item. -/
theorem readValue_array {cs : List Char} (filled : (skipBlanks cs).head? ≠ some ']')
    (fuel depth : Nat) :
    readValue (fuel + 1) (depth + 1) ('[' :: cs) =
      (readItems fuel depth [] cs).map fun (vs, rest) => (.array vs, rest) := by
  rw [readValue, skipBlanks_solid rfl]
  simp only
  split
  · rename_i ends
    rw [ends] at filled
    exact absurd rfl filled
  · rw [readItems_skip (skipBlanks_idem cs)]

/-- An object that does not end at once is read member by member. -/
theorem readValue_object {cs : List Char} (filled : (skipBlanks cs).head? ≠ some '\x7d')
    (fuel depth : Nat) :
    readValue (fuel + 1) (depth + 1) ('\x7b' :: cs) =
      (readMembers fuel depth [] cs).map fun (ms, rest) => (.object ms, rest) := by
  rw [readValue, skipBlanks_solid rfl]
  simp only
  split
  · rename_i ends
    rw [ends] at filled
    exact absurd rfl filled
  · rw [readMembers_skip (skipBlanks_idem cs)]

/-- A printed value starts with a character of its own, which does not close an array. -/
theorem prettyAt_first (v : Value) (level : Nat) :
    ∃ c more, v.prettyAt level = c :: more ∧ isBlank c = false ∧ c ≠ ']' := by
  cases v with
  | number n =>
    rcases n.text_cases with undefined | ⟨filled, inside⟩
    · exact ⟨_, _, undefined, rfl, by decide⟩
    · obtain ⟨c, more, text⟩ := List.exists_cons_of_ne_nil filled
      have first := inside c (text ▸ List.mem_cons_self)
      exact ⟨c, more, text, first.solid, first.ne (by decide)⟩
  | null => exact ⟨_, _, rfl, rfl, by decide⟩
  | bool b => cases b <;> exact ⟨_, _, rfl, rfl, by decide⟩
  | string s => exact ⟨_, _, rfl, rfl, by decide⟩
  | array items => cases items <;> exact ⟨_, _, rfl, rfl, by decide⟩
  | object members => cases members <;> exact ⟨_, _, rfl, rfl, by decide⟩

/-- So a reader that has as many steps as the text has characters takes one. -/
theorem first_step {v : Value} {level fuel : Nat}
    (enough : (v.prettyAt level).length ≤ fuel) : ∃ n, fuel = n + 1 := by
  obtain ⟨c, more, text, -, -⟩ := prettyAt_first v level
  rw [text, List.length_cons] at enough
  exact Nat.exists_eq_succ_of_ne_zero (by omega)

/-- A printed member begins with its key; behind the last one comes what follows all of them. -/
theorem prettyMembers_last (level : Nat) (k : String) (v : Value) (rest : List Char) :
    prettyMembers level [(k, v)] ++ rest =
      newline level ++ (quoted k ++ ':' :: ' ' :: (v.prettyAt level ++ rest)) := by
  simp [prettyMembers]

theorem prettyMembers_next (level : Nat) (k : String) (v : Value) (m : String × Value)
    (members : Members) (rest : List Char) :
    prettyMembers level ((k, v) :: m :: members) ++ rest =
      newline level ++ (quoted k ++ ':' :: ' ' :: (v.prettyAt level ++
        ',' :: (prettyMembers level (m :: members) ++ rest))) := by
  simp [prettyMembers]

theorem prettyAt_array (level : Nat) (item : Value) (items : List Value) (rest : List Char) :
    (Value.array (item :: items)).prettyAt level ++ rest =
      '[' :: (prettyItems (level + 1) (item :: items) ++ (newline level ++ ']' :: rest)) := by
  simp [Value.prettyAt]

theorem prettyAt_object (level : Nat) (m : String × Value) (members : Members)
    (rest : List Char) :
    (Value.object (m :: members)).prettyAt level ++ rest =
      '\x7b' :: (prettyMembers (level + 1) (m :: members) ++ (newline level ++ '\x7d' :: rest)) := by
  simp [Value.prettyAt]

/-- A printed array that has items is read item by item. -/
theorem readValue_items (fuel depth level : Nat) (item : Value) (items : List Value)
    (rest : List Char) :
    readValue (fuel + 1) (depth + 1) ((Value.array (item :: items)).prettyAt level ++ rest) =
      (readItems fuel depth [] (prettyItems (level + 1) (item :: items) ++
        (newline level ++ ']' :: rest))).map fun (vs, rest) => (.array vs, rest) := by
  obtain ⟨c, more, text, solid, filled⟩ := prettyAt_first item (level + 1)
  rw [prettyAt_array, readValue_array]
  simp [prettyItems, skipBlanks_newline, text, skipBlanks_solid solid, filled]

/-- A printed object that has members is read member by member. -/
theorem readValue_members (fuel depth level : Nat) (m : String × Value) (members : Members)
    (rest : List Char) :
    readValue (fuel + 1) (depth + 1) ((Value.object (m :: members)).prettyAt level ++ rest) =
      (readMembers fuel depth [] (prettyMembers (level + 1) (m :: members) ++
        (newline level ++ '\x7d' :: rest))).map fun (ms, rest) => (.object ms, rest) := by
  rw [prettyAt_object, readValue_object]
  simp [prettyMembers, skipBlanks_newline, quoted, skipBlanks_solid (c := '"') rfl]

/-- What follows a printed item or member. -/
theorem delimited_comma (cs : List Char) : Delimited (',' :: cs) := by
  intro c first
  cases first
  decide

theorem delimited_newline (level : Nat) (cs : List Char) : Delimited (newline level ++ cs) := by
  intro c first
  cases first
  decide

/-- The last item, when a bracket follows it. -/
theorem readItems_last {fuel depth : Nat} {seen : List Value} {v : Value}
    {cs after rest : List Char} (read : readValue fuel depth cs = some (v, after))
    (closes : skipBlanks after = ']' :: rest) :
    readItems (fuel + 1) depth seen cs = some (seen.reverse ++ [v], rest) := by
  rw [readItems, read]
  simp [closes]

theorem readItems_next {fuel depth : Nat} {seen : List Value} {v : Value}
    {cs after rest : List Char} (read : readValue fuel depth cs = some (v, after))
    (goes_on : skipBlanks after = ',' :: rest) :
    readItems (fuel + 1) depth seen cs = readItems fuel depth (v :: seen) rest := by
  rw [readItems, read]
  simp [goes_on]

/-- A member with blanks before its key, when a brace follows it. -/
theorem readMembers_last {fuel depth level : Nat} {seen : Members} {k : String} {v : Value}
    {cs after rest : List Char} (read : readValue fuel depth cs = some (v, after))
    (closes : skipBlanks after = '\x7d' :: rest) :
    readMembers (fuel + 1) depth seen (newline level ++ (quoted k ++ ':' :: ' ' :: cs)) =
      some (Members.set k v seen, rest) := by
  obtain ⟨inner, text, key⟩ := readQuoted_quoted k (':' :: ' ' :: cs)
  have read' : readValue fuel depth (' ' :: cs) = some (v, after) :=
    (readValue_skip (skipBlanks_space cs) fuel depth).trans read
  rw [readMembers, skipBlanks_newline, text, skipBlanks_solid rfl]
  simp [key, skipBlanks_solid (c := ':') rfl, read', closes]

theorem readMembers_next {fuel depth level : Nat} {seen : Members} {k : String} {v : Value}
    {cs after rest : List Char} (read : readValue fuel depth cs = some (v, after))
    (goes_on : skipBlanks after = ',' :: rest) :
    readMembers (fuel + 1) depth seen (newline level ++ (quoted k ++ ':' :: ' ' :: cs)) =
      readMembers fuel depth (Members.set k v seen) rest := by
  obtain ⟨inner, text, key⟩ := readQuoted_quoted k (':' :: ' ' :: cs)
  have read' : readValue fuel depth (' ' :: cs) = some (v, after) :=
    (readValue_skip (skipBlanks_space cs) fuel depth).trans read
  rw [readMembers, skipBlanks_newline, text, skipBlanks_solid rfl]
  simp [key, skipBlanks_solid (c := ':') rfl, read', goes_on]

/-- A value is read back wherever it was printed, if it comes back at all and there are levels and
steps enough. -/
def Value.ReadsBack (v : Value) : Prop :=
  ∀ {level fuel depth : Nat} {rest : List Char}, v.Rereads → v.depth ≤ depth →
    (v.prettyAt level).length ≤ fuel → Delimited rest →
    readValue fuel depth (v.prettyAt level ++ rest) = some (v, rest)

/-- Each item takes a step of its own. -/
theorem steps_of_items {item : Value} {items : List Value} {level fuel : Nat}
    (enough : (prettyItems level (item :: items)).length ≤ fuel) :
    ∃ n, fuel = n + 1 ∧ (item.prettyAt level).length ≤ n ∧
      (prettyItems level items).length ≤ n := by
  obtain ⟨n, rfl⟩ : ∃ n, fuel = n + 1 :=
    Nat.exists_eq_succ_of_ne_zero (by simp [prettyItems, newline] at enough; omega)
  refine ⟨n, rfl, ?_⟩
  cases items <;> simp [prettyItems, newline] at enough ⊢ <;> omega

theorem steps_of_members {k : String} {v : Value} {members : Members} {level fuel : Nat}
    (enough : (prettyMembers level ((k, v) :: members)).length ≤ fuel) :
    ∃ n, fuel = n + 1 ∧ (v.prettyAt level).length ≤ n ∧
      (prettyMembers level members).length ≤ n := by
  obtain ⟨n, rfl⟩ : ∃ n, fuel = n + 1 :=
    Nat.exists_eq_succ_of_ne_zero (by simp [prettyMembers, newline] at enough; omega)
  refine ⟨n, rfl, ?_⟩
  cases members <;> simp [prettyMembers, newline] at enough ⊢ <;> omega

/-- Items are read up to the bracket behind them. -/
theorem readItems_pretty {item : Value} {items : List Value} {level fuel depth outer : Nat}
    {rest : List Char} (seen : List Value) (each : ∀ v ∈ item :: items, v.ReadsBack)
    (rereads : Value.AllReread (item :: items)) (fits : Value.deepest (item :: items) ≤ depth)
    (enough : (prettyItems level (item :: items)).length ≤ fuel) :
    readItems fuel depth seen
        (prettyItems level (item :: items) ++ (newline outer ++ ']' :: rest)) =
      some (seen.reverse ++ item :: items, rest) := by
  induction items generalizing item fuel seen with
  | nil =>
    obtain ⟨fuel, rfl, short, -⟩ := steps_of_items enough
    have read := each item List.mem_cons_self rereads.1 (max_le_iff.mp fits).1 short
      (delimited_newline outer (']' :: rest))
    rw [← readValue_skip (skipBlanks_newline level _)] at read
    rw [prettyItems, List.append_nil, List.append_assoc]
    exact readItems_last read ((skipBlanks_newline outer _).trans (skipBlanks_solid rfl rest))
  | cons next later ih =>
    obtain ⟨fuel, rfl, short, short_later⟩ := steps_of_items enough
    have read := each item List.mem_cons_self rereads.1 (max_le_iff.mp fits).1 short
      (delimited_comma (prettyItems level (next :: later) ++ (newline outer ++ ']' :: rest)))
    rw [← readValue_skip (skipBlanks_newline level _)] at read
    rw [prettyItems, List.append_assoc, List.append_assoc, List.cons_append,
      readItems_next read (skipBlanks_solid rfl _),
      ih (item :: seen) (fun v there => each v (List.mem_cons_of_mem item there)) rereads.2
        (max_le_iff.mp fits).2 short_later]
    simp

/-- Members are read up to the brace behind them and put behind those read before. -/
theorem readMembers_pretty {k : String} {v : Value} {members : Members}
    {level fuel depth outer : Nat} {rest : List Char} (seen : Members)
    (each : ∀ m ∈ (k, v) :: members, m.2.ReadsBack)
    (sorted : Members.Sorted (seen ++ (k, v) :: members))
    (rereads : Value.MembersReread ((k, v) :: members))
    (fits : Value.deepestMember ((k, v) :: members) ≤ depth)
    (enough : (prettyMembers level ((k, v) :: members)).length ≤ fuel) :
    readMembers fuel depth seen
        (prettyMembers level ((k, v) :: members) ++ (newline outer ++ '\x7d' :: rest)) =
      some (seen ++ (k, v) :: members, rest) := by
  induction members generalizing k v fuel seen with
  | nil =>
    obtain ⟨fuel, rfl, short, -⟩ := steps_of_members enough
    have read := each (k, v) List.mem_cons_self rereads.1 (max_le_iff.mp fits).1 short
      (delimited_newline outer ('\x7d' :: rest))
    rw [prettyMembers_last, readMembers_last read
      ((skipBlanks_newline outer _).trans (skipBlanks_solid rfl rest)), sorted.set_next]
  | cons next later ih =>
    obtain ⟨k', v'⟩ := next
    obtain ⟨fuel, rfl, short, short_later⟩ := steps_of_members enough
    have read := each (k, v) List.mem_cons_self rereads.1 (max_le_iff.mp fits).1 short
      (delimited_comma (prettyMembers level ((k', v') :: later) ++
        (newline outer ++ '\x7d' :: rest)))
    rw [prettyMembers_next, readMembers_next read (skipBlanks_solid rfl _), sorted.set_next,
      ih (seen ++ [(k, v)]) (fun m there => each m (List.mem_cons_of_mem _ there))
        (by simpa using sorted) rereads.2 (max_le_iff.mp fits).2 short_later]
    simp

theorem array_readsBack {items : List Value} (each : ∀ v ∈ items, v.ReadsBack) :
    (Value.array items).ReadsBack := by
  intro level fuel depth rest rereads fits enough _
  obtain ⟨depth, rfl⟩ : ∃ n, depth = n + 1 :=
    Nat.exists_eq_succ_of_ne_zero (by simp [Value.depth] at fits; omega)
  obtain ⟨fuel, rfl⟩ := first_step enough
  cases items with
  | nil => rfl
  | cons item items =>
    have short : (prettyItems (level + 1) (item :: items)).length ≤ fuel := by
      simp [Value.prettyAt] at enough
      omega
    rw [readValue_items, readItems_pretty [] each rereads (Nat.le_of_succ_le_succ fits) short]
    rfl

theorem object_readsBack {members : Members} (each : ∀ m ∈ members, m.2.ReadsBack) :
    (Value.object members).ReadsBack := by
  intro level fuel depth rest rereads fits enough _
  obtain ⟨depth, rfl⟩ : ∃ n, depth = n + 1 :=
    Nat.exists_eq_succ_of_ne_zero (by simp [Value.depth] at fits; omega)
  obtain ⟨fuel, rfl⟩ := first_step enough
  cases members with
  | nil => rfl
  | cons m members =>
    obtain ⟨k, v⟩ := m
    have short : (prettyMembers (level + 1) ((k, v) :: members)).length ≤ fuel := by
      simp [Value.prettyAt] at enough
      omega
    rw [readValue_members,
      readMembers_pretty [] each rereads.1 rereads.2 (Nat.le_of_succ_le_succ fits) short]
    rfl

theorem word_readsBack {v : Value} (word : v = .null ∨ ∃ b, v = .bool b) : v.ReadsBack := by
  intro level fuel depth rest rereads _ enough _
  obtain ⟨fuel, rfl⟩ := first_step enough
  rcases word with rfl | ⟨b, rfl⟩
  · rfl
  · cases b <;> rfl

theorem number_readsBack (n : Number) : (Value.number n).ReadsBack := by
  intro level fuel depth rest rereads _ enough delimited
  obtain ⟨fuel, rfl⟩ := first_step enough
  have read : readNumber n.text = some (.number n, []) := rereads
  rcases n.text_cases with undefined | ⟨filled, inside⟩
  · rw [undefined] at read
    cases read
  · obtain ⟨c, more, text⟩ := List.exists_cons_of_ne_nil filled
    rw [prettyAt_number, text, List.cons_append,
      readValue_numeric (inside c (text ▸ List.mem_cons_self)), ← List.cons_append, ← text]
    exact readNumber_append delimited read

theorem string_readsBack (s : String) : (Value.string s).ReadsBack := by
  intro level fuel depth rest rereads _ enough _
  obtain ⟨fuel, rfl⟩ := first_step enough
  obtain ⟨inner, text, read⟩ := readQuoted_quoted s rest
  rw [Value.prettyAt, text, readValue, skipBlanks_solid rfl]
  simp [read]

mutual
/-- A printed value is read back. -/
theorem Value.readsBack : ∀ v : Value, v.ReadsBack
  | .null => word_readsBack (Or.inl rfl)
  | .bool b => word_readsBack (Or.inr ⟨b, rfl⟩)
  | .number n => number_readsBack n
  | .string s => string_readsBack s
  | .array items => array_readsBack (items_readBack items)
  | .object members => object_readsBack (members_readBack members)

theorem items_readBack : ∀ items : List Value, ∀ v ∈ items, v.ReadsBack
  | [] => List.forall_mem_nil _
  | v :: rest => List.forall_mem_cons.mpr ⟨v.readsBack, items_readBack rest⟩

theorem members_readBack : ∀ members : Members, ∀ m ∈ members, m.2.ReadsBack
  | [] => List.forall_mem_nil _
  | (_, v) :: rest => List.forall_mem_cons.mpr ⟨v.readsBack, members_readBack rest⟩
end

/-- A value that comes back and nests no deeper than the reader goes is parsed from its text. -/
theorem parse?_toPretty {v : Value} (rereads : v.Rereads) (fits : v.depth ≤ maxDepth) :
    Value.parse? v.toPretty = some v := by
  have text : v.toPretty.toList = v.prettyAt 0 := String.toList_ofList
  have enough : (v.prettyAt 0).length ≤ stepsFor (v.prettyAt 0) := by
    rw [stepsFor]
    omega
  have read : readValue (stepsFor (v.prettyAt 0)) maxDepth (v.prettyAt 0 ++ []) = some (v, []) :=
    v.readsBack rereads fits enough (by rintro c ⟨⟩)
  rw [List.append_nil] at read
  rw [Value.parse?, text, parseChars?, read]
  rfl

/-- Members are in order once they are read, however they were written. -/
theorem readMembers_sorted {fuel depth : Nat} {seen ms : Members} {cs rest : List Char}
    (before : Members.Sorted seen) (read : readMembers fuel depth seen cs = some (ms, rest)) :
    Members.Sorted ms := by
  induction fuel generalizing seen cs with
  | zero => cases read
  | succ fuel ih =>
    rw [readMembers] at read
    split at read
    · split at read
      · cases read
      split at read
      · split at read
        · cases read
        split at read
        · exact ih (before.set _ _) read
        · cases read
          exact before.set _ _
        · cases read
      · cases read
    · cases read

theorem readValue_sorted {fuel depth : Nat} {ms : Members} {cs rest : List Char}
    (read : readValue fuel depth cs = some (.object ms, rest)) : Members.Sorted ms := by
  cases fuel with
  | zero => cases read
  | succ fuel =>
    rw [readValue] at read
    split at read
    · split at read
      · cases read
      split at read
      · cases read
        exact .nil
      · obtain ⟨⟨ms', rest'⟩, members, same⟩ := Option.map_eq_some_iff.mp read
        cases same
        exact readMembers_sorted .nil members
    · split at read
      · cases read
      split at read
      · cases read
      · obtain ⟨_, _, same⟩ := Option.map_eq_some_iff.mp read
        cases same
    · obtain ⟨_, _, same⟩ := Option.map_eq_some_iff.mp read
      cases same
    · obtain ⟨_, _, same⟩ := Option.map_eq_some_iff.mp read
      cases same
    · obtain ⟨_, _, same⟩ := Option.map_eq_some_iff.mp read
      cases same
    · obtain ⟨_, _, same⟩ := Option.map_eq_some_iff.mp read
      cases same
    · rw [readNumber] at read
      split at read
      · obtain ⟨_, _, same⟩ := Option.map_eq_some_iff.mp read
        cases same
      · cases read

theorem sorted_of_parse? {s : String} {members : Members}
    (parsed : Value.parse? s = some (.object members)) : Members.Sorted members := by
  rw [Value.parse?, parseChars?] at parsed
  split at parsed
  · rename_i v rest read
    split at parsed
    · cases parsed
      exact readValue_sorted read
    · cases parsed
  · cases parsed

end Values

end Jukebox.Json
