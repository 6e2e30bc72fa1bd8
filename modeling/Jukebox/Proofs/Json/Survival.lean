import Mathlib.Tactic
import Jukebox.Proofs.Json.Rereading
/-!
# Members that survive the others

A document may hold values that do not come back, such as a number that is read as another one. If
its text is read as an object all the same, then every member whose value does come back is found
there.

What carries this is where readers stop. Behind a printed value, `Value.Stops` says, unless it is a
number of which a part was taken; and then what comes next is neither a comma nor a closing bracket,
so that the text is refused as a whole.
-/
namespace Jukebox.Json

open Text.Numeral (digit?)

/-- A text that starts inside a number. -/
def Midway (cs : List Char) : Prop :=
  ∃ c ∈ cs.head?, InNumber c

/-- Nothing but characters of numbers was read between these two texts. -/
def Passed (cs left : List Char) : Prop :=
  ∃ used, cs = used ++ left ∧ ∀ c ∈ used, InNumber c

section Numbers

variable {cs left text rest : List Char}

namespace Passed

theorem refl (cs : List Char) : Passed cs cs :=
  ⟨[], rfl, List.forall_mem_nil _⟩

theorem cons {c : Char} (inside : InNumber c) (passed : Passed cs left) : Passed (c :: cs) left := by
  obtain ⟨used, rfl, within⟩ := passed
  exact ⟨c :: used, rfl, List.forall_mem_cons.mpr ⟨inside, within⟩⟩

theorem trans {between : List Char} (first : Passed cs between) (second : Passed between left) :
    Passed cs left := by
  obtain ⟨used, rfl, within⟩ := first
  obtain ⟨more, rfl, within'⟩ := second
  exact ⟨used ++ more, (List.append_assoc ..).symm, List.forall_mem_append.mpr ⟨within, within'⟩⟩

/-- A number that was read from its own text and what follows it ends there or before. -/
theorem stops (passed : Passed (text ++ rest) left) (numeric : ∀ c ∈ text, InNumber c)
    (stopped : ¬Midway rest) : left = rest ∨ Midway left := by
  obtain ⟨used, same, within⟩ := passed
  rcases List.append_eq_append_iff.mp same with ⟨more, rfl, rfl⟩ | ⟨more, rfl, rfl⟩
  · cases more with
    | nil => exact Or.inl rfl
    | cons c more =>
      exact absurd ⟨c, rfl, within c (List.mem_append_right _ List.mem_cons_self)⟩ stopped
  · cases more with
    | nil => exact Or.inl rfl
    | cons c more =>
      exact Or.inr ⟨c, rfl, numeric c (List.mem_append_right _ List.mem_cons_self)⟩

end Passed

theorem readDigits_passed (cs : List Char) : Passed cs (readDigits cs).2 := by
  induction cs with
  | nil => exact .refl []
  | cons c more ih =>
    rw [readDigits]
    cases digit : digit? c with
    | none => exact .refl _
    | some d => exact .cons (Or.inl (Option.isSome_iff_exists.mpr ⟨d, digit⟩)) ih

theorem numberSign_passed (cs : List Char) : Passed cs (numberSign cs).2 := by
  unfold numberSign
  split
  · exact .cons (by decide) (.refl _)
  · exact .refl _

theorem exponentSign_passed (cs : List Char) : Passed cs (exponentSign cs).2 := by
  unfold exponentSign
  split
  · exact .cons (by decide) (.refl _)
  · exact .cons (by decide) (.refl _)
  · exact .refl _

theorem readExponent_passed {e : Option Int} (read : readExponent cs = some (e, left)) :
    Passed cs left := by
  cases cs with
  | nil =>
    cases read
    exact .refl []
  | cons c more =>
    rw [readExponent_cons] at read
    split at read
    · rename_i mark
      have inside : InNumber c := by rcases mark with rfl | rfl <;> decide
      have digits := readDigits_passed (exponentSign more).2
      split at read
      · cases read
      · rename_i found
        rw [found] at digits
        cases read
        exact .cons inside ((exponentSign_passed more).trans digits)
    · cases read
      exact .refl _

theorem readTail_passed {negative : Bool} {whole : List Nat} {l : Literal}
    (read : readTail negative whole cs = some (l, left)) : Passed cs left := by
  unfold readTail at read
  split at read
  · rename_i more
    have digits := readDigits_passed more
    split at read
    · cases read
    · rename_i found
      rw [found] at digits
      obtain ⟨⟨e, left'⟩, exponent, same⟩ := Option.map_eq_some_iff.mp read
      cases same
      exact .cons (by decide) (digits.trans (readExponent_passed exponent))
  · obtain ⟨⟨e, left'⟩, exponent, same⟩ := Option.map_eq_some_iff.mp read
    cases same
    exact readExponent_passed exponent

theorem readNumber_passed {v : Value} (read : readNumber cs = some (v, left)) :
    Passed cs left := by
  rw [readNumber] at read
  split at read
  · rename_i l left' literal
    obtain ⟨n, -, same⟩ := Option.map_eq_some_iff.mp read
    cases same
    have digits := readDigits_passed (numberSign cs).2
    rw [readLiteral_eq] at literal
    split at literal
    · cases literal
    · cases literal
    · rename_i found
      rw [found] at digits
      exact (numberSign_passed cs).trans (digits.trans (readTail_passed literal))
  · cases read

end Numbers

section Values

variable {fuel depth level outer : Nat} {cs left rest : List Char}

/-- Nothing that may follow a value goes on from inside a number. -/
theorem Midway.skipBlanks_ne {c : Char} (midway : Midway cs) (outside : ¬InNumber c)
    (more : List Char) : skipBlanks cs ≠ c :: more := by
  obtain ⟨first, there, inside⟩ := midway
  cases cs with
  | nil => cases there
  | cons d others =>
    cases there
    rw [skipBlanks_solid inside.solid]
    intro same
    exact inside.ne outside (List.cons.inj same).1

theorem not_midway_comma (cs : List Char) : ¬Midway (',' :: cs) := by
  rintro ⟨c, ⟨⟩, inside⟩
  revert inside
  decide

theorem not_midway_newline (level : Nat) (cs : List Char) : ¬Midway (newline level ++ cs) := by
  rintro ⟨c, ⟨⟩, inside⟩
  revert inside
  decide

/-- Where the reader of a printed value stops: behind it, or inside a number. -/
def Value.Stops (v : Value) : Prop :=
  ∀ {level fuel depth : Nat} {rest left : List Char} {v' : Value}, ¬Midway rest →
    readValue fuel depth (v.prettyAt level ++ rest) = some (v', left) → left = rest ∨ Midway left

/-- If what is left goes on as a document does, the value was read to its end. -/
theorem Value.Stops.followed {v v' : Value} (stops : v.Stops) (stopped : ¬Midway rest)
    (read : readValue fuel depth (v.prettyAt level ++ rest) = some (v', left)) {c : Char}
    {more : List Char} (outside : ¬InNumber c) (next : skipBlanks left = c :: more) :
    left = rest := by
  rcases stops stopped read with behind | midway
  · exact behind
  · exact absurd next (midway.skipBlanks_ne outside more)

theorem readItems_inv {seen vs : List Value} (read : readItems fuel depth seen cs = some (vs, left)) :
    ∃ n v after c more, fuel = n + 1 ∧ readValue n depth cs = some (v, after) ∧ ¬InNumber c ∧
      skipBlanks after = c :: more ∧
      (c = ',' ∧ readItems n depth (v :: seen) more = some (vs, left) ∨ c = ']' ∧ more = left) := by
  cases fuel with
  | zero => cases read
  | succ n =>
    rw [readItems] at read
    split at read
    · cases read
    rename_i v after first
    split at read
    · exact ⟨n, v, after, _, _, rfl, first, by decide, ‹_›, Or.inl ⟨rfl, read⟩⟩
    · cases read
      exact ⟨n, v, after, _, _, rfl, first, by decide, ‹_›, Or.inr ⟨rfl, rfl⟩⟩
    · cases read

/-- Printed items are read up to their bracket. -/
theorem readItems_stops {item : Value} {items seen vs : List Value}
    (each : ∀ v ∈ item :: items, v.Stops)
    (read : readItems fuel depth seen
      (prettyItems level (item :: items) ++ (newline outer ++ ']' :: rest)) = some (vs, left)) :
    left = rest := by
  induction items generalizing item fuel seen with
  | nil =>
    obtain ⟨n, v, after, c, more, rfl, first, outside, next, ends⟩ := readItems_inv read
    rw [prettyItems, List.append_nil, List.append_assoc,
      readValue_skip (skipBlanks_newline level _)] at first
    obtain rfl := Value.Stops.followed (each item List.mem_cons_self) (not_midway_newline outer _)
      first outside next
    rw [skipBlanks_newline, skipBlanks_solid rfl] at next
    cases next
    rcases ends with ⟨⟨⟩, -⟩ | ⟨-, rfl⟩
    rfl
  | cons second later ih =>
    obtain ⟨n, v, after, c, more, rfl, first, outside, next, ends⟩ := readItems_inv read
    rw [prettyItems, List.append_assoc, List.append_assoc,
      readValue_skip (skipBlanks_newline level _), List.cons_append] at first
    obtain rfl := Value.Stops.followed (each item List.mem_cons_self) (not_midway_comma _) first
      outside next
    rw [skipBlanks_solid rfl] at next
    cases next
    rcases ends with ⟨-, others⟩ | ⟨⟨⟩, -⟩
    exact ih (fun v there => each v (List.mem_cons_of_mem item there)) others

theorem readMembers_inv {k : String} {seen ms : Members}
    (read : readMembers fuel depth seen (newline level ++ (quoted k ++ ':' :: ' ' :: cs)) =
      some (ms, left)) :
    ∃ n v after c more, fuel = n + 1 ∧ readValue n depth cs = some (v, after) ∧ ¬InNumber c ∧
      skipBlanks after = c :: more ∧
      (c = ',' ∧ readMembers n depth (Members.set k v seen) more = some (ms, left) ∨
        c = '\x7d' ∧ more = left ∧ ms = Members.set k v seen) := by
  cases fuel with
  | zero => cases read
  | succ n =>
    obtain ⟨inner, text, key⟩ := readQuoted_quoted k (':' :: ' ' :: cs)
    rw [readMembers, skipBlanks_newline, text, skipBlanks_solid rfl] at read
    simp only [key, skipBlanks_solid (c := ':') rfl,
      readValue_skip (skipBlanks_space cs)] at read
    split at read
    · cases read
    rename_i v after first
    split at read
    · exact ⟨n, v, after, _, _, rfl, first, by decide, ‹_›, Or.inl ⟨rfl, read⟩⟩
    · cases read
      exact ⟨n, v, after, _, _, rfl, first, by decide, ‹_›, Or.inr ⟨rfl, rfl, rfl⟩⟩
    · cases read

/-- What comes of printed members that are still to be read, with a brace behind them. -/
def ReadOn (level depth outer : Nat) (rest : List Char) (fuel : Nat) (members seen : Members)
    (outcome : Members × List Char) : Prop :=
  match members with
  | [] => outcome = (seen, rest)
  | m :: others => readMembers fuel depth seen
      (prettyMembers level (m :: others) ++ (newline outer ++ '\x7d' :: rest)) = some outcome

/-- The first of them is set, with its own value if that comes back. -/
theorem ReadOn.step {k : String} {v : Value} {members seen : Members}
    {outcome : Members × List Char} (stops : v.Stops)
    (reads : ReadOn level depth outer rest fuel ((k, v) :: members) seen outcome) :
    ∃ n v', fuel = n + 1 ∧
      ((v.prettyAt level).length ≤ n → v.Rereads → v.depth ≤ depth → v' = v) ∧
      ReadOn level depth outer rest n members (Members.set k v' seen) outcome := by
  obtain ⟨ms, left⟩ := outcome
  have kept {n : Nat} {v' : Value} {tail : List Char} (delimited : Delimited tail)
      (first : readValue n depth (v.prettyAt level ++ tail) = some (v', tail))
      (enough : (v.prettyAt level).length ≤ n) (rereads : v.Rereads) (fits : v.depth ≤ depth) :
      v' = v := by
    rw [v.readsBack rereads fits enough delimited] at first
    exact (Prod.mk.inj (Option.some.inj first)).1.symm
  rw [ReadOn] at reads
  cases members with
  | nil =>
    rw [prettyMembers_last] at reads
    obtain ⟨n, v', after, c, more, rfl, first, outside, next, ends⟩ := readMembers_inv reads
    obtain rfl := stops.followed (not_midway_newline outer _) first outside next
    rw [skipBlanks_newline, skipBlanks_solid rfl] at next
    cases next
    rcases ends with ⟨⟨⟩, -⟩ | ⟨-, rfl, rfl⟩
    exact ⟨n, v', rfl, kept (delimited_newline outer _) first, rfl⟩
  | cons second later =>
    rw [prettyMembers_next] at reads
    obtain ⟨n, v', after, c, more, rfl, first, outside, next, ends⟩ := readMembers_inv reads
    obtain rfl := stops.followed (not_midway_comma _) first outside next
    rw [skipBlanks_solid rfl] at next
    cases next
    rcases ends with ⟨-, others⟩ | ⟨⟨⟩, -⟩
    exact ⟨n, v', rfl, kept (delimited_comma _) first, others⟩

/-- They are read up to the brace. -/
theorem ReadOn.stops {members seen : Members} {outcome : Members × List Char}
    (each : ∀ m ∈ members, m.2.Stops)
    (reads : ReadOn level depth outer rest fuel members seen outcome) : outcome.2 = rest := by
  induction members generalizing fuel seen with
  | nil => exact congrArg Prod.snd reads
  | cons m others ih =>
    obtain ⟨n, v', rfl, -, later⟩ := reads.step (each m List.mem_cons_self)
    exact ih (fun m' there => each m' (List.mem_cons_of_mem m there)) later

/-- Those that come back are found, and a key that none of them has is left as it was. -/
theorem ReadOn.find? {members seen : Members} {outcome : Members × List Char}
    (each : ∀ m ∈ members, m.2.Stops) (sorted : Members.Sorted members)
    (enough : (prettyMembers level members).length ≤ fuel)
    (reads : ReadOn level depth outer rest fuel members seen outcome) :
    (∀ m ∈ members, m.2.Rereads → m.2.depth ≤ depth → outcome.1.find? m.1 = some m.2) ∧
      ∀ key, (∀ m ∈ members, m.1 ≠ key) → outcome.1.find? key = seen.find? key := by
  induction members generalizing fuel seen with
  | nil =>
    obtain rfl := reads
    exact ⟨List.forall_mem_nil _, fun _ _ => rfl⟩
  | cons m others ih =>
    obtain ⟨n, v', rfl, kept, later⟩ := reads.step (each m List.mem_cons_self)
    obtain ⟨n', same, short, short_later⟩ := steps_of_members enough
    obtain rfl := Nat.succ.inj same
    obtain ⟨found, others_left⟩ := ih (fun m' there => each m' (List.mem_cons_of_mem m there))
      sorted.tail short_later later
    refine ⟨fun m' there rereads fits => ?_, fun key absent => ?_⟩
    · rcases List.mem_cons.mp there with rfl | behind
      · rw [others_left m'.1 fun m there => Members.ne_of_before (sorted.head_lt there),
          Members.find?_set_self, kept short rereads fits]
      · exact found m' behind rereads fits
    · obtain ⟨first, absent⟩ := List.forall_mem_cons.mp absent
      rw [others_left key absent, Members.find?_set_other first.symm]

theorem array_stops {items : List Value} (each : ∀ v ∈ items, v.Stops) :
    (Value.array items).Stops := by
  intro level fuel depth rest left v' _ read
  cases fuel with
  | zero => cases read
  | succ fuel =>
    cases items with
    | nil =>
      cases depth <;> cases read
      exact Or.inl rfl
    | cons item items =>
      cases depth with
      | zero =>
        rw [prettyAt_array, readValue, skipBlanks_solid rfl] at read
        cases read
      | succ depth =>
        rw [readValue_items] at read
        obtain ⟨⟨vs, left'⟩, items_read, same⟩ := Option.map_eq_some_iff.mp read
        cases same
        exact Or.inl (readItems_stops each items_read)

/-- An object with members is read by reading them. -/
theorem readOn_of_object {members : Members} {v' : Value} (filled : members ≠ [])
    (read : readValue fuel depth ((Value.object members).prettyAt level ++ rest) =
      some (v', left)) :
    ∃ n d ms, fuel = n + 1 ∧ depth = d + 1 ∧ v' = .object ms ∧
      ReadOn (level + 1) d level rest n members [] (ms, left) := by
  cases fuel with
  | zero => cases read
  | succ fuel =>
    cases members with
    | nil => exact absurd rfl filled
    | cons m members =>
      cases depth with
      | zero =>
        rw [prettyAt_object, readValue, skipBlanks_solid rfl] at read
        cases read
      | succ depth =>
        rw [readValue_members] at read
        obtain ⟨⟨ms, left'⟩, members_read, same⟩ := Option.map_eq_some_iff.mp read
        cases same
        exact ⟨fuel, depth, ms, rfl, rfl, rfl, members_read⟩

theorem object_stops {members : Members} (each : ∀ m ∈ members, m.2.Stops) :
    (Value.object members).Stops := by
  intro level fuel depth rest left v' _ read
  cases members with
  | nil =>
    cases fuel with
    | zero => cases read
    | succ fuel =>
      cases depth <;> cases read
      exact Or.inl rfl
  | cons m members =>
    obtain ⟨n, d, ms, rfl, rfl, rfl, reads⟩ := readOn_of_object (List.cons_ne_nil m members) read
    exact Or.inl (reads.stops each)

theorem word_stops {v : Value} (word : v = .null ∨ ∃ b, v = .bool b) : v.Stops := by
  intro level fuel depth rest left v' _ read
  cases fuel with
  | zero => cases read
  | succ fuel =>
    rcases word with rfl | ⟨b, rfl⟩
    · cases read
      exact Or.inl rfl
    · cases b <;> cases read <;> exact Or.inl rfl

theorem number_stops (n : Number) : (Value.number n).Stops := by
  intro level fuel depth rest left v' stopped read
  rcases n.text_cases with undefined | ⟨filled, inside⟩
  · have null : (Value.number n).prettyAt level = Value.null.prettyAt level := undefined
    rw [null] at read
    exact word_stops (Or.inl rfl) stopped read
  · cases fuel with
    | zero => cases read
    | succ fuel =>
      obtain ⟨c, more, text⟩ := List.exists_cons_of_ne_nil filled
      rw [prettyAt_number, text, List.cons_append,
        readValue_numeric (inside c (text ▸ List.mem_cons_self)), ← List.cons_append, ← text] at read
      exact (readNumber_passed read).stops inside stopped

theorem string_stops (s : String) : (Value.string s).Stops := by
  intro level fuel depth rest left v' _ read
  cases fuel with
  | zero => cases read
  | succ fuel =>
    obtain ⟨inner, text, quote⟩ := readQuoted_quoted s rest
    rw [Value.prettyAt, text, readValue, skipBlanks_solid rfl] at read
    simp only [quote, Option.map_some, Option.some.injEq, Prod.mk.injEq] at read
    exact Or.inl read.2.symm

mutual
/-- Wherever a printed value stands, its reader stops behind it or inside a number. -/
theorem Value.stops : ∀ v : Value, v.Stops
  | .null => word_stops (Or.inl rfl)
  | .bool b => word_stops (Or.inr ⟨b, rfl⟩)
  | .number n => number_stops n
  | .string s => string_stops s
  | .array items => array_stops (items_stop items)
  | .object members => object_stops (members_stop members)

theorem items_stop : ∀ items : List Value, ∀ v ∈ items, v.Stops
  | [] => List.forall_mem_nil _
  | v :: rest => List.forall_mem_cons.mpr ⟨v.stops, items_stop rest⟩

theorem members_stop : ∀ members : Members, ∀ m ∈ members, m.2.Stops
  | [] => List.forall_mem_nil _
  | (_, v) :: rest => List.forall_mem_cons.mpr ⟨v.stops, members_stop rest⟩
end

/-- If the text of an object is read at all, it is read as an object with every member that comes
back. -/
theorem find?_of_parse? {members : Members} {v' : Value} (sorted : Members.Sorted members)
    (parsed : Value.parse? (Value.object members).toPretty = some v') {m : String × Value}
    (there : m ∈ members) (comes_back : m.2.ComesBack) :
    ∃ ms, v' = .object ms ∧ Members.find? m.1 ms = some m.2 := by
  obtain ⟨rereads, shallow⟩ := comes_back
  have text : (Value.object members).toPretty.toList = (Value.object members).prettyAt 0 :=
    String.toList_ofList
  rw [Value.parse?, text, parseChars?] at parsed
  split at parsed
  · rename_i v left read
    split at parsed
    · cases parsed
      rw [← List.append_nil ((Value.object members).prettyAt 0)] at read
      obtain ⟨n, d, ms, steps, levels, rfl, reads⟩ :=
        readOn_of_object (List.ne_nil_of_mem there) read
      have enough : (prettyMembers 1 members).length ≤ n := by
        cases members with
        | nil => cases there
        | cons first others =>
          simp [stepsFor, Value.prettyAt] at steps
          omega
      have fits : m.2.depth ≤ d := by
        rw [levels] at shallow
        exact Nat.lt_succ_iff.mp shallow
      obtain ⟨found, -⟩ := reads.find? (members_stop members) sorted enough
      exact ⟨ms, rfl, found m there rereads fits⟩
    · cases parsed
  · cases parsed

end Values

end Jukebox.Json
