import Jukebox.Proofs.Json.Rereading
/-!
# Reading compact texts

In a response nothing stands between the parts of a value, and the members of an object are in the
order in which they were told. The reader puts them in order and keeps the last one of each key:
what it makes of the text of a value is the value with its members in order.
-/
namespace Jukebox.Json

mutual
/-- A value as it is read: the members of its objects are in order, the last one of each key. -/
def Value.ordered : Value → Value
  | .array items => .array (orderedItems items)
  | .object members => .object (Members.ofList (orderedMembers members))
  | .null => .null
  | .bool b => .bool b
  | .number n => .number n
  | .string s => .string s

def orderedItems : List Value → List Value
  | [] => []
  | v :: rest => v.ordered :: orderedItems rest

def orderedMembers : List (String × Value) → List (String × Value)
  | [] => []
  | (k, v) :: rest => (k, v.ordered) :: orderedMembers rest
end

mutual
/-- Values whose numbers come back. -/
def Value.Legible : Value → Prop
  | .number n => n.Rereads
  | .array items => Value.AllLegible items
  | .object members => Value.MembersLegible members
  | _ => True

def Value.AllLegible : List Value → Prop
  | [] => True
  | v :: rest => v.Legible ∧ Value.AllLegible rest

def Value.MembersLegible : List (String × Value) → Prop
  | [] => True
  | (_, v) :: rest => v.Legible ∧ Value.MembersLegible rest
end

theorem allLegible_iff {items : List Value} :
    Value.AllLegible items ↔ ∀ v ∈ items, v.Legible := by
  induction items with
  | nil => simp [Value.AllLegible]
  | cons v rest ih => rw [Value.AllLegible, ih, List.forall_mem_cons]

theorem membersLegible_iff {members : List (String × Value)} :
    Value.MembersLegible members ↔ ∀ m ∈ members, m.2.Legible := by
  induction members with
  | nil => simp [Value.MembersLegible]
  | cons m rest ih => rw [Value.MembersLegible, ih, List.forall_mem_cons]

theorem deepest_le_iff {items : List Value} {n : Nat} :
    Value.deepest items ≤ n ↔ ∀ v ∈ items, v.depth ≤ n := by
  induction items with
  | nil => simp [Value.deepest]
  | cons v rest ih => rw [Value.deepest, max_le_iff, ih, List.forall_mem_cons]

theorem deepestMember_le_iff {members : List (String × Value)} {n : Nat} :
    Value.deepestMember members ≤ n ↔ ∀ m ∈ members, m.2.depth ≤ n := by
  induction members with
  | nil => simp [Value.deepestMember]
  | cons m rest ih => rw [Value.deepestMember, max_le_iff, ih, List.forall_mem_cons]

theorem orderedItems_eq_map (items : List Value) : orderedItems items = items.map .ordered := by
  induction items with
  | nil => rfl
  | cons v rest ih => rw [orderedItems, List.map_cons, ih]

/-- The compact text of a value is read wherever it stands, if there are levels and steps enough. -/
def Value.ReadsOn (v : Value) : Prop :=
  ∀ {fuel depth : Nat} {rest : List Char}, v.Legible → v.depth ≤ depth →
    v.compact.length ≤ fuel → Delimited rest →
    readValue fuel depth (v.compact ++ rest) = some (v.ordered, rest)

theorem delimited_bracket (cs : List Char) : Delimited (']' :: cs) := by
  intro c first
  cases first
  decide

theorem delimited_brace (cs : List Char) : Delimited ('\x7d' :: cs) := by
  intro c first
  cases first
  decide

/-- A value starts with a character of its own, which does not close an array. -/
theorem compact_first (v : Value) :
    ∃ c more, v.compact = c :: more ∧ isBlank c = false ∧ c ≠ ']' := by
  cases v with
  | number n =>
    rcases n.text_cases with undefined | ⟨filled, inside⟩
    · exact ⟨_, _, undefined, rfl, by decide⟩
    · obtain ⟨c, more, text⟩ := List.exists_cons_of_ne_nil filled
      have first := inside c (text ▸ List.mem_cons_self)
      exact ⟨c, more, text, first.solid, first.ne (by decide)⟩
  | null => exact ⟨_, _, rfl, rfl, by decide⟩
  | bool b => cases b <;> exact ⟨_, _, rfl, rfl, by decide⟩
  | string s => exact ⟨_, _, rfl, rfl, by decide⟩
  | array items => exact ⟨_, _, rfl, rfl, by decide⟩
  | object members => exact ⟨_, _, rfl, rfl, by decide⟩

theorem compact_step {v : Value} {fuel : Nat} (enough : v.compact.length ≤ fuel) :
    ∃ n, fuel = n + 1 := by
  obtain ⟨c, more, text, -, -⟩ := compact_first v
  rw [text, List.length_cons] at enough
  exact Nat.exists_eq_succ_of_ne_zero (by omega)

section Items

variable {item : Value} {items : List Value} {fuel depth : Nat} {rest : List Char}

theorem compactItems_last (item : Value) (rest : List Char) :
    compactItems [item] ++ rest = item.compact ++ rest := by
  simp [compactItems]

theorem compactItems_next (item next : Value) (items : List Value) (rest : List Char) :
    compactItems (item :: next :: items) ++ rest =
      item.compact ++ ',' :: (compactItems (next :: items) ++ rest) := by
  simp [compactItems]

/-- Items are read up to the bracket behind them. Each takes a step of its own. -/
theorem readItems_compact (seen : List Value) (each : ∀ v ∈ item :: items, v.ReadsOn)
    (legible : Value.AllLegible (item :: items)) (fits : Value.deepest (item :: items) ≤ depth)
    (enough : (compactItems (item :: items)).length < fuel) :
    readItems fuel depth seen (compactItems (item :: items) ++ ']' :: rest) =
      some (seen.reverse ++ orderedItems (item :: items), rest) := by
  induction items generalizing item fuel seen with
  | nil =>
    obtain ⟨fuel, rfl⟩ : ∃ n, fuel = n + 1 := Nat.exists_eq_succ_of_ne_zero (by omega)
    have short : item.compact.length ≤ fuel := by
      simpa [compactItems, Nat.lt_succ_iff] using enough
    have read := each item List.mem_cons_self legible.1 (max_le_iff.mp fits).1 short
      (delimited_bracket rest)
    rw [compactItems_last, readItems_last read (skipBlanks_solid rfl rest)]
    rfl
  | cons next later ih =>
    obtain ⟨fuel, rfl⟩ : ∃ n, fuel = n + 1 := Nat.exists_eq_succ_of_ne_zero (by omega)
    have whole : (compactItems (item :: next :: later)).length =
        item.compact.length + (compactItems (next :: later)).length + 1 := by
      simp [compactItems]
      omega
    have short : item.compact.length ≤ fuel := by omega
    have read := each item List.mem_cons_self legible.1 (max_le_iff.mp fits).1 short
      (delimited_comma (compactItems (next :: later) ++ ']' :: rest))
    rw [compactItems_next, readItems_next read (skipBlanks_solid rfl _),
      ih (item.ordered :: seen) (fun v there => each v (List.mem_cons_of_mem item there)) legible.2
        (max_le_iff.mp fits).2 (by omega)]
    simp [orderedItems]

end Items

section Members

variable {k : String} {v : Value} {members : List (String × Value)} {fuel depth : Nat}
  {rest : List Char}

theorem compactMembers_last (k : String) (v : Value) (rest : List Char) :
    compactMembers [(k, v)] ++ rest = quoted k ++ ':' :: (v.compact ++ rest) := by
  simp [compactMembers]

theorem compactMembers_next (k : String) (v : Value) (m : String × Value)
    (members : List (String × Value)) (rest : List Char) :
    compactMembers ((k, v) :: m :: members) ++ rest =
      quoted k ++ ':' :: (v.compact ++ ',' :: (compactMembers (m :: members) ++ rest)) := by
  simp [compactMembers]

/-- A member, when a brace follows it. -/
theorem readMembers_closed {seen : Members} {cs after : List Char}
    (read : readValue fuel depth cs = some (v, after))
    (closes : skipBlanks after = '\x7d' :: rest) :
    readMembers (fuel + 1) depth seen (quoted k ++ ':' :: cs) =
      some (Members.set k v seen, rest) := by
  obtain ⟨inner, text, key⟩ := readQuoted_quoted k (':' :: cs)
  rw [readMembers, text, skipBlanks_solid rfl]
  simp [key, skipBlanks_solid (c := ':') rfl, read, closes]

theorem readMembers_more {seen : Members} {cs after : List Char}
    (read : readValue fuel depth cs = some (v, after))
    (goes_on : skipBlanks after = ',' :: rest) :
    readMembers (fuel + 1) depth seen (quoted k ++ ':' :: cs) =
      readMembers fuel depth (Members.set k v seen) rest := by
  obtain ⟨inner, text, key⟩ := readQuoted_quoted k (':' :: cs)
  rw [readMembers, text, skipBlanks_solid rfl]
  simp [key, skipBlanks_solid (c := ':') rfl, read, goes_on]

/-- Members are read up to the brace behind them and set one after the other. -/
theorem readMembers_compact (seen : Members) (each : ∀ m ∈ (k, v) :: members, m.2.ReadsOn)
    (legible : Value.MembersLegible ((k, v) :: members))
    (fits : Value.deepestMember ((k, v) :: members) ≤ depth)
    (enough : (compactMembers ((k, v) :: members)).length < fuel) :
    readMembers fuel depth seen (compactMembers ((k, v) :: members) ++ '\x7d' :: rest) =
      some ((orderedMembers ((k, v) :: members)).foldl (fun ms p => Members.set p.1 p.2 ms) seen,
        rest) := by
  induction members generalizing k v fuel seen with
  | nil =>
    obtain ⟨fuel, rfl⟩ : ∃ n, fuel = n + 1 := Nat.exists_eq_succ_of_ne_zero (by omega)
    have short : v.compact.length ≤ fuel := by
      simp [compactMembers] at enough
      omega
    have read := each (k, v) List.mem_cons_self legible.1 (max_le_iff.mp fits).1 short
      (delimited_brace rest)
    rw [compactMembers_last, readMembers_closed read (skipBlanks_solid rfl rest)]
    rfl
  | cons next later ih =>
    obtain ⟨k', v'⟩ := next
    obtain ⟨fuel, rfl⟩ : ∃ n, fuel = n + 1 := Nat.exists_eq_succ_of_ne_zero (by omega)
    have whole : v.compact.length + (compactMembers ((k', v') :: later)).length <
        (compactMembers ((k, v) :: (k', v') :: later)).length := by
      simp [compactMembers]
      omega
    have short : v.compact.length ≤ fuel := by omega
    have read := each (k, v) List.mem_cons_self legible.1 (max_le_iff.mp fits).1 short
      (delimited_comma (compactMembers ((k', v') :: later) ++ '\x7d' :: rest))
    rw [compactMembers_next, readMembers_more read (skipBlanks_solid rfl _),
      ih (Members.set k v.ordered seen) (fun m there => each m (List.mem_cons_of_mem _ there))
        legible.2 (max_le_iff.mp fits).2 (by omega)]
    rfl

end Members

section Values

theorem array_readsOn {items : List Value} (each : ∀ v ∈ items, v.ReadsOn) :
    (Value.array items).ReadsOn := by
  intro fuel depth rest legible fits enough _
  obtain ⟨depth, rfl⟩ : ∃ n, depth = n + 1 :=
    Nat.exists_eq_succ_of_ne_zero (by simp [Value.depth] at fits; omega)
  obtain ⟨fuel, rfl⟩ := compact_step enough
  cases items with
  | nil => rfl
  | cons item items =>
    have short : (compactItems (item :: items)).length < fuel := by
      simp [Value.compact] at enough
      omega
    have text : (Value.array (item :: items)).compact ++ rest =
        '[' :: (compactItems (item :: items) ++ ']' :: rest) := by
      simp [Value.compact]
    obtain ⟨c, more, first, solid, filled⟩ := compact_first item
    have opens : (skipBlanks (compactItems (item :: items) ++ ']' :: rest)).head? ≠ some ']' := by
      simp [compactItems, first, skipBlanks_solid solid, filled]
    rw [text, readValue_array opens,
      readItems_compact [] each legible (Nat.le_of_succ_le_succ fits) short]
    rfl

theorem object_readsOn {members : List (String × Value)} (each : ∀ m ∈ members, m.2.ReadsOn) :
    (Value.object members).ReadsOn := by
  intro fuel depth rest legible fits enough _
  obtain ⟨depth, rfl⟩ : ∃ n, depth = n + 1 :=
    Nat.exists_eq_succ_of_ne_zero (by simp [Value.depth] at fits; omega)
  obtain ⟨fuel, rfl⟩ := compact_step enough
  cases members with
  | nil => rfl
  | cons m members =>
    obtain ⟨k, v⟩ := m
    have short : (compactMembers ((k, v) :: members)).length < fuel := by
      simp [Value.compact] at enough
      omega
    have text : (Value.object ((k, v) :: members)).compact ++ rest =
        '\x7b' :: (compactMembers ((k, v) :: members) ++ '\x7d' :: rest) := by
      simp [Value.compact]
    have opens : (skipBlanks (compactMembers ((k, v) :: members) ++ '\x7d' :: rest)).head? ≠
        some '\x7d' := by
      simp [compactMembers, quoted, skipBlanks_solid (c := '"') rfl]
    rw [text, readValue_object opens,
      readMembers_compact [] each legible (Nat.le_of_succ_le_succ fits) short]
    rfl

theorem word_readsOn {v : Value} (word : v = .null ∨ ∃ b, v = .bool b) : v.ReadsOn := by
  intro fuel depth rest _ _ enough _
  obtain ⟨fuel, rfl⟩ := compact_step enough
  rcases word with rfl | ⟨b, rfl⟩
  · rfl
  · cases b <;> rfl

theorem number_readsOn (n : Number) : (Value.number n).ReadsOn := by
  intro fuel depth rest legible _ enough delimited
  obtain ⟨fuel, rfl⟩ := compact_step enough
  have read : readNumber n.text = some (.number n, []) := legible
  rcases n.text_cases with undefined | ⟨filled, inside⟩
  · rw [undefined] at read
    cases read
  · obtain ⟨c, more, text⟩ := List.exists_cons_of_ne_nil filled
    have first := inside c (text ▸ List.mem_cons_self)
    rw [Value.compact, text, List.cons_append, readValue_numeric first, ← List.cons_append, ← text]
    exact readNumber_append delimited read

theorem string_readsOn (s : String) : (Value.string s).ReadsOn := by
  intro fuel depth rest _ _ enough _
  obtain ⟨fuel, rfl⟩ := compact_step enough
  obtain ⟨inner, text, read⟩ := readQuoted_quoted s rest
  rw [Value.compact, text, readValue, skipBlanks_solid rfl]
  simp [read, Value.ordered]

mutual
/-- The compact text of a value is read, wherever it stands. -/
theorem Value.readsOn : ∀ v : Value, v.ReadsOn
  | .null => word_readsOn (Or.inl rfl)
  | .bool b => word_readsOn (Or.inr ⟨b, rfl⟩)
  | .number n => number_readsOn n
  | .string s => string_readsOn s
  | .array items => array_readsOn (items_readOn items)
  | .object members => object_readsOn (members_readOn members)

theorem items_readOn : ∀ items : List Value, ∀ v ∈ items, v.ReadsOn
  | [] => List.forall_mem_nil _
  | v :: rest => List.forall_mem_cons.mpr ⟨v.readsOn, items_readOn rest⟩

theorem members_readOn : ∀ members : List (String × Value), ∀ m ∈ members, m.2.ReadsOn
  | [] => List.forall_mem_nil _
  | (_, v) :: rest => List.forall_mem_cons.mpr ⟨v.readsOn, members_readOn rest⟩
end

/-- The text of a legible value that nests no deeper than the reader goes is parsed, with the
members of its objects put in order. -/
theorem parse?_toText {v : Value} (legible : v.Legible) (fits : v.depth ≤ maxDepth) :
    Value.parse? v.toText = some v.ordered := by
  have text : v.toText.toList = v.compact := String.toList_ofList
  have enough : v.compact.length ≤ stepsFor v.compact := by
    rw [stepsFor]
    omega
  have read : readValue (stepsFor v.compact) maxDepth (v.compact ++ []) = some (v.ordered, []) :=
    v.readsOn legible fits enough (by rintro c ⟨⟩)
  rw [List.append_nil] at read
  rw [Value.parse?, text, parseChars?, read]
  rfl

end Values

section Keys

mutual
/-- No object in the value repeats a key. -/
def Value.KeysOnce : Value → Prop
  | .array items => Value.AllKeysOnce items
  | .object members => (members.map Prod.fst).Nodup ∧ Value.MembersKeysOnce members
  | _ => True

def Value.AllKeysOnce : List Value → Prop
  | [] => True
  | v :: rest => v.KeysOnce ∧ Value.AllKeysOnce rest

def Value.MembersKeysOnce : List (String × Value) → Prop
  | [] => True
  | (_, v) :: rest => v.KeysOnce ∧ Value.MembersKeysOnce rest
end

variable {members : List (String × Value)}

theorem allKeysOnce_iff {items : List Value} :
    Value.AllKeysOnce items ↔ ∀ v ∈ items, v.KeysOnce := by
  induction items with
  | nil => simp [Value.AllKeysOnce]
  | cons v rest ih => rw [Value.AllKeysOnce, ih, List.forall_mem_cons]

theorem membersKeysOnce_iff :
    Value.MembersKeysOnce members ↔ ∀ m ∈ members, m.2.KeysOnce := by
  induction members with
  | nil => simp [Value.MembersKeysOnce]
  | cons m rest ih => rw [Value.MembersKeysOnce, ih, List.forall_mem_cons]

theorem keys_orderedMembers (members : List (String × Value)) :
    (orderedMembers members).map Prod.fst = members.map Prod.fst := by
  induction members with
  | nil => rfl
  | cons m rest ih => rw [orderedMembers, List.map_cons, List.map_cons, ih]

theorem find?_orderedMembers (key : String) (members : List (String × Value)) :
    Members.find? key (orderedMembers members) =
      (Members.find? key members).map Value.ordered := by
  induction members with
  | nil => rfl
  | cons m rest ih =>
    obtain ⟨k, v⟩ := m
    rw [orderedMembers, Members.find?, Members.find?]
    split
    · rfl
    · exact ih

/-- An object without repeated keys has the same members when it is read. -/
theorem member?_ordered (once : (members.map Prod.fst).Nodup) (key : String) :
    (Value.object members).ordered.member? key =
      (Members.find? key members).map Value.ordered := by
  have once' : ((orderedMembers members).map Prod.fst).Nodup := by
    rwa [keys_orderedMembers]
  rw [Value.ordered, Value.member?, Members.find?_ofList once', find?_orderedMembers]

end Keys

end Jukebox.Json
