import Mathlib.Data.Nat.Digits.Defs
import Mathlib.Tactic
import Jukebox.Text.Numeral
/-!
# What numerals denote

The reader of numerals goes from digit to digit and keeps a number as it goes. Which texts it
accepts, and what they mean, is said here without it: by the digits that the text is made of, and
the number with these digits in base ten.
-/
namespace Jukebox.Text.Numeral

structure Spells (cs : List Char) (ds : List Nat) : Prop where
  small : ∀ d ∈ ds, d < 10
  text : cs = ds.map Nat.digitChar

/-- A text is a numeral of a number: one digit or more, with a plus in front or not. -/
structure Denotes (cs : List Char) (n : Nat) : Prop where
  spelled : ∃ ds, ds ≠ [] ∧ n = Nat.ofDigits 10 ds.reverse ∧
    (Spells cs ds ∨ ∃ rest, cs = '+' :: rest ∧ Spells rest ds)

theorem digit?_digitChar {d : Nat} (small : d < 10) : digit? (Nat.digitChar d) = some d := by
  interval_cases d <;> rfl

/-- A character is a digit exactly if it is the one that its value is written with. -/
theorem digit?_eq_some_iff {c : Char} {d : Nat} :
    digit? c = some d ↔ d < 10 ∧ c = Nat.digitChar d := by
  constructor
  · intro read
    rw [digit?] at read
    split at read
    · rename_i range
      have low : 48 ≤ c.toNat := range.1
      have high : c.toNat ≤ 57 := range.2
      obtain rfl := Option.some.inj read
      have small : c.toNat - 48 < 10 := by omega
      refine ⟨small, Char.toNat_inj.mp ?_⟩
      rw [Nat.toNat_digitChar_of_lt_ten small]
      omega
    · cases read
  · rintro ⟨small, rfl⟩
    exact digit?_digitChar small

theorem Spells.nil_iff {cs : List Char} : Spells cs [] ↔ cs = [] :=
  ⟨Spells.text, fun empty => ⟨List.forall_mem_nil _, empty⟩⟩

theorem Spells.cons_iff {cs : List Char} {d : Nat} {ds : List Nat} :
    Spells cs (d :: ds) ↔ ∃ c rest, cs = c :: rest ∧ digit? c = some d ∧ Spells rest ds := by
  constructor
  · rintro ⟨small, rfl⟩
    obtain ⟨first, others⟩ := List.forall_mem_cons.mp small
    exact ⟨_, _, rfl, digit?_digitChar first, others, rfl⟩
  · rintro ⟨c, rest, rfl, read, others, rfl⟩
    obtain ⟨first, rfl⟩ := digit?_eq_some_iff.mp read
    exact ⟨List.forall_mem_cons.mpr ⟨first, others⟩, rfl⟩

/-- Digits are read onto the number before them. -/
theorem digits?_eq_some_iff {n m : Nat} {cs : List Char} :
    digits? n cs = some m ↔ ∃ ds, Spells cs ds ∧ m = ds.foldl (fun n d => n * 10 + d) n := by
  induction cs generalizing n with
  | nil =>
    constructor
    · intro read
      exact ⟨[], Spells.nil_iff.mpr rfl, (Option.some.inj read).symm⟩
    · rintro ⟨ds, spells, rfl⟩
      obtain rfl : ds = [] := List.map_eq_nil_iff.mp spells.text.symm
      rfl
  | cons c rest ih =>
    rw [digits?]
    constructor
    · intro read
      cases first : digit? c with
      | none => simp [first] at read
      | some d =>
        rw [first] at read
        obtain ⟨ds, spells, rfl⟩ := ih.mp read
        exact ⟨d :: ds, Spells.cons_iff.mpr ⟨c, rest, rfl, first, spells⟩, rfl⟩
    · rintro ⟨ds, spells, rfl⟩
      cases ds with
      | nil => cases spells.text
      | cons d ds =>
        obtain ⟨c', rest', same, first, spells'⟩ := Spells.cons_iff.mp spells
        cases same
        rw [first]
        exact ih.mpr ⟨ds, spells', rfl⟩

/-- The number that is kept while digits are read is the one that they denote in base ten. -/
theorem foldl_eq_ofDigits (ds : List Nat) :
    ds.foldl (fun n d => n * 10 + d) 0 = Nat.ofDigits 10 ds.reverse := by
  rw [Nat.ofDigits_eq_foldr, List.foldr_reverse]
  congr 1
  funext n d
  rw [Nat.cast_id, Nat.add_comm, Nat.mul_comm]

/-- Digits have no sign in front. -/
theorem Spells.unsigned_eq {cs : List Char} {ds : List Nat} (spells : Spells cs ds) :
    unsigned cs = cs := by
  cases cs with
  | nil => rfl
  | cons c rest =>
    by_cases plus : c = '+'
    · obtain ⟨d, more, rfl⟩ : ∃ d more, ds = d :: more :=
        List.exists_cons_of_ne_nil fun none => nomatch none ▸ spells.text
      obtain ⟨_, _, same, first, -⟩ := Spells.cons_iff.mp spells
      cases same
      rw [plus] at first
      cases first
    · simp [unsigned, plus]

/-- A numeral has digits behind its sign. -/
theorem denotes_iff {cs : List Char} {n : Nat} :
    Denotes cs n ↔ unsigned cs ≠ [] ∧ digits? 0 (unsigned cs) = some n := by
  rw [digits?_eq_some_iff]
  constructor
  · rintro ⟨ds, filled, value, spells⟩
    have behind : Spells (unsigned cs) ds := by
      rcases spells with plain | ⟨rest, rfl, spells⟩
      · rwa [plain.unsigned_eq]
      · exact spells
    refine ⟨fun none => filled ?_, ds, behind, value.trans (foldl_eq_ofDigits ds).symm⟩
    exact List.map_eq_nil_iff.mp (behind.text.symm.trans none)
  · rintro ⟨filled, ds, spells, value⟩
    refine ⟨ds, fun none => ?_, value.trans (foldl_eq_ofDigits ds), ?_⟩
    · rw [none] at spells
      exact filled (Spells.nil_iff.mp spells)
    · by_cases plus : ∃ rest, cs = '+' :: rest
      · obtain ⟨rest, rfl⟩ := plus
        exact Or.inr ⟨rest, rfl, spells⟩
      · have plain : unsigned cs = cs := by
          unfold unsigned
          split
          · exact absurd ⟨_, rfl⟩ plus
          · rfl
        exact Or.inl (plain ▸ spells)

/-- The reader accepts a text exactly if it is a numeral of a number below the bound. -/
theorem parse?_eq_some_iff {bound n : Nat} {s : String} :
    parse? bound s = some n ↔ Denotes s.toList n ∧ n < bound := by
  have unfolded (filled : unsigned s.toList ≠ []) :
      parse? bound s = (digits? 0 (unsigned s.toList)).bind
        fun n => if n < bound then some n else none := by
    unfold parse?
    split
    · exact absurd ‹_› filled
    · cases digits? 0 (unsigned s.toList) <;> rfl
  rw [denotes_iff]
  by_cases filled : unsigned s.toList = []
  · simp [parse?, filled]
  · rw [unfolded filled, Option.bind_eq_some_iff]
    constructor
    · rintro ⟨m, read, fits⟩
      obtain ⟨below, rfl⟩ := Option.ite_none_right_eq_some.mp fits |>.imp id Option.some.inj
      exact ⟨⟨filled, read⟩, below⟩
    · rintro ⟨⟨-, read⟩, below⟩
      exact ⟨n, read, if_pos below⟩

end Jukebox.Text.Numeral
