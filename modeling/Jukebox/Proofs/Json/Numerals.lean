import Mathlib.Tactic
import Jukebox.Json.Printer
import Jukebox.Json.Reader
/-!
# The characters of numbers

A number is printed with digits, signs, a point and a mark of an exponent, or as null if it is not
finite. None of these characters is a blank, closes anything or stands between items.
-/
namespace Jukebox.Json

open Text.Numeral (digit?)

/-- A number is printed without its level. -/
theorem prettyAt_number (n : Number) (level : Nat) : (Value.number n).prettyAt level = n.text := by
  rw [Value.prettyAt]

/-- A character that numbers are printed with. -/
def InNumber (c : Char) : Prop :=
  (digit? c).isSome ∨ c ∈ ['+', '-', '.', 'e', 'E']

instance : DecidablePred InNumber := fun c =>
  inferInstanceAs (Decidable ((digit? c).isSome ∨ c ∈ ['+', '-', '.', 'e', 'E']))

theorem InNumber.ne {c x : Char} (inside : InNumber c) (outside : ¬InNumber x) : c ≠ x := by
  rintro rfl
  exact outside inside

theorem InNumber.solid {c : Char} (inside : InNumber c) : isBlank c = false := by
  have apart {x : Char} := inside.ne (x := x)
  simp [isBlank, apart (x := ' ') (by decide), apart (x := '\n') (by decide),
    apart (x := '\t') (by decide), apart (x := '\r') (by decide)]

theorem digit?_isSome {c : Char} (digit : c.isDigit = true) : (digit? c).isSome := by
  have range : '0' ≤ c ∧ c ≤ '9' := by
    simpa [Char.isDigit, Char.le_def] using digit
  rw [digit?, if_pos range]
  rfl

theorem inNumber_of_mem_toDigits {n : Nat} {c : Char} (there : c ∈ Nat.toDigits 10 n) :
    InNumber c :=
  Or.inl (digit?_isSome (Nat.isDigit_of_mem_toDigits (by decide) (by decide) there))

/-- A text of such characters, and of one at least. -/
def Numeric (cs : List Char) : Prop :=
  cs ≠ [] ∧ ∀ c ∈ cs, InNumber c

namespace Numeric

variable {c : Char} {cs rest : List Char}

theorem cons (first : InNumber c) (others : ∀ c ∈ cs, InNumber c) : Numeric (c :: cs) :=
  ⟨List.cons_ne_nil c cs, List.forall_mem_cons.mpr ⟨first, others⟩⟩

theorem toDigits (n : Nat) : Numeric (Nat.toDigits 10 n) :=
  ⟨Nat.toDigits_ne_nil, fun _ there => inNumber_of_mem_toDigits there⟩

theorem signed {sign : List Char} (sign_fits : ∀ c ∈ sign, InNumber c) (numeric : Numeric cs) :
    Numeric (sign ++ cs) :=
  ⟨List.append_ne_nil_of_right_ne_nil sign numeric.1,
    List.forall_mem_append.mpr ⟨sign_fits, numeric.2⟩⟩

end Numeric

theorem inNumber_single {c : Char} (inside : InNumber c) : ∀ c' ∈ [c], InNumber c' :=
  List.forall_mem_singleton.mpr inside

theorem inNumber_zeros (n : Nat) : ∀ c ∈ List.replicate n '0', InNumber c := by
  intro c there
  rw [List.eq_of_mem_replicate there]
  decide

theorem numeric_exponent (e : Int) : Numeric (realLayout.exponentText e) := by
  refine .cons (by decide) (List.forall_mem_append.mpr ⟨?_, (Numeric.toDigits _).2⟩)
  split
  · exact inNumber_single (by decide)
  · exact inNumber_single (by decide)

/-- However digits are laid out, the text is one of a number. -/
theorem numeric_digits {ds : List Char} (digits : Numeric ds) (e : Int) :
    Numeric (realLayout.digitsText ds e) := by
  obtain ⟨filled, inside⟩ := digits
  have padded (n : Nat) : ∀ c ∈ ds ++ List.replicate n '0', InNumber c :=
    List.forall_mem_append.mpr ⟨inside, inNumber_zeros n⟩
  unfold Decimal.Layout.digitsText
  split
  · split
    · refine .cons (by decide) (List.forall_mem_cons.mpr ⟨by decide, ?_⟩)
      exact List.forall_mem_append.mpr ⟨inNumber_zeros _, inside⟩
    · refine .signed (fun c there => padded _ c (List.mem_of_mem_take there)) (.cons (by decide) ?_)
      split
      · exact inNumber_single (by decide)
      · exact fun c there => padded _ c (List.mem_of_mem_drop there)
  · cases ds with
    | nil => exact absurd rfl filled
    | cons d more =>
      obtain ⟨first, others⟩ := List.forall_mem_cons.mp inside
      cases more with
      | nil => exact .cons first (numeric_exponent e).2
      | cons d' more =>
        refine .cons first (List.forall_mem_cons.mpr ⟨by decide, ?_⟩)
        exact List.forall_mem_append.mpr ⟨others, (numeric_exponent e).2⟩

/-- A number is printed as one, or as null. -/
theorem Number.text_cases (n : Number) : n.text = "null".toList ∨ Numeric n.text := by
  cases n with
  | integer n =>
    refine Or.inr ?_
    rw [text]
    split
    · exact .cons (by decide) (Numeric.toDigits _).2
    · exact .toDigits _
  | real x =>
    rw [text, Decimal.Layout.text]
    dsimp only
    by_cases undefined : Decimal.exponentField x.toBits = 2047
    · rw [if_pos undefined]
      exact Or.inl rfl
    · have sign : ∀ c ∈ (if Decimal.isNegative x.toBits then ['-'] else []), InNumber c := by
        split
        · exact inNumber_single (by decide)
        · exact List.forall_mem_nil _
      rw [if_neg undefined]
      refine Or.inr ?_
      by_cases zero : (Decimal.Binary.ofBits x.toBits).mantissa = 0
      · rw [if_pos zero]
        exact .signed sign (numeric_digits (.toDigits 0) 0)
      · rw [if_neg zero]
        exact .signed sign (numeric_digits (.toDigits _) _)

end Jukebox.Json
