import Jukebox.Text.Segments
/-!
# Slashes and segments

What is left of a text without its outer slashes, said without the functions that take them off, and
why cutting a text into its segments loses nothing: `segments` and `joined` are the splitting and
joining of lists at one character, so a text that goes on behind a slash has the segments of both
parts.
-/
namespace Jukebox.Text

/-- `rest` is a text without its leading slashes. -/
structure TrimsLeft (cs rest : List Char) : Prop where
  slashes : ∃ k, cs = List.replicate k '/' ++ rest
  bare : rest.head? ≠ some '/'

/-- `rest` is a text without its trailing slashes. -/
structure TrimsRight (cs rest : List Char) : Prop where
  slashes : ∃ k, cs = rest ++ List.replicate k '/'
  bare : rest.getLast? ≠ some '/'

/-- `rest` is a text without its leading slashes and then without its trailing ones. -/
def TrimsBoth (cs rest : List Char) : Prop :=
  ∃ behind, TrimsLeft cs behind ∧ TrimsRight behind rest

section Trimming

variable {cs rest : List Char}

theorem trimLeft_replicate_append (k : Nat) (bare : rest.head? ≠ some '/') :
    trimLeft (List.replicate k '/' ++ rest) = rest := by
  have slashes : ∀ c ∈ List.replicate k '/', decide (c = '/') = true := fun c there =>
    decide_eq_true (List.eq_of_mem_replicate there)
  rw [trimLeft, List.dropWhile_append_of_pos slashes]
  cases rest with
  | nil => rfl
  | cons c more =>
    have other : c ≠ '/' := fun same => bare (congrArg some same)
    exact List.dropWhile_cons_of_neg (by simpa using other)

theorem trimsLeft_trimLeft (cs : List Char) : TrimsLeft cs (trimLeft cs) where
  slashes := by
    have slashes : cs.takeWhile (· = '/') =
        List.replicate (cs.takeWhile (· = '/')).length '/' :=
      List.eq_replicate_iff.mpr ⟨rfl, fun c there => by
        simpa using List.all_eq_true.mp List.all_takeWhile c there⟩
    refine ⟨(cs.takeWhile (· = '/')).length, ?_⟩
    rw [← slashes]
    exact List.takeWhile_append_dropWhile.symm
  bare := by
    have stopped := List.head?_dropWhile_not (fun c => decide (c = '/')) cs
    rw [trimLeft]
    intro first
    rw [first] at stopped
    simp at stopped

theorem trimsLeft_iff : TrimsLeft cs rest ↔ trimLeft cs = rest := by
  constructor
  · rintro ⟨⟨k, rfl⟩, bare⟩
    exact trimLeft_replicate_append k bare
  · rintro rfl
    exact trimsLeft_trimLeft cs

/-- Slashes are trimmed from the right as they are from the left of the reversed text. -/
theorem trimsRight_iff_reverse : TrimsRight cs rest ↔ TrimsLeft cs.reverse rest.reverse := by
  have same (k : Nat) : cs = rest ++ List.replicate k '/' ↔
      cs.reverse = List.replicate k '/' ++ rest.reverse := by
    rw [← List.reverse_inj, List.reverse_append, List.reverse_replicate]
  constructor
  · rintro ⟨⟨k, ends⟩, bare⟩
    exact ⟨⟨k, (same k).mp ends⟩, by rwa [List.head?_reverse]⟩
  · rintro ⟨⟨k, starts⟩, bare⟩
    exact ⟨⟨k, (same k).mpr starts⟩, by rwa [List.head?_reverse] at bare⟩

theorem trimsRight_iff : TrimsRight cs rest ↔ trimRight cs = rest := by
  rw [trimsRight_iff_reverse, trimsLeft_iff, trimRight, ← trimLeft, List.reverse_eq_iff]

theorem trimsBoth_iff : TrimsBoth cs rest ↔ trimBoth cs = rest := by
  simp only [TrimsBoth, trimsLeft_iff, trimsRight_iff, trimBoth, exists_eq_left']

end Trimming

/-- What is left has a slash at neither end. -/
theorem TrimsBoth.bare {cs rest : List Char} (trims : TrimsBoth cs rest) :
    rest.head? ≠ some '/' ∧ rest.getLast? ≠ some '/' := by
  obtain ⟨behind, left, right⟩ := trims
  refine ⟨fun first => left.bare ?_, right.bare⟩
  obtain ⟨k, rfl⟩ := right.slashes
  rw [List.head?_append, first]
  rfl

theorem segments_eq_splitOn (cs : List Char) : segments cs = cs.splitOn '/' := by
  induction cs with
  | nil => rfl
  | cons c cs ih =>
    rw [segments, List.splitOn_cons_eq_if_modifyHead, ih]
    by_cases slash : c = '/'
    · simp [slash]
    · cases parts : cs.splitOn '/' with
      | nil => exact absurd parts (List.splitOn_ne_nil '/' cs)
      | cons s rest => simp [slash]

theorem joined_cons (s : List Char) {rest : List (List Char)} (more : rest ≠ []) :
    joined (s :: rest) = s ++ '/' :: joined rest := by
  cases rest with
  | nil => exact absurd rfl more
  | cons s' rest => rfl

theorem joined_eq_intercalate (parts : List (List Char)) :
    joined parts = ['/'].intercalate parts := by
  induction parts with
  | nil => rfl
  | cons s rest ih =>
    by_cases alone : rest = []
    · rw [alone, List.intercalate_singleton]
      rfl
    · rw [joined_cons s alone, ih, List.intercalate_cons_of_ne_nil alone, List.append_assoc]
      rfl

/-- Cutting a text into segments loses nothing. -/
@[simp] theorem joined_segments (cs : List Char) : joined (segments cs) = cs := by
  rw [joined_eq_intercalate, segments_eq_splitOn, List.intercalate_splitOn]

@[simp] theorem segments_ne_nil (cs : List Char) : segments cs ≠ [] := by
  rw [segments_eq_splitOn]
  exact List.splitOn_ne_nil '/' cs

/-- The text behind a slash has its segments behind those of the text before. -/
theorem segments_append_slash (cs more : List Char) :
    segments (cs ++ '/' :: more) = segments cs ++ segments more := by
  simp only [segments_eq_splitOn, List.splitOn_append_cons_self]

/-- Each slash at the end opens an empty segment. -/
theorem segments_append_replicate (cs : List Char) (k : Nat) :
    segments (cs ++ List.replicate k '/') = segments cs ++ List.replicate k [] := by
  induction k with
  | zero => simp
  | succ k ih =>
    rw [List.replicate_succ', ← List.append_assoc, segments_append_slash, ih, List.append_assoc,
      List.replicate_succ']
    rfl

/-- Empty segments at the end are no more than the lack of segments. -/
theorem getD_append_replicate (parts : List (List Char)) (k i : Nat) :
    (parts ++ List.replicate k []).getD i [] = parts.getD i [] := by
  simp only [List.getD_eq_getElem?_getD, List.getElem?_append, List.getElem?_replicate]
  split
  · rfl
  · rename_i behind
    rw [List.getElem?_eq_none (Nat.le_of_not_lt behind)]
    split <;> rfl

theorem joined_append {first more : List (List Char)} (some_first : first ≠ [])
    (some_more : more ≠ []) : joined (first ++ more) = joined first ++ '/' :: joined more := by
  induction first with
  | nil => exact absurd rfl some_first
  | cons s rest ih =>
    by_cases alone : rest = []
    · rw [alone, List.singleton_append, joined_cons s some_more]
      rfl
    · rw [List.cons_append, joined_cons s (List.append_ne_nil_of_left_ne_nil alone more),
        joined_cons s alone, ih alone, List.append_assoc, List.cons_append]

/-- A text starts with the segments of another one, and `resource` is what the segments behind them
join to, exactly if it is that text, or goes on behind it with a slash and `resource`. -/
theorem exists_segments_iff {stem cs resource : List Char} :
    (∃ rest, segments cs = segments stem ++ rest ∧ resource = joined rest) ↔
      cs = stem ∧ resource = [] ∨ cs = stem ++ '/' :: resource := by
  constructor
  · rintro ⟨rest, split, rfl⟩
    have whole : cs = joined (segments stem ++ rest) := by rw [← split, joined_segments]
    cases rest with
    | nil =>
      rw [List.append_nil, joined_segments] at whole
      exact Or.inl ⟨whole, rfl⟩
    | cons s rest =>
      rw [joined_append (segments_ne_nil stem) (List.cons_ne_nil s rest), joined_segments] at whole
      exact Or.inr whole
  · rintro (⟨rfl, rfl⟩ | rfl)
    · exact ⟨[], (List.append_nil _).symm, rfl⟩
    · exact ⟨segments resource, segments_append_slash stem resource,
        (joined_segments resource).symm⟩

theorem dropStem?_eq_some_iff {stem cs rest : List Char} :
    dropStem? stem cs = some rest ↔ cs = stem ++ rest := by
  induction stem generalizing cs with
  | nil => rw [dropStem?, Option.some_inj, List.nil_append]
  | cons p ps ih =>
    cases cs with
    | nil => simp [dropStem?]
    | cons c cs =>
      rw [dropStem?, List.cons_append, List.cons_eq_cons]
      by_cases same : p = c
      · rw [if_pos same, ih, same]
        exact (and_iff_right rfl).symm
      · rw [if_neg same]
        simp [Ne.symm same]

end Jukebox.Text
