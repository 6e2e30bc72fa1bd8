import Mathlib.Tactic
import Jukebox.Library.Media
/-!
# Components of longer paths

Appending a name to a path appends one component to its components, whether or not a slash is put
in between. A relative path resolves to names only, so what it resolves to lies below the root.
-/
namespace Jukebox.Storage

/-- A name that is one component of a path: neither empty nor a dot or two, and without a slash. -/
structure NormalName (name : Name) : Prop where
  nonempty : name ≠ []
  not_current : name ≠ [dot]
  not_parent : name ≠ [dot, dot]
  no_slash : slash ∉ name

/-- A path whose components are those of a root, followed by names only. -/
def Below (root p : Path) : Prop :=
  ∃ names : List Name, (∀ name ∈ names, NormalName name) ∧
    p.components = root.components ++ names.map .normal

theorem pieces_ne_nil (bs : List UInt8) : pieces bs ≠ [] := by
  cases bs with
  | nil => simp [pieces]
  | cons b rest =>
    unfold pieces
    split
    · simp
    · split <;> simp

/-- A slash ends one part and starts another. -/
theorem pieces_append_slash (xs ys : List UInt8) :
    pieces (xs ++ slash :: ys) = pieces xs ++ pieces ys := by
  induction xs with
  | nil => simp [pieces]
  | cons b rest ih =>
    rw [List.cons_append, pieces, pieces, ih]
    by_cases sep : b = slash
    · rw [if_pos sep, if_pos sep, List.cons_append]
    · rw [if_neg sep, if_neg sep]
      cases parts : pieces rest with
      | nil => exact absurd parts (pieces_ne_nil rest)
      | cons p more => rfl

theorem pieces_of_no_slash {bs : List UInt8} (no_slash : slash ∉ bs) : pieces bs = [bs] := by
  induction bs with
  | nil => rfl
  | cons b rest ih =>
    obtain ⟨apart, later⟩ := not_or.mp (List.mem_cons.not.mp no_slash)
    rw [pieces, if_neg (Ne.symm apart), ih later]

theorem no_slash_of_mem_pieces {bs : List UInt8} {p : Name} (there : p ∈ pieces bs) :
    slash ∉ p := by
  induction bs generalizing p with
  | nil => simp_all [pieces]
  | cons b rest ih =>
    rw [pieces] at there
    by_cases sep : b = slash
    · rw [if_pos sep] at there
      rcases List.mem_cons.mp there with rfl | later
      · exact List.not_mem_nil
      · exact ih later
    · rw [if_neg sep] at there
      cases parts : pieces rest with
      | nil => exact absurd parts (pieces_ne_nil rest)
      | cons q more =>
        rw [parts] at ih there
        rcases List.mem_cons.mp there with rfl | later
        · exact List.mem_cons.not.mpr (not_or.mpr ⟨Ne.symm sep, ih List.mem_cons_self⟩)
        · exact ih (List.mem_cons_of_mem q later)

theorem ofPiece?_normal {name : Name} (normal : NormalName name) :
    Component.ofPiece? name = some (.normal name) := by
  rw [Component.ofPiece?, if_neg normal.nonempty, if_neg normal.not_current,
    if_neg normal.not_parent]

theorem normal_of_ofPiece? {p name : Name} (no_slash : slash ∉ p)
    (means : Component.ofPiece? p = some (.normal name)) : NormalName name := by
  unfold Component.ofPiece? at means
  split at means
  · cases means
  split at means
  · cases means
  split at means
  · cases means
  · cases means
    exact ⟨‹_›, ‹_›, ‹_›, no_slash⟩

namespace Path

/-- The names among the components of a path are names. -/
theorem normal_of_mem_components {p : Path} {name : Name}
    (there : .normal name ∈ p.components) : NormalName name := by
  have of_parts {parts : List Name} (among : parts ⊆ pieces p.bytes)
      (found : .normal name ∈ parts.filterMap Component.ofPiece?) : NormalName name := by
    obtain ⟨part, here, means⟩ := List.mem_filterMap.mp found
    exact normal_of_ofPiece? (no_slash_of_mem_pieces (among here)) means
  unfold components at there
  split at there
  · exact of_parts (List.Subset.refl _) (by simpa using there)
  · split at there
    · cases there
    · rename_i first rest parts
      rw [parts] at of_parts
      rcases List.mem_append.mp there with head | tail
      · split at head
        · simp at head
        · have means : Component.ofPiece? first = some (.normal name) := by simpa using head
          have here : first ∈ pieces p.bytes := parts ▸ List.mem_cons_self
          exact normal_of_ofPiece? (no_slash_of_mem_pieces here) means
      · exact of_parts (List.subset_cons_self first rest) tail

/-- What follows a slash appends its own components, unless the slash is the root. -/
theorem normal_of_fileName? {p : Path} {name : Name} (named : p.fileName? = some name) :
    NormalName name := by
  rw [fileName?] at named
  split at named
  · rename_i last ends
    cases named
    exact normal_of_mem_components (List.mem_of_getLast? ends)
  · cases named

theorem components_append_slash {xs : List UInt8} (nonempty : xs ≠ []) (ys : List UInt8) :
    (⟨xs ++ slash :: ys⟩ : Path).components =
      (⟨xs⟩ : Path).components ++ (pieces ys).filterMap Component.ofPiece? := by
  have same : (⟨xs ++ slash :: ys⟩ : Path).isAbsolute = (⟨xs⟩ : Path).isAbsolute := by
    cases xs with
    | nil => exact absurd rfl nonempty
    | cons b rest => rfl
  unfold components
  rw [same, pieces_append_slash]
  split
  · simp
  · cases parts : pieces xs with
    | nil => exact absurd parts (pieces_ne_nil xs)
    | cons first rest => simp

theorem components_root_slash (ys : List UInt8) :
    (⟨slash :: ys⟩ : Path).components = .root :: (pieces ys).filterMap Component.ofPiece? := by
  have absolute : (⟨slash :: ys⟩ : Path).isAbsolute = true := rfl
  rw [components, if_pos absolute]
  rfl

/-- A single name is a relative path of one component. -/
theorem components_name {name : Name} (normal : NormalName name) :
    (⟨name⟩ : Path).components = [.normal name] := by
  have relative : (⟨name⟩ : Path).isAbsolute = false := by
    cases start : name with
    | nil => rfl
    | cons b rest =>
      have apart : b ≠ slash := fun eq => normal.no_slash (by simp [start, eq])
      simpa [isAbsolute] using apart
  rw [components, relative, pieces_of_no_slash normal.no_slash]
  simp [normal.not_current, ofPiece?_normal normal]

/-- One name further down is one component more. -/
theorem components_push (p : Path) {name : Name} (normal : NormalName name) :
    (p.push name).components = p.components ++ [.normal name] := by
  have parts : (pieces name).filterMap Component.ofPiece? = [.normal name] := by
    rw [pieces_of_no_slash normal.no_slash]
    simp [ofPiece?_normal normal]
  obtain ⟨bytes⟩ := p
  rcases List.eq_nil_or_concat bytes with rfl | ⟨xs, last, rfl⟩
  · exact components_name normal
  rw [List.concat_eq_append]
  by_cases sep : last = slash
  · have pushed : (⟨xs ++ [last]⟩ : Path).push name = ⟨xs ++ slash :: name⟩ := by
      simp [push, sep]
    rw [pushed, sep]
    by_cases root : xs = []
    · rw [root, List.nil_append, List.nil_append, components_root_slash, components_root_slash,
        parts]
      rfl
    · have ended := components_append_slash root []
      rw [components_append_slash root, parts, ended]
      simp [pieces, Component.ofPiece?]
  · have pushed : (⟨xs ++ [last]⟩ : Path).push name = ⟨xs ++ [last] ++ slash :: name⟩ := by
      simp [push, sep]
    rw [pushed, components_append_slash (by simp), parts]

theorem components_pushAll (p : Path) {names : List Name}
    (normal : ∀ name ∈ names, NormalName name) :
    (p.pushAll names).components = p.components ++ names.map .normal := by
  unfold pushAll
  induction names generalizing p with
  | nil => simp
  | cons name rest ih =>
    rw [List.foldl_cons, ih _ fun n there => normal n (List.mem_cons_of_mem name there),
      components_push p (normal name List.mem_cons_self)]
    simp

end Path

theorem NormalName.fileName?_push {name : Name} (normal : NormalName name) (dir : Path) :
    (dir.push name).fileName? = some name := by
  rw [Path.fileName?, Path.components_push dir normal, List.getLast?_concat]

namespace Below

variable {root p : Path}

/-- One name further down is still below. -/
theorem push (below : Below root p) {name : Name} (normal : NormalName name) :
    Below root (p.push name) := by
  obtain ⟨names, all_normal, components⟩ := below
  refine ⟨names ++ [name], ?_, ?_⟩
  · intro n there
    rcases List.mem_append.mp there with old | new
    · exact all_normal n old
    · rwa [List.mem_singleton.mp new]
  · rw [Path.components_push p normal, components, List.map_append, List.append_assoc]
    rfl

end Below

end Jukebox.Storage

namespace Jukebox.Library

open Storage

/-- The names that components append are among them. -/
theorem mem_of_names? {cs : List Component} {names : List Name} (found : names? cs = some names)
    {name : Name} (there : name ∈ names) : .normal name ∈ cs := by
  induction cs generalizing names with
  | nil =>
    cases found
    cases there
  | cons c rest ih =>
    cases c with
    | root => cases found
    | parent => cases found
    | current => exact List.mem_cons_of_mem _ (ih found there)
    | normal first =>
      obtain ⟨more, others, rfl⟩ := Option.map_eq_some_iff.mp found
      rcases List.mem_cons.mp there with rfl | later
      · exact List.mem_cons_self
      · exact List.mem_cons_of_mem _ (ih others later)

/-- What a relative path resolves to lies below the root, however the path is written. -/
theorem below_of_resolve? {root relative p : Path} (resolved : resolve? root relative = some p) :
    Below root p := by
  obtain ⟨names, found, rfl⟩ := Option.map_eq_some_iff.mp resolved
  have normal : ∀ name ∈ names, NormalName name :=
    fun name there => Path.normal_of_mem_components (mem_of_names? found there)
  exact ⟨names, normal, root.components_pushAll normal⟩

end Jukebox.Library
