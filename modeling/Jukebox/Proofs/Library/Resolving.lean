import Jukebox.Proofs.Storage.Components
import Jukebox.Proofs.Text.Segments
import Jukebox.Proofs.Text.Utf8
/-!
# What a relative path means

A client writes a relative path as text, and the text is read segment by segment. It resolves unless
it starts with a slash or has a segment `..`, and it means the root with the other segments behind
it, of which empty ones and `.` count for nothing. Two texts with a slash in between therefore mean
what the second one means below the first.

A path is cut at its bytes and a text at its characters. Both cuts fall on the same places, as no
character but the slash has the byte of a slash among its bytes.
-/
namespace Jukebox.Library

open Storage Text

/-- The name that a segment of a text stands for. -/
def nameOf (segment : List Char) : Name :=
  bytesOf (String.ofList segment)

theorem nameOf_eq (segment : List Char) :
    nameOf segment = segment.flatMap String.utf8EncodeChar := by
  rw [nameOf, bytesOf_eq, String.toList_ofList]

/-- Different segments stand for different names. -/
theorem nameOf_inj {s t : List Char} : nameOf s = nameOf t ↔ s = t := by
  refine ⟨fun same => ?_, congrArg nameOf⟩
  have read : some (String.ofList s) = some (String.ofList t) := by
    rw [← ofBytes?_bytesOf, ← ofBytes?_bytesOf]
    exact congrArg ofBytes? same
  exact String.ofList_injective (Option.some.inj read)

theorem slash_not_mem_utf8EncodeChar {c : Char} (other : c ≠ '/') :
    slash ∉ String.utf8EncodeChar c := by
  have apart {b : Nat} (byte : b < 256) (differs : b ≠ 47) : slash ≠ UInt8.ofNat b := by
    intro same
    have value := congrArg UInt8.toNat same
    rw [UInt8.toNat_ofNat', Nat.mod_eq_of_lt byte] at value
    exact differs value.symm
  have code : c.val.toNat ≠ 47 := fun same => other (Char.ext (UInt32.toNat_inj.mp same))
  unfold String.utf8EncodeChar
  dsimp only
  generalize c.val.toNat = n at code ⊢
  split_ifs
  all_goals
    simp only [List.mem_cons, List.not_mem_nil, or_false, not_or]
  · exact apart (by omega) code
  · exact ⟨apart (by omega) (by omega), apart (by omega) (by omega)⟩
  · exact ⟨apart (by omega) (by omega), apart (by omega) (by omega), apart (by omega) (by omega)⟩
  · exact ⟨apart (by omega) (by omega), apart (by omega) (by omega), apart (by omega) (by omega),
      apart (by omega) (by omega)⟩

/-- Bytes without a slash belong to the first part of what they stand before. -/
theorem pieces_append {bs : List UInt8} (no_slash : slash ∉ bs) (more : List UInt8) :
    pieces (bs ++ more) = (pieces more).modifyHead (bs ++ ·) := by
  induction bs with
  | nil =>
    rw [List.nil_append]
    exact (congrFun List.modifyHead_id (pieces more)).symm
  | cons b bs ih =>
    obtain ⟨apart, later⟩ := not_or.mp (List.mem_cons.not.mp no_slash)
    rw [List.cons_append, pieces, if_neg (Ne.symm apart), ih later]
    cases parts : pieces more with
    | nil => exact absurd parts (pieces_ne_nil more)
    | cons p rest => rfl

/-- The parts of a path that was made of a text are the names of its segments. -/
theorem pieces_bytesOf (text : String) :
    pieces (bytesOf text) = (segments text.toList).map nameOf := by
  rw [bytesOf_eq]
  induction text.toList with
  | nil => rfl
  | cons c cs ih =>
    rw [List.flatMap_cons, segments]
    by_cases sep : c = '/'
    · have byte : String.utf8EncodeChar '/' = [slash] := rfl
      rw [if_pos sep, sep, byte, List.singleton_append, pieces, if_pos rfl, ih]
      rfl
    · rw [if_neg sep, pieces_append (slash_not_mem_utf8EncodeChar sep), ih]
      cases parts : segments cs with
      | nil => exact absurd parts (segments_ne_nil cs)
      | cons s rest =>
        rw [List.map_cons, List.modifyHead_cons, List.map_cons, nameOf_eq, nameOf_eq,
          List.flatMap_cons]

/-- A path that was made of a text starts at the root if the text starts with a slash. -/
theorem isAbsolute_ofString (text : String) :
    (Path.ofString text).isAbsolute = true ↔ text.toList.head? = some '/' := by
  rw [Path.isAbsolute, decide_eq_true_iff, Path.ofString, bytesOf_eq]
  cases text.toList with
  | nil => simp
  | cons c cs =>
    rw [List.flatMap_cons, List.head?_cons, Option.some_inj]
    obtain ⟨b, bs, encoded⟩ := List.exists_cons_of_ne_nil (String.utf8EncodeChar_ne_nil (c := c))
    rw [encoded, List.cons_append, List.head?_cons, Option.some_inj]
    constructor
    · rintro rfl
      by_contra other
      exact slash_not_mem_utf8EncodeChar other (encoded ▸ List.mem_cons_self)
    · rintro rfl
      exact (List.cons.inj encoded).1.symm

/-- A part of a path counts unless it is empty or a single dot. -/
def counts (part : Name) : Bool :=
  part ≠ [] ∧ part ≠ [dot]

theorem filterMap_ofPiece?_cons (part : Name) (rest : List Name) :
    (part :: rest).filterMap Component.ofPiece? =
      (Component.ofPiece? part).toList ++ rest.filterMap Component.ofPiece? := by
  cases means : Component.ofPiece? part <;> simp [means]

theorem names?_part_append (part : Name) (rest : List Component) :
    names? ((Component.ofPiece? part).toList ++ rest) =
      if part = [dot, dot] then none
      else (names? rest).map ((if counts part then [part] else []) ++ ·) := by
  unfold Component.ofPiece?
  by_cases empty : part = []
  · simp [empty, counts]
  by_cases current : part = [dot]
  · simp [current, counts]
  by_cases parent : part = [dot, dot]
  · simp [parent, names?]
  · simp [empty, current, parent, counts, names?]

/-- Parts append the names that count, unless one of them leads up. -/
theorem names?_parts (parts : List Name) :
    names? (parts.filterMap Component.ofPiece?) =
      if [dot, dot] ∈ parts then none else some (parts.filter counts) := by
  induction parts with
  | nil => rfl
  | cons part rest ih =>
    rw [filterMap_ofPiece?_cons, names?_part_append, ih, List.filter_cons]
    by_cases parent : part = [dot, dot]
    · simp [parent]
    · by_cases later : [dot, dot] ∈ rest
      · simp [later]
      · have neither : [dot, dot] ∉ part :: rest := by simp [Ne.symm parent, later]
        rw [if_neg parent, if_neg later, if_neg neither, Option.map_some]
        by_cases kept : counts part = true <;> simp [kept]

/-- Components append the names that count among the parts of the path, if it is a relative one and
none of its parts leads up. A dot in front is a component of its own and appends nothing. -/
theorem names?_components (p : Path) :
    names? p.components =
      if p.isAbsolute = true ∨ [dot, dot] ∈ pieces p.bytes then none
      else some ((pieces p.bytes).filter counts) := by
  rw [Path.components]
  by_cases absolute : p.isAbsolute = true
  · rw [if_pos absolute, if_pos (Or.inl absolute)]
    rfl
  · rw [if_neg absolute]
    cases parts : pieces p.bytes with
    | nil => exact absurd parts (pieces_ne_nil p.bytes)
    | cons first rest =>
      by_cases current : first = [dot]
      · have rest_only := names?_parts rest
        simp [absolute, current, names?, rest_only, counts]
      · have whole := names?_parts (first :: rest)
        rw [filterMap_ofPiece?_cons] at whole
        simp only [if_neg current, whole, absolute, Bool.false_eq_true, false_or]

def namesOf (text : String) : List Name :=
  ((segments text.toList).filter fun s => s ≠ [] ∧ s ≠ ['.']).map nameOf

theorem filter_counts_names (parts : List (List Char)) :
    (parts.map nameOf).filter counts =
      (parts.filter fun s => s ≠ [] ∧ s ≠ ['.']).map nameOf := by
  rw [List.filter_map]
  congr 2
  funext s
  have empty : nameOf s = [] ↔ s = [] := nameOf_inj (t := [])
  have current : nameOf s = [dot] ↔ s = ['.'] := nameOf_inj (t := ['.'])
  simp only [Function.comp, counts, ne_eq, empty, current]

theorem names?_ofString (text : String) :
    names? (Path.ofString text).components =
      if text.toList.head? = some '/' ∨ ['.', '.'] ∈ segments text.toList then none
      else some (namesOf text) := by
  have leads_up : [dot, dot] ∈ (segments text.toList).map nameOf ↔
      ['.', '.'] ∈ segments text.toList :=
    List.mem_map_of_injective (fun _ _ => nameOf_inj.mp) (a := ['.', '.'])
  have parts : pieces (Path.ofString text).bytes = (segments text.toList).map nameOf :=
    pieces_bytesOf text
  simp only [names?_components, parts, leads_up, isAbsolute_ofString, filter_counts_names,
    namesOf]

/-- What a text resolves to, if it does. -/
theorem resolve?_ofString (root : Path) (text : String) :
    resolve? root (.ofString text) =
      if text.toList.head? = some '/' ∨ ['.', '.'] ∈ segments text.toList then none
      else some (root.pushAll (namesOf text)) := by
  rw [resolve?, names?_ofString]
  split
  · rfl
  · rfl

theorem resolve?_ofString_eq_some_iff {root p : Path} {text : String} :
    resolve? root (.ofString text) = some p ↔
      (text.toList.head? ≠ some '/' ∧ ['.', '.'] ∉ segments text.toList) ∧
        root.pushAll (namesOf text) = p := by
  rw [resolve?_ofString]
  by_cases refused : text.toList.head? = some '/' ∨ ['.', '.'] ∈ segments text.toList
  · rw [if_pos refused]
    exact ⟨nofun, fun free => absurd refused (not_or.mpr free.1)⟩
  · rw [if_neg refused, Option.some_inj]
    exact ⟨fun same => ⟨not_or.mp refused, same⟩, fun found => found.2⟩

/-- Behind the components of the root come the names of the text. -/
theorem components_resolved {root p : Path} {text : String}
    (resolved : resolve? root (.ofString text) = some p) :
    p.components = root.components ++ (namesOf text).map .normal := by
  obtain ⟨⟨relative, inside⟩, rfl⟩ := resolve?_ofString_eq_some_iff.mp resolved
  have found : names? (Path.ofString text).components = some (namesOf text) := by
    rw [names?_ofString, if_neg (not_or.mpr ⟨relative, inside⟩)]
  exact root.components_pushAll fun name there =>
    Path.normal_of_mem_components (mem_of_names? found there)

/-- The names of a text come before those of what follows behind a slash. -/
theorem segments_behind_slash (a b : String) :
    segments (a ++ "/" ++ b).toList = segments a.toList ++ segments b.toList := by
  rw [String.toList_append, String.toList_append, List.append_assoc]
  exact segments_append_slash a.toList b.toList

/-- A path that two texts mean one after the other is the path that they mean with a slash in
between. -/
theorem resolve?_behind_slash {root p q : Path} {a b : String} (nonempty : a ≠ "")
    (first : resolve? root (.ofString a) = some p) (second : resolve? root (.ofString b) = some q) :
    ∃ below, resolve? p (.ofString b) = some below ∧
      resolve? root (.ofString (a ++ "/" ++ b)) = some below := by
  obtain ⟨⟨relative, inside⟩, rfl⟩ := resolve?_ofString_eq_some_iff.mp first
  obtain ⟨further, _⟩ := resolve?_ofString_eq_some_iff.mp second
  refine ⟨(root.pushAll (namesOf a)).pushAll (namesOf b),
    resolve?_ofString_eq_some_iff.mpr ⟨further, rfl⟩,
    resolve?_ofString_eq_some_iff.mpr ⟨⟨?_, ?_⟩, ?_⟩⟩
  · have front : (a ++ "/" ++ b).toList.head? = a.toList.head? := by
      rw [String.toList_append, String.toList_append, List.append_assoc]
      exact List.head?_append_of_ne_nil _ (mt String.toList_eq_nil_iff.mp nonempty)
    rwa [front]
  · rw [segments_behind_slash, List.mem_append]
    exact not_or.mpr ⟨inside, further.2⟩
  · rw [namesOf, segments_behind_slash, List.filter_append, List.map_append]
    exact List.foldl_append

theorem displayName_of_fileName? {p : Path} {name : Name} (named : p.fileName? = some name) :
    displayName p = Text.lossy name := by
  rw [displayName, named]

/-- A file with a text for its name is told under that text, wherever it lies. -/
theorem displayName_push (dir : Path) {title : String} (normal : NormalName (Text.bytesOf title)) :
    displayName (dir.push (Text.bytesOf title)) = title := by
  rw [displayName_of_fileName? (normal.fileName?_push dir), Text.lossy_bytesOf]

/-- A text resolves below a root exactly if it does not start with a slash and none of its segments
is `..`. It then means the root with its other segments behind it, less the empty ones and those
that are a dot. Two texts with a slash in between mean what the second one means below the first. -/
theorem resolves_by_segments (root : Path) :
    (∀ text : String,
      ((resolve? root (.ofString text)).isSome = true ↔
        text.toList.head? ≠ some '/' ∧ ['.', '.'] ∉ segments text.toList) ∧
      ∀ p, resolve? root (.ofString text) = some p →
        p.components = root.components ++
          ((segments text.toList).filter fun s => s ≠ [] ∧ s ≠ ['.']).map
            fun s => .normal (nameOf s)) ∧
    ∀ a b : String, a ≠ "" → ∀ p q, resolve? root (.ofString a) = some p →
      resolve? root (.ofString b) = some q →
        ∃ below, resolve? p (.ofString b) = some below ∧
          resolve? root (.ofString (a ++ "/" ++ b)) = some below := by
  refine ⟨fun text => ⟨?_, fun p resolved => ?_⟩, fun a b nonempty p q first second =>
    resolve?_behind_slash nonempty first second⟩
  · rw [Option.isSome_iff_exists]
    exact ⟨fun ⟨_, resolved⟩ => (resolve?_ofString_eq_some_iff.mp resolved).1,
      fun free => ⟨_, resolve?_ofString_eq_some_iff.mpr ⟨free, rfl⟩⟩⟩
  · rw [components_resolved resolved, namesOf, List.map_map]
    rfl

/-- Dots and slashes more than needed make no difference, below a root that ends in a slash. -/
theorem album_resolves :
    ∃ p q below, resolve? (.ofString "/music/") (.ofString "rock//.") = some p ∧
      resolve? (.ofString "/music/") (.ofString "./live/a.mp3") = some q ∧
      resolve? p (.ofString "./live/a.mp3") = some below ∧
      resolve? (.ofString "/music/") (.ofString ("rock//." ++ "/" ++ "./live/a.mp3")) =
        some below ∧
      below.components = (Path.ofString "/music/rock/live/a.mp3").components := by
  obtain ⟨texts, joined⟩ := resolves_by_segments (.ofString "/music/")
  have first : resolve? (.ofString "/music/") (.ofString "rock//.") =
      some (.ofString "/music/rock") := by decide +kernel
  have second : resolve? (.ofString "/music/") (.ofString "./live/a.mp3") =
      some (.ofString "/music/live/a.mp3") := by decide +kernel
  obtain ⟨below, further, whole⟩ := joined _ _ (by decide) _ _ first second
  refine ⟨_, _, below, first, second, further, whole, ?_⟩
  rw [(texts _).2 below whole]
  decide +kernel

end Jukebox.Library
