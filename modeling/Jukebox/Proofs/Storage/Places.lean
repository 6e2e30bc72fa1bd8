import Mathlib.Tactic
import Jukebox.Proofs.Storage.Settling
/-!
# Places without links

Where there are no links, a path names one place, which can be told from its parts and from where it
starts. A walk ends there, if it succeeds. So the file that a path stands for is the one at that
place, and of two siblings neither stands for the other's.

In a tree, where whatever there is lies in a directory, a path that never goes up is read exactly if
there is a file at its place.
-/
namespace Jukebox.Storage

/-- The place that a part of a path leads to from another one. -/
def climb (place : Place) (name : Name) : Place :=
  if name = [dot, dot] then place.dropLast else place ++ [name]

/-- A path that does not go up. -/
def Path.Downward (p : Path) : Prop :=
  [dot, dot] ∉ p.telling

namespace FileSystem

variable {fs fs' : FileSystem} {purpose : Purpose} {links : Nat} {start place last : Place}
  {names : List Name}

/-- The place that a path names. -/
def placeOf (fs : FileSystem) (p : Path) : Place :=
  p.telling.foldl climb (fs.origin p)

def file? (fs : FileSystem) (place : Place) : Option (List UInt8) :=
  match fs.node? place with
  | some (.file content) => some content
  | _ => none

/-- There are no links. -/
def Linkless (fs : FileSystem) : Prop :=
  ∀ place target, fs.node? place ≠ some (.link target)

/-- Whatever there is lies in a directory. -/
def Rooted (fs : FileSystem) : Prop :=
  ∀ place name node, fs.node? (place ++ [name]) = some node → fs.node? place = some .directory

theorem file?_eq_some {content : List UInt8} :
    fs.file? place = some content ↔ fs.node? place = some (.file content) := by
  rw [file?]
  split
  · rename_i found there
    rw [there]
    simp
  · rename_i other
    exact ⟨by rintro ⟨⟩, fun there => absurd there (other content)⟩

theorem file?_congr (same : fs'.node? place = fs.node? place) :
    fs'.file? place = fs.file? place := by
  rw [file?, file?, same]

theorem placeOf_congr (same : fs'.workingDirectory = fs.workingDirectory) (p : Path) :
    fs'.placeOf p = fs.placeOf p := by
  rw [placeOf, placeOf, origin, origin, same]

/-- Siblings lie below one place. -/
theorem placeOf_sibling (fs : FileSystem) {p : Path} {name other : Name}
    (named : p.fileName? = some name) (normal : NormalName name) (normal' : NormalName other) :
    ∃ directory, fs.placeOf p = directory ++ [name] ∧
      fs.placeOf (p.withFileName other) = directory ++ [other] := by
  obtain ⟨⟨names, parts, parts'⟩, absolute⟩ := Path.sibling_eq named normal'
  have origin_eq : fs.origin (p.withFileName other) = fs.origin p := by
    rw [origin, origin, absolute]
  refine ⟨names.foldl climb (fs.origin p), ?_, ?_⟩
  · rw [placeOf, parts, List.foldl_append, List.foldl_cons, List.foldl_nil, climb,
      if_neg normal.not_parent]
  · rw [placeOf, parts', origin_eq, List.foldl_append, List.foldl_cons, List.foldl_nil, climb,
      if_neg normal'.not_parent]

namespace Linkless

variable (linkless : fs.Linkless)

include linkless

/-- A walk ends at the place that its names tell. -/
theorem last_eq (leads : Leads fs purpose links start names last) :
    last = (names.filter tells).foldl climb start := by
  induction leads with
  | here => rfl
  | @stay _ _ _ name _ inside idle _ ih =>
    have idle' : tells name = false := by
      rcases idle with rfl | rfl <;> rfl
    rw [ih, List.filter_cons_of_neg (by simp [idle'])]
  | up inside _ ih =>
    rw [ih, List.filter_cons_of_pos (by decide), List.foldl_cons, climb, if_pos rfl]
  | missing inside entry absent =>
    rw [List.filter_cons_of_pos entry.tells, List.foldl_cons, climb, if_neg entry.not_parent]
    rfl
  | link inside entry there itself => exact absurd there (linkless _ _)
  | follow inside entry no_slash there goes_on _ _ => exact absurd there (linkless _ _)
  | enter inside entry no_slash there no_link _ ih =>
    rw [ih, List.filter_cons_of_pos entry.tells, List.foldl_cons, climb, if_neg entry.not_parent]

/-- What a path leads to is at the place that it names. -/
theorem located {p : Path} {node : Option Node} (found : fs.locate purpose p = .ok (last, node)) :
    last = fs.placeOf p ∧ node = fs.node? (fs.placeOf p) := by
  obtain ⟨-, leads, here⟩ := leads_of_locate found
  have ends := linkless.last_eq leads
  rw [steps_telling] at ends
  obtain rfl : last = fs.placeOf p := ends
  exact ⟨rfl, here⟩

theorem locate_ne {p : Path} (target : Path) :
    fs.locate purpose p ≠ .ok (place, some (.link target)) :=
  fun found => linkless place target (leads_of_locate found).2.2.symm

/-- What is read is the file at the place. -/
theorem file_of_content {p : Path} {content : List UInt8} (read : fs.content p = .ok content) :
    fs.file? (fs.placeOf p) = some content := by
  obtain ⟨last, found⟩ := content_ok.mp read
  exact file?_eq_some.mpr (linkless.located found).2.symm

/-- Where nothing is at its place, a path leads nowhere. -/
theorem not_there {p : Path} (free : fs.node? (fs.placeOf p) = none) : fs.isThere p = false := by
  rw [isThere, stat]
  rcases found : fs.locate .target p with e | ⟨last, node⟩
  · rfl
  · rw [(linkless.located found).2, free]

/-- A file that is moved leaves its place for that of the target, where no directory is. -/
theorem moved_of_renameFile {source target : Path} {content : List UInt8}
    (file : fs.node? (fs.placeOf source) = some (.file content))
    (apart : fs.placeOf source ≠ fs.placeOf target)
    (ran : (Disk.renameFile source target).run fs = (.ok (), fs')) :
    Moved fs (fs.placeOf source) (.file content) (fs.placeOf target) fs' ∧
      fs'.workingDirectory = fs.workingDirectory ∧
      ∃ present, fs.locate .itself target = .ok (fs.placeOf target, present) ∧
        present ≠ some .directory := by
  obtain ⟨origin, node, goal, present, last, found, found', last_name, no_dots, no_trailing, clear,
    rfl⟩ := Disk.renameFile_ran ran
  obtain ⟨rfl, here⟩ := linkless.located found
  obtain rfl : node = .file content := Option.some.inj (here.trans file)
  obtain ⟨-, -, plain⟩ := Disk.target_of_renameFile last_name no_dots fun trailing =>
    no_trailing ⟨by rintro ⟨⟩, trailing⟩
  rw [plain] at found'
  obtain ⟨rfl, present_eq⟩ := linkless.located found'
  have no_directory : present ≠ some .directory := fun inside => clear ⟨inside, by rintro ⟨⟩⟩
  have filled : fs.placeOf source ≠ [] := by
    intro root
    rw [root] at file
    cases file
  have filled' : fs.placeOf target ≠ [] := by
    intro root
    rw [present_eq, root] at no_directory
    exact no_directory rfl
  refine ⟨⟨file, apart, node?_put_self _ filled' _, ?_, fun q other here => ?_⟩,
    put_workingDirectory .., present, found', no_directory⟩
  · rw [node?_put_other _ apart, node?_erase_self _ filled]
  · rw [node?_put_other _ other, node?_erase_other _ here]

end Linkless

/-- A path with nothing to walk is that of the root. -/
theorem exists_step {p : Path} (sane : Sane p) (relative : p.isAbsolute = false) :
    steps p ≠ [] := by
  obtain ⟨_ | ⟨b, rest⟩⟩ := p
  · exact absurd rfl sane.filled
  have other : b ≠ slash := by simpa [Path.isAbsolute] using relative
  have filled : (pieces (b :: rest)).filter (· ≠ []) ≠ [] := by
    rw [pieces, if_neg other]
    split <;> simp
  rw [steps]
  split
  · simp
  · exact filled

namespace Rooted

variable (rooted : fs.Rooted)

include rooted

/-- A walk from a place that is there ends in a directory, or below one. -/
theorem ends_inside (leads : Leads fs purpose links start names last)
    (there : names ≠ [] ∨ fs.node? start ≠ none) :
    fs.node? last = some .directory ∨ fs.node? last.dropLast = some .directory := by
  induction leads with
  | here links place =>
    rcases List.eq_nil_or_concat place with rfl | ⟨above, name, rfl⟩
    · exact Or.inl rfl
    · rw [List.concat_eq_append] at there ⊢
      obtain ⟨node, found⟩ := Option.ne_none_iff_exists'.mp (there.resolve_left fun no => no rfl)
      rw [List.dropLast_concat]
      exact Or.inr (rooted above name node found)
  | stay inside _ _ ih => exact ih (Or.inr (by simp [inside]))
  | @up _ place _ _ inside _ ih =>
    refine ih (Or.inr ?_)
    rcases List.eq_nil_or_concat place with rfl | ⟨above, name, rfl⟩
    · rintro ⟨⟩
    · rw [List.concat_eq_append] at inside ⊢
      rw [List.dropLast_concat, rooted above name _ inside]
      rintro ⟨⟩
  | missing inside => exact Or.inr (by rwa [List.dropLast_concat])
  | link inside => exact Or.inr (by rwa [List.dropLast_concat])
  | follow inside _ _ _ _ _ ih =>
    refine ih (Or.inr ?_)
    split
    · rintro ⟨⟩
    · simp [inside]
  | enter _ _ _ found _ _ ih => exact ih (Or.inr (by simp [found]))

/-- Where a path leads is a directory or lies in one. -/
theorem located {p : Path} {node : Option Node} (found : fs.locate purpose p = .ok (last, node)) :
    fs.node? last = some .directory ∨ fs.node? last.dropLast = some .directory := by
  obtain ⟨sane, leads, -⟩ := leads_of_locate found
  refine rooted.ends_inside leads ?_
  cases absolute : p.isAbsolute with
  | false => exact Or.inl (exists_step sane absolute)
  | true =>
    refine Or.inr ?_
    rw [origin, absolute]
    rintro ⟨⟩

/-- A tree stays one when nodes other than directories change, and what is there then lies in a
directory. -/
theorem of_changed (changed : Place → Prop)
    (same : ∀ q, ¬changed q → fs'.node? q = fs.node? q)
    (plain : ∀ q, changed q → fs.node? q ≠ some .directory)
    (inside : ∀ q name, changed (q ++ [name]) → fs'.node? (q ++ [name]) ≠ none →
      fs.node? q = some .directory) : fs'.Rooted := by
  intro q name node there
  have before : fs.node? q = some .directory := by
    by_cases new : changed (q ++ [name])
    · exact inside q name new (by simp [there])
    · exact rooted q name node ((same _ new).symm.trans there)
  rw [same q fun here => plain q here before, before]

/-- Whatever is above something is a directory. -/
theorem above {node : Node} (there : fs.node? last = some node) (prior : place <+: last)
    (apart : place ≠ last) : fs.node? place = some .directory := by
  obtain ⟨below, rfl⟩ := prior
  induction below using List.reverseRecOn generalizing node with
  | nil => exact absurd (List.append_nil place).symm apart
  | append_singleton below name ih =>
    rw [← List.append_assoc] at there
    have inside := rooted (place ++ below) name node there
    rcases List.eq_nil_or_concat below with rfl | ⟨_, _, rfl⟩
    · rwa [List.append_nil] at inside
    · exact ih inside (by simp)

end Rooted

/-- A walk that does not go up ends below its start. -/
theorem Linkless.start_prefix (linkless : fs.Linkless) (down : [dot, dot] ∉ names)
    (leads : Leads fs purpose links start names last) : start <+: last := by
  induction leads with
  | here => exact List.prefix_rfl
  | stay _ _ _ ih => exact ih (List.not_mem_of_not_mem_cons down)
  | up => exact absurd List.mem_cons_self down
  | missing => exact List.prefix_append _ _
  | link => exact List.prefix_append _ _
  | follow _ _ _ there => exact absurd there (linkless _ _)
  | enter _ _ _ _ _ _ ih =>
    exact (List.prefix_append _ _).trans (ih (List.not_mem_of_not_mem_cons down))

/-- A walk to a file is one of any other file system that has a file there and the directories on
the way. -/
theorem Leads.carry {content content' : List UInt8} (linkless : fs.Linkless)
    (leads : Leads fs .target links start names last)
    (file : fs.node? last = some (.file content)) (file' : fs'.node? last = some (.file content'))
    (inside' : ∀ q, fs.node? q = some .directory → ([dot, dot] ∉ names → q <+: last) →
      fs'.node? q = some .directory) : Leads fs' .target links start names last := by
  induction leads with
  | here => exact .here _ _
  | @stay _ _ _ name rest inside idle later ih =>
    have prior (down : [dot, dot] ∉ name :: rest) :=
      linkless.start_prefix (List.not_mem_of_not_mem_cons down) later
    exact .stay (inside' _ inside prior) idle (ih file file' fun q there on_way =>
      inside' q there fun down => on_way (List.not_mem_of_not_mem_cons down))
  | up inside later ih =>
    have upward {q : Place} {last : Place} {rest : List Name}
        (down : [dot, dot] ∉ [dot, dot] :: rest) : q <+: last :=
      absurd List.mem_cons_self down
    exact .up (inside' _ inside upward) (ih file file' fun q there _ => inside' q there upward)
  | missing _ _ absent =>
    rw [absent] at file
    cases file
  | link _ _ _ itself => cases itself
  | follow _ _ _ there => exact absurd there (linkless _ _)
  | @enter _ place last name node rest inside entry no_slash there no_link later ih =>
    have prior (down : [dot, dot] ∉ name :: rest) :=
      linkless.start_prefix (List.not_mem_of_not_mem_cons down) later
    have again := ih file file' fun q there on_way =>
      inside' q there fun down => on_way (List.not_mem_of_not_mem_cons down)
    have first := inside' _ inside fun down => (List.prefix_append _ _).trans (prior down)
    by_cases further : fs.node? (place ++ [name]) = some .directory
    · exact .enter first entry (by rintro ⟨⟨⟩, -⟩) (inside' _ further prior) (by rintro _ ⟨⟩) again
    · obtain rfl := (later.stuck further).2
      exact .enter first entry (by rintro ⟨⟨⟩, -⟩) file' (by rintro _ ⟨⟩) again

/-- What can be read can be read elsewhere if the file and the directories on the way are there. -/
theorem Linkless.content_carry {p : Path} {content : List UInt8} (linkless : fs.Linkless)
    (directory : fs'.workingDirectory = fs.workingDirectory)
    (same : fs'.file? (fs.placeOf p) = fs.file? (fs.placeOf p))
    (inside' : ∀ q, fs.node? q = some .directory → (p.Downward → q <+: fs.placeOf p) →
      fs'.node? q = some .directory)
    (read : fs.content p = .ok content) : fs'.content p = .ok content := by
  obtain ⟨last, found⟩ := content_ok.mp read
  obtain ⟨sane, leads, file⟩ := leads_of_locate found
  obtain rfl := (linkless.located found).1
  have file' : fs'.node? (fs.placeOf p) = some (.file content) := by
    rw [← file?_eq_some, same, file?_eq_some]
    exact file.symm
  have no_up (down : p.Downward) : [dot, dot] ∉ steps p := by
    intro there
    have tells_up : tells [dot, dot] = true := by decide
    exact down (steps_telling p ▸ List.mem_filter.mpr ⟨there, tells_up⟩)
  have leads' := leads.carry linkless file.symm file' fun q there on_way =>
    inside' q there fun down => on_way (no_up down)
  have origin_eq : fs'.origin p = fs.origin p := by
    rw [origin, origin, directory]
  rw [← origin_eq] at leads'
  exact content_ok.mpr ⟨_, file' ▸ leads'.locate_eq sane⟩

/-- Where directories stay, a file can be read as long as it is there. -/
theorem Linkless.content_kept {p : Path} {content : List UInt8} (linkless : fs.Linkless)
    (directory : fs'.workingDirectory = fs.workingDirectory)
    (inside : ∀ q, fs.node? q = some .directory → fs'.node? q = some .directory)
    (same : fs'.file? (fs.placeOf p) = fs.file? (fs.placeOf p))
    (read : fs.content p = .ok content) : fs'.content p = .ok content :=
  linkless.content_carry directory same (fun q there _ => inside q there) read

/-- In a tree, a path that does not go up is read wherever it names a file. -/
theorem Rooted.content_eq {p : Path} {content : List UInt8} (rooted : fs'.Rooted)
    (linkless : fs.Linkless) (directory : fs'.workingDirectory = fs.workingDirectory)
    (down : p.Downward) (same : fs'.file? (fs.placeOf p) = fs.file? (fs.placeOf p))
    (read : fs.content p = .ok content) : fs'.content p = .ok content := by
  have file := linkless.file_of_content read
  refine linkless.content_carry directory same (fun q there on_way => ?_) read
  refine rooted.above (file?_eq_some.mp (same.trans file)) (on_way down) ?_
  rintro rfl
  rw [file?_eq_some.mp file] at there
  cases there

end FileSystem

end Jukebox.Storage
