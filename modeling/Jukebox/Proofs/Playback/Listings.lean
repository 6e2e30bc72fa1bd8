import Mathlib.Data.List.TakeWhile
import Jukebox.Playback.Browsing
import Jukebox.Playback.Local
import Jukebox.Proofs.Library.Views
import Jukebox.Proofs.Storage.Walking
import Jukebox.Proofs.Text.Utf8
/-!
# What a listing tells

`Directory` is what there is to know of a directory for a listing: its names, what each leads to and
the tags that are read from it. `Directory.Shows` says which of it is shown, name by name. A listing
tells exactly this, in the order of the bytes of its names, so the order in which a host enumerates
the names makes no difference (`browse_exact`).
-/
namespace Jukebox.Storage

variable {p : Path} {name : Name}

/-- What follows the last dot of a name is its extension, if something stands before it. -/
theorem Path.extension?_of_split {stem after : List UInt8} (named : p.fileName? = some name)
    (split : name = stem ++ dot :: after) (last : dot ∉ after) :
    p.extension? = if stem = [] then none else some after := by
  have reversed : name.reverse = after.reverse ++ dot :: stem.reverse := by simp [split]
  have passed : ∀ b ∈ after.reverse, decide (b ≠ dot) = true := fun b there =>
    decide_eq_true fun same => last (same ▸ List.mem_reverse.mp there)
  have taken : name.reverse.takeWhile (· ≠ dot) = after.reverse := by
    rw [reversed, List.takeWhile_append_of_pos passed]
    simp
  have shorter : after.length < name.length := by
    rw [split, List.length_append, List.length_cons]
    omega
  have before : name.take (name.length - after.length - 1) = stem := by
    have count : name.length - after.length - 1 = stem.length := by
      rw [split, List.length_append, List.length_cons]
      omega
    rw [count, split, List.take_left]
  rw [extension?, named]
  dsimp only
  rw [taken, List.reverse_reverse, before]
  by_cases empty : stem = []
  · rw [if_neg fun both => both.2 empty, if_pos empty]
  · rw [if_pos ⟨shorter, empty⟩, if_neg empty]

theorem Path.extension?_of_no_dot (named : p.fileName? = some name) (none_there : dot ∉ name) :
    p.extension? = none := by
  have passed : ∀ b ∈ name.reverse, decide (b ≠ dot) = true := fun b there =>
    decide_eq_true fun same => none_there (same ▸ List.mem_reverse.mp there)
  have taken : name.reverse.takeWhile (· ≠ dot) = name.reverse :=
    List.takeWhile_eq_self_iff.mpr passed
  rw [extension?, named]
  dsimp only
  rw [taken, List.reverse_reverse, if_neg fun both => Nat.lt_irrefl _ both.1]

/-- A path has the extension of its last name. -/
theorem Path.extension?_eq_some_iff {after : List UInt8} (named : p.fileName? = some name) :
    p.extension? = some after ↔
      ∃ stem, name = stem ++ dot :: after ∧ stem ≠ [] ∧ dot ∉ after := by
  constructor
  · intro found
    by_cases there : dot ∈ name
    · obtain ⟨later, earlier, split, last⟩ :=
        List.eq_append_cons_of_mem (List.mem_reverse.mpr there)
      have whole : name = earlier.reverse ++ dot :: later.reverse := by
        rw [← List.reverse_reverse name, split]
        simp
      have last' : dot ∉ later.reverse := fun mem => last (List.mem_reverse.mp mem)
      rw [extension?_of_split named whole last'] at found
      split at found
      · cases found
      · rename_i stem
        cases found
        exact ⟨_, whole, stem, last'⟩
    · rw [extension?_of_no_dot named there] at found
      cases found
  · rintro ⟨stem, split, nonempty, last⟩
    rw [extension?_of_split named split last, if_neg nonempty]

end Jukebox.Storage

namespace Jukebox.Playback

open Storage

/-- The content of a directory: its names, which stay different where they are shown, and for each
of them what it leads to, if that can be found out, and the tags of the file, if they can be
read. -/
structure Directory where
  names : List Name
  kind : Name → Option Kind
  tags : Name → Except Fault Library.Tags
  normal : ∀ name ∈ names, NormalName name
  distinct : (names.map Text.lossy).Nodup

/-- A name that is not hidden. -/
def Visible (name : Name) : Prop :=
  (Text.lossy name).toList.head? ≠ some '.'

instance (name : Name) : Decidable (Visible name) :=
  inferInstanceAs (Decidable (_ ≠ _))

/-- A name with the extension of a media file, in any case. -/
def NamesMedia (name : Name) : Prop :=
  ∃ stem extension m, name = stem ++ dot :: extension ∧ stem ≠ [] ∧
    m ∈ Library.mediaExtensions ∧ extension.map Library.lowercase = Text.bytesOf m

theorem fileName?_self {name : Name} (normal : NormalName name) :
    (⟨name⟩ : Path).fileName? = some name := by
  rw [Path.fileName?, Path.components_name normal]
  rfl

/-- No extension of a media file has a dot in it. -/
theorem dot_not_mem_of_media {extension : List UInt8} {m : String}
    (media : m ∈ Library.mediaExtensions)
    (same : extension.map Library.lowercase = Text.bytesOf m) : dot ∉ extension := by
  intro there
  have lower : dot ∈ Text.bytesOf m := same ▸ List.mem_map.mpr ⟨dot, there, rfl⟩
  have plain : ∀ m ∈ Library.mediaExtensions, dot ∉ Text.bytesOf m := by decide
  exact plain m media lower

theorem isMediaFile_iff {p : Path} {name : Name} (named : p.fileName? = some name) :
    Library.isMediaFile p = true ↔ NamesMedia name := by
  rw [Library.isMediaFile]
  constructor
  · intro found
    split at found
    · rename_i extension there
      obtain ⟨stem, split, nonempty, -⟩ := (Path.extension?_eq_some_iff named).mp there
      obtain ⟨m, media, same⟩ := List.any_eq_true.mp found
      exact ⟨stem, extension, m, split, nonempty, media, (of_decide_eq_true same).symm⟩
    · cases found
  · rintro ⟨stem, extension, m, split, nonempty, media, same⟩
    have there : p.extension? = some extension :=
      (Path.extension?_eq_some_iff named).mpr
        ⟨stem, split, nonempty, dot_not_mem_of_media media same⟩
    rw [there]
    exact List.any_eq_true.mpr ⟨m, media, decide_eq_true same.symm⟩

namespace Directory

/-- What is shown of a directory: the directories in it, and the media files whose tags can be
read. -/
inductive Shows (d : Directory) : Found → Prop
  | directory {name : Name} (there : name ∈ d.names) (visible : Visible name)
      (leads : d.kind name = some .directory) : Shows d (.directory (Text.lossy name))
  | file {name : Name} {tags : Library.Tags} (there : name ∈ d.names) (visible : Visible name)
      (leads : d.kind name = some .file) (media : NamesMedia name) (read : d.tags name = .ok tags) :
      Shows d (.file ⟨Text.lossy name, some (.complete tags)⟩)

/-- What is shown of one name. -/
def found? (d : Directory) (name : Name) : Option Found :=
  if (Text.lossy name).toList.head? = some '.' then none
  else
    match d.kind name with
    | some .directory => some (.directory (Text.lossy name))
    | some .file =>
      if Library.isMediaFile ⟨name⟩ then
        match d.tags name with
        | .ok tags => some (.file ⟨Text.lossy name, some (.complete tags)⟩)
        | .error _ => none
      else none
    | _ => none

/-- What is shown of a name, and why. -/
theorem found?_cases {d : Directory} {name : Name} {f : Found} (found : d.found? name = some f) :
    Visible name ∧
      (f = .directory (Text.lossy name) ∧ d.kind name = some .directory ∨
        ∃ tags, f = .file ⟨Text.lossy name, some (.complete tags)⟩ ∧ d.kind name = some .file ∧
          Library.isMediaFile ⟨name⟩ = true ∧ d.tags name = .ok tags) := by
  unfold found? at found
  split at found
  · cases found
  · rename_i visible
    refine ⟨visible, ?_⟩
    split at found
    · rename_i leads
      exact Or.inl ⟨(Option.some.inj found).symm, leads⟩
    · rename_i leads
      split at found
      · rename_i media
        split at found
        · rename_i tags read
          exact Or.inr ⟨tags, (Option.some.inj found).symm, leads, media, read⟩
        · cases found
      · cases found
    · cases found

theorem found?_eq_some_iff {d : Directory} {f : Found} :
    (∃ name ∈ d.names, d.found? name = some f) ↔ d.Shows f := by
  constructor
  · rintro ⟨name, there, found⟩
    obtain ⟨visible, ⟨rfl, leads⟩ | ⟨tags, rfl, leads, media, read⟩⟩ := found?_cases found
    · exact .directory there visible leads
    · have named := (isMediaFile_iff (fileName?_self (d.normal name there))).mp media
      exact .file there visible leads named read
  · rintro (⟨there, visible, leads⟩ | ⟨there, visible, leads, media, read⟩)
    · refine ⟨_, there, ?_⟩
      rw [found?, if_neg visible, leads]
    · refine ⟨_, there, ?_⟩
      have listed := (isMediaFile_iff (fileName?_self (d.normal _ there))).mpr media
      rw [found?, if_neg visible, leads]
      dsimp only
      rw [if_pos listed, read]

end Directory

section Yields

variable {ω α β : Type} {still : ω → Prop}

/-- An operation has one answer, as long as nothing of importance changes in the world, which it
does not change either. -/
def Yields (still : ω → Prop) (op : StateM ω α) (answer : α) : Prop :=
  ∀ w, still w → (op w).1 = answer ∧ still (op w).2

theorem Yields.pure (answer : α) : Yields still (Pure.pure answer) answer :=
  fun _ here => ⟨rfl, here⟩

theorem Yields.bind {op : StateM ω α} {next : α → StateM ω β} {a : α} {b : β}
    (first : Yields still op a) (second : Yields still (next a) b) :
    Yields still (op >>= next) b := by
  intro w here
  obtain ⟨answer, later⟩ := first w here
  have run : (op >>= next) w = next (op w).1 (op w).2 := rfl
  rw [run, answer]
  exact second _ later

end Yields

/-- A host shows a directory at a path, with its names in some order. -/
structure Host.Presents {ω : Type} (h : Host ω) (still : ω → Prop) (dir : Path) (d : Directory)
    (order : List Name) : Prop where
  permuted : order.Perm d.names
  listed : Yields still (h.readDirectory dir) (.ok order)
  kinds : ∀ name ∈ d.names, Yields still (h.kindOf? (dir.push name)) (d.kind name)
  tags : ∀ name ∈ d.names, Yields still (h.readTags (dir.push name)) (d.tags name)

section Inspecting

variable {ω : Type} {h : Host ω} {still : ω → Prop} {dir : Path} {d : Directory} {order : List Name}
  (presents : h.Presents still dir d order)

include presents

theorem inspect_yields {name : Name} (there : name ∈ d.names) :
    Yields still (inspect h dir name) (d.found? name) := by
  have media : Library.isMediaFile (dir.push name) = Library.isMediaFile ⟨name⟩ := by
    rw [Bool.eq_iff_iff, isMediaFile_iff ((d.normal name there).fileName?_push dir),
      isMediaFile_iff (fileName?_self (d.normal name there))]
  unfold inspect Directory.found?
  dsimp only
  split
  · exact .pure _
  · refine (presents.kinds name there).bind ?_
    rw [media]
    generalize d.kind name = kind
    rcases kind with _ | (_ | _ | _)
    · exact .pure _
    · dsimp only
      split
      · refine (presents.tags name there).bind ?_
        generalize d.tags name = outcome
        cases outcome <;> exact .pure _
      · exact .pure _
    · exact .pure _
    · exact .pure _

theorem inspectAll_yields {names : List Name} (there : ∀ name ∈ names, name ∈ d.names) :
    Yields still (inspectAll h dir names) (names.filterMap d.found?) := by
  induction names with
  | nil => exact .pure _
  | cons name rest ih =>
    obtain ⟨here, others⟩ := List.forall_mem_cons.mp there
    have all : (name :: rest).filterMap d.found? =
        (d.found? name).toList ++ rest.filterMap d.found? := by
      rw [List.filterMap_cons]
      cases d.found? name <;> rfl
    rw [all]
    exact (inspect_yields presents here).bind ((ih others).bind (.pure _))

theorem browse_yields :
    Yields still (browse h dir) (.ok (Found.listing (order.filterMap d.found?))) := by
  have there (name : Name) (listed : name ∈ order) : name ∈ d.names :=
    presents.permuted.mem_iff.mp listed
  exact presents.listed.bind ((inspectAll_yields presents there).bind (.pure _))

end Inspecting

section Sorting

variable {α β γ : Type}

/-- What is kept of a list has the names of what it is kept from. -/
theorem map_filterMap_sublist {kept? : α → Option β} {kept : β → γ} {name : α → γ}
    (same : ∀ a b, kept? a = some b → kept b = name a) (items : List α) :
    ((items.filterMap kept?).map kept).Sublist (items.map name) := by
  induction items with
  | nil => exact List.Sublist.slnil
  | cons a rest ih =>
    rw [List.filterMap_cons]
    cases found : kept? a with
    | none => exact ih.cons _
    | some b =>
      rw [List.map_cons, List.map_cons, same a b found]
      exact ih.cons_cons _

/-- Items of different names are put in the order of these. -/
theorem sort_increasing (name : α → String) {items : List α} (distinct : (items.map name).Nodup) :
    (items.mergeSort fun a b => decide (name a ≤ name b)).Pairwise (name · < name ·) := by
  have perm := List.mergeSort_perm items fun a b => decide (name a ≤ name b)
  have trans (a b c : α) (first : decide (name a ≤ name b) = true)
      (second : decide (name b ≤ name c) = true) : decide (name a ≤ name c) = true :=
    decide_eq_true (String.le_trans (of_decide_eq_true first) (of_decide_eq_true second))
  have total (a b : α) : (decide (name a ≤ name b) || decide (name b ≤ name a)) = true := by
    rcases String.le_total (name a) (name b) with least | least <;> simp [least]
  have ordered := List.pairwise_mergeSort trans total items
  have apart := List.pairwise_map.mp ((perm.map name).nodup_iff.mpr distinct)
  refine ordered.imp₂ (fun a b least other => ?_) apart
  by_contra most
  exact other (String.le_antisymm (of_decide_eq_true least) (String.not_lt.mp most))

/-- So their order before makes no difference. -/
theorem sort_eq_of_perm (name : α → String) {items items' : List α} (perm : items.Perm items')
    (distinct : (items.map name).Nodup) :
    (items.mergeSort fun a b => decide (name a ≤ name b)) =
      items'.mergeSort fun a b => decide (name a ≤ name b) := by
  have distinct' : (items'.map name).Nodup := (perm.map name).nodup_iff.mp distinct
  refine List.Perm.eq_of_pairwise (fun a b _ _ first second => ?_) (sort_increasing name distinct)
    (sort_increasing name distinct')
    ((List.mergeSort_perm items _).trans (perm.trans (List.mergeSort_perm items' _).symm))
  exact absurd first (String.lt_asymm second)

end Sorting

namespace Found

def shown : Found → String
  | .directory name => name
  | .file info => info.file

variable {found found' : List Found}

theorem mem_directories {name : String} :
    name ∈ directories found ↔ .directory name ∈ found := by
  rw [directories, List.mem_filterMap]
  constructor
  · rintro ⟨_ | _, there, ⟨⟩⟩
    exact there
  · exact fun there => ⟨_, there, rfl⟩

theorem mem_files {info : Library.FileView} : info ∈ files found ↔ .file info ∈ found := by
  rw [files, List.mem_filterMap]
  constructor
  · rintro ⟨_ | _, there, ⟨⟩⟩
    exact there
  · exact fun there => ⟨_, there, rfl⟩

theorem directories_sublist (found : List Found) :
    ((directories found).map id).Sublist (found.map shown) :=
  map_filterMap_sublist (by rintro (_ | _) _ ⟨⟩; rfl) found

theorem files_sublist (found : List Found) :
    ((files found).map (·.file)).Sublist (found.map shown) :=
  map_filterMap_sublist (by rintro (_ | _) _ ⟨⟩; rfl) found

/-- Nodes of different names are listed alike, in whatever order they were found. -/
theorem listing_eq_of_perm (perm : found.Perm found') (distinct : (found.map shown).Nodup) :
    listing found = listing found' := by
  have directories_eq := sort_eq_of_perm id (perm.filterMap _)
    ((directories_sublist found).nodup distinct)
  have files_eq := sort_eq_of_perm Library.FileView.file (perm.filterMap _)
    ((files_sublist found).nodup distinct)
  rw [listing, listing]
  exact congrArg₂ Library.Listing.mk directories_eq files_eq

end Found

namespace Directory

variable (d : Directory)

theorem shown_sublist (names : List Name) :
    ((names.filterMap d.found?).map Found.shown).Sublist (names.map Text.lossy) := by
  refine map_filterMap_sublist (fun name f found => ?_) names
  obtain ⟨-, ⟨rfl, -⟩ | ⟨tags, rfl, -⟩⟩ := found?_cases found <;> rfl

end Directory

/-- A file is shown with the tags that are read from it, cover art included. -/
theorem Directory.shows_file_iff (d : Directory) {name : Name} (there : name ∈ d.names)
    {tags : Library.Tags} :
    (∃ info, d.Shows (.file info) ∧ info.file = Text.lossy name ∧
      info.tags.map Library.TagView.tags = some tags) ↔
    Visible name ∧ d.kind name = some .file ∧ NamesMedia name ∧ d.tags name = .ok tags := by
  constructor
  · rintro ⟨_, ⟨_, _⟩ | ⟨other, visible, leads, media, read⟩, same, told⟩
    obtain rfl := List.inj_on_of_nodup_map d.distinct other there same
    have tags_eq := (Library.TagView.tags_complete _).symm.trans (Option.some.inj told)
    exact ⟨visible, leads, media, tags_eq ▸ read⟩
  · rintro ⟨visible, leads, media, read⟩
    exact ⟨_, .file there visible leads media read, rfl,
      congrArg some (Library.TagView.tags_complete tags)⟩

/-- Listings are exact, for every content of a directory. The directories listed are those in it
that are not hidden, and the files are its media files that are not hidden and whose tags can be
read, with these tags; what cannot be inspected is passed over. Both are in increasing order of the
bytes of their names, so each is there once. Every host that shows this directory, in whatever order
it enumerates the names, comes to this one listing. -/
theorem browse_exact (d : Directory) :
    ∃ listing : Library.Listing,
      (∀ name, name ∈ listing.directories ↔ d.Shows (.directory name)) ∧
      (∀ info, info ∈ listing.files ↔ d.Shows (.file info)) ∧
      (∀ name ∈ d.names, ∀ tags,
        (∃ info ∈ listing.files, info.file = Text.lossy name ∧
          info.tags.map Library.TagView.tags = some tags) ↔
        Visible name ∧ d.kind name = some .file ∧ NamesMedia name ∧ d.tags name = .ok tags) ∧
      (listing.directories.map Text.bytesOf).Pairwise (· < ·) ∧
      (listing.files.map fun info => Text.bytesOf info.file).Pairwise (· < ·) ∧
      ∀ {ω : Type} (h : Host ω) (still : ω → Prop) (dir : Path) (order : List Name) (w : ω),
        h.Presents still dir d order → still w → (browse h dir w).1 = .ok listing := by
  have distinct : ((d.names.filterMap d.found?).map Found.shown).Nodup :=
    (d.shown_sublist d.names).nodup d.distinct
  have shows (f : Found) : f ∈ d.names.filterMap d.found? ↔ d.Shows f := by
    rw [List.mem_filterMap, Directory.found?_eq_some_iff]
  have files (info : Library.FileView) :
      info ∈ (Found.listing (d.names.filterMap d.found?)).files ↔ d.Shows (.file info) := by
    rw [Found.listing, List.mem_mergeSort, Found.mem_files, shows]
  refine ⟨Found.listing (d.names.filterMap d.found?), fun name => ?_, files,
    fun name there tags => ?_, ?_, ?_, ?_⟩
  · rw [Found.listing, List.mem_mergeSort, Found.mem_directories, shows]
  · simp only [files]
    exact d.shows_file_iff there
  · have sorted := sort_increasing id ((Found.directories_sublist _).nodup distinct)
    exact List.pairwise_map.mpr (sorted.imp Text.bytesOf_lt)
  · have sorted := sort_increasing Library.FileView.file ((Found.files_sublist _).nodup distinct)
    exact List.pairwise_map.mpr (sorted.imp Text.bytesOf_lt)
  · intro ω h still dir order w presents ready
    have perm := presents.permuted.symm.filterMap d.found?
    rw [(browse_yields presents w ready).1, Found.listing_eq_of_perm perm distinct]

/-- What there is to know of a directory in a file system, names in the order of their making. -/
def Local.directory (fs : FileSystem) (dir : Path) (names : List Name)
    (normal : ∀ name ∈ names, NormalName name) (distinct : (names.map Text.lossy).Nodup) :
    Directory where
  names
  kind name := (fs.stat (dir.push name)).toOption.map kindOf
  tags name := Library.readTags (dir.push name) (contentOf fs (dir.push name)) true
  normal
  distinct

/-- The host over a file system shows the directories that are in it. -/
theorem Local.presents {fs : FileSystem} {dir : Path} {names : List Name}
    (listed : fs.readDirectory dir = .ok names) (normal : ∀ name ∈ names, NormalName name)
    (distinct : (names.map Text.lossy).Nodup) :
    (host fs).Presents (fun _ => True) dir (directory fs dir names normal distinct) names where
  permuted := .refl names
  listed := by
    rw [← listed]
    exact .pure _
  kinds _ _ := .pure _
  tags _ _ := .pure _

/-- A WAV file of two samples, with a list of one text: the title is `A`. -/
def song : List UInt8 :=
  [82, 73, 70, 70, 0, 0, 0, 0, 87, 65, 86, 69,
    102, 109, 116, 32, 16, 0, 0, 0, 1, 0, 1, 0, 64, 31, 0, 0, 64, 31, 0, 0, 1, 0, 8, 0,
    100, 97, 116, 97, 2, 0, 0, 0, 128, 128,
    76, 73, 83, 84, 14, 0, 0, 0, 73, 78, 70, 79, 73, 78, 65, 77, 2, 0, 0, 0, 65, 0]

def songTags : Library.Tags :=
  ⟨some "A", none, none, none, none, 0, 0, none⟩

theorem song_read {path : Path} (named : Library.fileType? path = some "wav") :
    Library.readTags path (.ok song.toArray) true = .ok songTags := by
  have found : (Library.tagsIn (some "wav") song.toArray).toOption = some songTags := by
    decide +kernel
  have read : Library.tagsIn (some "wav") song.toArray = .ok songTags := by
    cases outcome : Library.tagsIn (some "wav") song.toArray with
    | error flaw => simp [outcome, Except.toOption] at found
    | ok tags => simpa [outcome, Except.toOption] using found
  simp [Library.readTags, named, read, Except.mapError, bind, Except.bind, pure, Except.pure]

/-- A directory with two others, a link that leads nowhere and a file with tags: `/m` with `s`,
`l.mp3`, `b.WAV` and `f`. -/
def rackFiles : FileSystem :=
  ⟨[([[109]], .directory), ([[109], [115]], .directory),
    ([[109], [108, 46, 109, 112, 51]], .link ⟨[110]⟩), ([[109], [98, 46, 87, 65, 86]], .file song),
    ([[109], [102]], .directory)], []⟩

def rackNames : List Name :=
  [[115], [108, 46, 109, 112, 51], [98, 46, 87, 65, 86], [102]]

theorem rack_listed : rackFiles.readDirectory ⟨[47, 109]⟩ = .ok rackNames := by
  have steps : FileSystem.steps ⟨[47, 109]⟩ = [[109]] := by decide
  have reached : rackFiles.walk .target maxLinks [] [[109]] = .ok ([[109]], some .directory) := by
    simp [FileSystem.walk, FileSystem.node?, rackFiles, dot, maxName]
  have found : rackFiles.locate .target ⟨[47, 109]⟩ = .ok ([[109]], some .directory) := by
    simpa [FileSystem.locate, steps, Path.isAbsolute, slash, maxPath] using reached
  rw [FileSystem.readDirectory, found]
  decide

theorem rack_normal : ∀ name ∈ rackNames, NormalName name := by
  intro name there
  have each : ∀ name ∈ rackNames,
      name ≠ [] ∧ name ≠ [dot] ∧ name ≠ [dot, dot] ∧ slash ∉ name := by decide
  obtain ⟨nonempty, not_current, not_parent, no_slash⟩ := each name there
  exact ⟨nonempty, not_current, not_parent, no_slash⟩

theorem rack_distinct : (rackNames.map Text.lossy).Nodup := by decide

def rack : Directory :=
  Local.directory rackFiles ⟨[47, 109]⟩ rackNames rack_normal rack_distinct

def rackPath (name : Name) : Path :=
  ⟨47 :: 109 :: 47 :: name⟩

theorem rack_stat {name : Name} {node : Node} (entry : FileSystem.Entry name)
    (sane : FileSystem.Sane (rackPath name))
    (steps : FileSystem.steps (rackPath name) = [[109], name])
    (there : rackFiles.node? [[109], name] = some node) (no_link : ∀ target, node ≠ .link target) :
    rackFiles.stat (rackPath name) = .ok node := by
  have music : rackFiles.node? [[109]] = some .directory := by decide
  have inside : FileSystem.Leads rackFiles .target maxLinks [] [[109]] [[109]] :=
    .enter rfl ⟨by decide, by decide, by decide⟩ (by rintro ⟨⟨⟩, -⟩) music (by rintro _ ⟨⟩)
      (.here _ _)
  have direct : Purpose.target = .itself ∨
      ∀ target, rackFiles.node? ([[109]] ++ [name]) ≠ some (.link target) :=
    Or.inr fun target link => no_link target (Option.some.inj (there.symm.trans link))
  have located := inside.locate_name sane entry direct steps music
  rw [FileSystem.stat, located, List.cons_append, List.nil_append, there]

theorem rack_directory {b : UInt8} (there : b = 102 ∨ b = 115) :
    rack.kind [b] = some .directory := by
  have stat : rackFiles.stat (rackPath [b]) = .ok .directory := by
    rcases there with rfl | rfl <;>
      exact rack_stat ⟨by decide, by decide, by decide⟩ ⟨by decide, by decide, by decide⟩
        (by decide) (by decide) (by rintro _ ⟨⟩)
  have kind : rack.kind [b] = (rackFiles.stat (rackPath [b])).toOption.map Local.kindOf := rfl
  rw [kind, stat]
  rfl

theorem rack_song :
    rack.kind [98, 46, 87, 65, 86] = some .file ∧ rack.tags [98, 46, 87, 65, 86] = .ok songTags := by
  have stat : rackFiles.stat (rackPath [98, 46, 87, 65, 86]) = .ok (.file song) :=
    rack_stat ⟨by decide, by decide, by decide⟩ ⟨by decide, by decide, by decide⟩ (by decide)
      (by decide) (by rintro _ ⟨⟩)
  have content : Local.contentOf rackFiles (rackPath [98, 46, 87, 65, 86]) = .ok song.toArray := by
    rw [Local.contentOf, FileSystem.content, stat]
    rfl
  have kind : rack.kind [98, 46, 87, 65, 86] =
      (rackFiles.stat (rackPath [98, 46, 87, 65, 86])).toOption.map Local.kindOf := rfl
  have tags : rack.tags [98, 46, 87, 65, 86] = Library.readTags (rackPath [98, 46, 87, 65, 86])
      (Local.contentOf rackFiles (rackPath [98, 46, 87, 65, 86])) true := rfl
  rw [kind, stat, tags, content, song_read (by decide +kernel)]
  exact ⟨rfl, rfl⟩

theorem rack_listing : ∃ listing,
    (browse (Local.host rackFiles) ⟨[47, 109]⟩ (.start (.error ""))).1 = .ok listing ∧
    (∀ name, name ∈ listing.directories ↔ rack.Shows (.directory name)) ∧
    "f" ∈ listing.directories ∧ "s" ∈ listing.directories ∧
    ∃ info ∈ listing.files, info.file = "b.WAV" ∧
      info.tags.map Library.TagView.tags = some ⟨some "A", none, none, none, none, 0, 0, none⟩ := by
  obtain ⟨listing, directories, -, files, -, -, comes⟩ := browse_exact rack
  have presents := Local.presents rack_listed rack_normal rack_distinct
  have told (b : UInt8) (there : b = 102 ∨ b = 115) : Text.lossy [b] ∈ listing.directories := by
    refine (directories _).mpr (.directory ?_ ?_ (rack_directory there))
    · rcases there with rfl | rfl <;> simp [rack, Local.directory, rackNames]
    · rcases there with rfl | rfl <;> decide
  have media : NamesMedia [98, 46, 87, 65, 86] :=
    ⟨[98], [87, 65, 86], "wav", rfl, by decide, by decide, by decide⟩
  have listed := (files [98, 46, 87, 65, 86]
    (by simp [rack, Local.directory, rackNames]) songTags).mpr
    ⟨by decide, rack_song.1, media, rack_song.2⟩
  exact ⟨listing, comes _ _ _ _ _ presents trivial, directories, told 102 (Or.inl rfl),
    told 115 (Or.inr rfl), listed⟩

end Jukebox.Playback
