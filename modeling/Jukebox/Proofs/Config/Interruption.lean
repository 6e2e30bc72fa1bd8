import Mathlib.Logic.Relation
import Jukebox.Proofs.Config.Outcomes
import Jukebox.Proofs.Storage.Places
/-!
# A save that is interrupted

A save is not done at once. `Progress` is a save at some moment, and `Progress.Step` what can
happen next: a directory more is made, more or less of the sibling file is written, an action is
done, or it fails with any error. A save may be interrupted at every such moment, and what it leaves
then is what the next start finds.

Without links the path of the store and that of its sibling name different places, so nothing but
the last action, which cannot be done in part, touches the file of the store.
-/
namespace Jukebox.Config.Store

open Storage FileSystem

structure Progress where
  store : Store
  files : FileSystem
  left : List Action
  result : Option (Except Fault Unit)

namespace Progress

/-- Before anything was done. A path that does not name a file is refused at once. -/
def start (s : Store) (fs : FileSystem) : Progress :=
  match s.path.fileName? with
  | none => ⟨s, fs, [], some (.error (.config (s.path.display ++ " does not name a file")))⟩
  | some name => ⟨s, fs, s.saveActions name, none⟩

inductive Step : Progress → Progress → Prop
  | done {s : Store} {files files' : FileSystem} {a : Action} {rest : List Action}
      (ran : a.run.run files = (.ok (), files')) :
      Step ⟨s, files, a :: rest, none⟩ ⟨s, files', rest, none⟩
  | made {s : Store} {files : FileSystem} {q p : Path} {place : Place} {rest : List Action}
      (found : files.locate .itself p = .ok (place, none)) :
      Step ⟨s, files, .makeDirectories q :: rest, none⟩
        ⟨s, files.put place .directory, .makeDirectories q :: rest, none⟩
  | wrote {s : Store} {files : FileSystem} {q : Path} {content part : List UInt8} {place : Place}
      {node : Option Node} {rest : List Action}
      (found : files.locate .creation q = .ok (place, node))
      (free : node = none ∨ ∃ old, node = some (.file old)) (first : part <+: content) :
      Step ⟨s, files, .writeFile q content :: rest, none⟩
        ⟨s, files.put place (.file part), .writeFile q content :: rest, none⟩
  | failed {s : Store} {files : FileSystem} {a : Action} {rest : List Action} (e : SystemError) :
      Step ⟨s, files, a :: rest, none⟩ ⟨s, files, a :: rest, some (.error (.io e))⟩
  | returned {s : Store} {files : FileSystem} :
      Step ⟨s, files, [], none⟩ ⟨s, files, [], some (.ok ())⟩

/-- Some steps on the way. -/
abbrev Reaches : Progress → Progress → Prop :=
  Relation.ReflTransGen Step

end Progress

/-- A file system that a save made of another one: there are no links, the directories are there,
and it is a tree if the other one was. -/
structure Kept (fs files : FileSystem) : Prop where
  linkless : files.Linkless
  directory : files.workingDirectory = fs.workingDirectory
  inside : ∀ q, fs.node? q = some .directory → files.node? q = some .directory
  rooted : fs.Rooted → files.Rooted

/-- How far a save is. The file of the store is what it was until everything is done. -/
inductive Stage (s : Store) (fs : FileSystem) : Progress → Prop
  | refused {files : FileSystem} {left : List Action} {f : Fault}
      (same : files.file? (fs.placeOf s.path) = fs.file? (fs.placeOf s.path)) :
      Stage s fs ⟨s, files, left, some (.error f)⟩
  | preparing {files : FileSystem} {left : List Action} {name : Name} (parents : List Action)
      (same : files.file? (fs.placeOf s.path) = fs.file? (fs.placeOf s.path))
      (named : s.path.fileName? = some name)
      (only : ∀ a ∈ parents, ∃ q, a = .makeDirectories q)
      (left_eq : left = parents ++ [.writeFile (s.temporaryPath name) s.text,
        .renameFile (s.temporaryPath name) s.path]) :
      Stage s fs ⟨s, files, left, none⟩
  | written {before files : FileSystem} {left : List Action} {name : Name}
      (same : files.file? (fs.placeOf s.path) = fs.file? (fs.placeOf s.path))
      (named : s.path.fileName? = some name) (kept : Kept fs before)
      (wrote : (Disk.writeFile (s.temporaryPath name) s.text).run before = (.ok (), files))
      (left_eq : left = [.renameFile (s.temporaryPath name) s.path]) :
      Stage s fs ⟨s, files, left, none⟩
  | moved {files : FileSystem} {result : Option (Except Fault Unit)} {name : Name}
      (named : s.path.fileName? = some name)
      (now : files.file? (fs.placeOf s.path) = some s.text)
      (read : files.content s.path = .ok s.text)
      (gone : files.node? (fs.placeOf (s.temporaryPath name)) = none)
      (ended : result = none ∨ result = some (.ok ())) :
      Stage s fs ⟨s, files, [], result⟩

variable {s : Store} {fs files files' : FileSystem} {place : Place} {name : Name}

namespace Kept

theorem refl (linkless : fs.Linkless) : Kept fs fs :=
  ⟨linkless, rfl, fun _ => id, id⟩

variable (kept : Kept fs files)

include kept

theorem placeOf_eq (p : Path) : files.placeOf p = fs.placeOf p :=
  placeOf_congr kept.directory p

/-- Nodes other than directories may change, and be put into directories. -/
theorem of_changed (changed : Place → Prop)
    (directory' : files'.workingDirectory = files.workingDirectory)
    (same : ∀ q, ¬changed q → files'.node? q = files.node? q)
    (outside : ∀ q, changed q → files.node? q ≠ some .directory)
    (plain : ∀ q target, changed q → files'.node? q ≠ some (.link target))
    (inside : files.Rooted → ∀ q name, changed (q ++ [name]) → files'.node? (q ++ [name]) ≠ none →
      files.node? q = some .directory) : Kept fs files' where
  linkless q target there := by
    by_cases here : changed q
    · exact plain q target here there
    · exact kept.linkless q target ((same q here).symm.trans there)
  directory := directory'.trans kept.directory
  inside q there := by
    have before := kept.inside q there
    rw [same q fun here => outside q here before, before]
  rooted tree := (kept.rooted tree).of_changed changed same outside (inside (kept.rooted tree))

/-- Where a directory is made, a file may be written or another one be put. -/
theorem put {purpose : Purpose} {p : Path} {node : Node} {was : Option Node}
    (found : files.locate purpose p = .ok (place, was)) (free : was ≠ some .directory)
    (plain : ∀ target, node ≠ .link target) : Kept fs (files.put place node) := by
  have outside : files.node? place ≠ some .directory := by
    rwa [← (leads_of_locate found).2.2]
  have filled : place ≠ [] := by
    rintro rfl
    exact outside rfl
  refine kept.of_changed (· = place) (put_workingDirectory ..)
    (fun q apart => node?_put_other _ apart _) (by rintro _ rfl; exact outside) ?_ ?_
  · rintro _ target rfl there
    rw [node?_put_self _ filled] at there
    exact plain target (Option.some.inj there)
  · rintro rooted q name rfl -
    have inside := (rooted.located found).resolve_left outside
    rwa [List.dropLast_concat] at inside

end Kept

/-- A directory that is made where nothing was is no file. -/
theorem file?_put_directory (free : files.node? place = none) (q : Place) :
    (files.put place .directory).file? q = files.file? q := by
  by_cases here : q = place
  · subst here
    have filled : q ≠ [] := by
      rintro rfl
      cases free
    rw [file?, file?, node?_put_self _ filled, free]
  · exact file?_congr (node?_put_other _ here _)

/-- The file and its sibling lie beside each other. -/
theorem exists_siblings (fs : FileSystem) (named : s.path.fileName? = some name) :
    ∃ directory, fs.placeOf s.path = directory ++ [name] ∧
      fs.placeOf (s.temporaryPath name) = directory ++ [name ++ temporarySuffix] :=
  fs.placeOf_sibling named (Path.normal_of_fileName? named) (temporary_normal named)

theorem siblings_ne (fs : FileSystem) (named : s.path.fileName? = some name) :
    fs.placeOf (s.temporaryPath name) ≠ fs.placeOf s.path := by
  obtain ⟨directory, here, sibling⟩ := exists_siblings fs named
  rw [sibling, here]
  intro same
  exact temporary_ne name (List.head_eq_of_cons_eq (List.append_cancel_left same))

section Effects

variable (kept : Kept fs files)

include kept

/-- Making directories, whatever comes of it, changes no file. -/
theorem Kept.directories_made {fuel : Nat} {q : Path} {result : Except SystemError Unit}
    (ran : (Disk.makeDirectories fuel q).run files = (result, files')) :
    Kept fs files' ∧ ∀ place, files'.file? place = files.file? place := by
  have keeps := Disk.makeDirectories_keeps
    (P := fun g => Kept fs g ∧ ∀ place, g.file? place = files.file? place)
    (fun g p place found before => ⟨before.1.put found (by rintro ⟨⟩) (by rintro _ ⟨⟩),
      fun q => (file?_put_directory (leads_of_locate found).2.2.symm q).trans (before.2 q)⟩)
    fuel q files ⟨kept, fun _ => rfl⟩
  rwa [ran] at keeps

/-- Whatever is written to the sibling, the file of the store is not touched. -/
theorem Kept.sibling_put (named : s.path.fileName? = some name) {node : Option Node}
    (part : List UInt8)
    (found : files.locate .creation (s.temporaryPath name) = .ok (place, node))
    (free : node = none ∨ ∃ old, node = some (.file old)) :
    Kept fs (files.put place (.file part)) ∧
      (files.put place (.file part)).file? (fs.placeOf s.path) =
        files.file? (fs.placeOf s.path) := by
  have outside : node ≠ some .directory := by
    rcases free with rfl | ⟨old, rfl⟩ <;> rintro ⟨⟩
  refine ⟨kept.put found outside (by rintro _ ⟨⟩), file?_congr (node?_put_other _ ?_ _)⟩
  rw [(kept.linkless.located found).1, kept.placeOf_eq]
  exact (siblings_ne fs named).symm

end Effects

/-- The sibling, moved over the file of the store, leaves its own place free. -/
theorem Kept.sibling_moved {before : FileSystem} (kept : Kept fs before)
    (named : s.path.fileName? = some name)
    (wrote : (Disk.writeFile (s.temporaryPath name) s.text).run before = (.ok (), files))
    (ran : (Disk.renameFile (s.temporaryPath name) s.path).run files = (.ok (), files')) :
    Kept fs files' ∧ files'.file? (fs.placeOf s.path) = some s.text ∧
      files'.node? (fs.placeOf (s.temporaryPath name)) = none := by
  obtain ⟨place, node, created, free, rfl⟩ := Disk.writeFile_ran wrote
  have kept₁ := (kept.sibling_put named s.text created free).1
  have there : (before.put place (.file s.text)).node? (fs.placeOf (s.temporaryPath name)) =
      some (.file s.text) := by
    obtain ⟨directory, -, at_sibling⟩ := exists_siblings fs named
    rw [(kept.linkless.located created).1, kept.placeOf_eq]
    exact node?_put_self _ (by simp [at_sibling]) _
  generalize before.put place (.file s.text) = files at *
  have apart := siblings_ne files named
  rw [← kept₁.placeOf_eq] at there
  rw [← kept₁.placeOf_eq, ← kept₁.placeOf_eq]
  obtain ⟨moved, directory', present, located, clear⟩ :=
    kept₁.linkless.moved_of_renameFile there apart ran
  refine ⟨?_, file?_eq_some.mpr moved.here, moved.gone⟩
  refine kept₁.of_changed
    (fun q => q = files.placeOf s.path ∨ q = files.placeOf (s.temporaryPath name)) directory'
    ?_ ?_ ?_ ?_
  · exact fun q other => moved.elsewhere q (not_or.mp other).1 (not_or.mp other).2
  · rintro _ (rfl | rfl)
    · rwa [← (leads_of_locate located).2.2]
    · rw [there]
      rintro ⟨⟩
  · rintro _ target (rfl | rfl)
    · rw [moved.here]
      rintro ⟨⟩
    · rw [moved.gone]
      rintro ⟨⟩
  · rintro rooted q last (below | below) filled
    · have inside := (rooted.located located).resolve_left
        (by rwa [← (leads_of_locate located).2.2])
      rwa [← below, List.dropLast_concat] at inside
    · exact absurd (below ▸ moved.gone) filled

namespace Stage

/-- Before anything was done, the file of the store is as it was. -/
theorem start (s : Store) (fs : FileSystem) : s.Stage fs (.start s fs) := by
  rw [Progress.start]
  split
  · exact .refused rfl
  · rename_i name named
    refine .preparing _ rfl named (fun a there => ?_) rfl
    split at there
    · split at there
      · cases there
      · exact ⟨_, List.mem_singleton.mp there⟩
    · cases there

/-- One more step of a save, wherever it is. -/
theorem step {p p' : Progress} (kept : Kept fs p.files) (stage : s.Stage fs p)
    (step : Progress.Step p p') : Kept fs p'.files ∧ s.Stage fs p' := by
  cases step with
  | done ran =>
    cases stage with
    | @preparing _ _ _ parents same named only left_eq =>
      cases parents with
      | nil =>
        obtain ⟨rfl, rfl⟩ := List.cons.inj left_eq
        obtain ⟨place, node, found, free, rfl⟩ := Disk.writeFile_ran ran
        obtain ⟨kept', untouched⟩ := kept.sibling_put named s.text found free
        exact ⟨kept', .written (untouched.trans same) named kept ran rfl⟩
      | cons a parents =>
        obtain ⟨rfl, rfl⟩ := List.cons.inj left_eq
        obtain ⟨q, rfl⟩ := only _ List.mem_cons_self
        obtain ⟨kept', files_eq⟩ := kept.directories_made ran
        exact ⟨kept', .preparing _ ((files_eq _).trans same) named
          (fun a there => only a (List.mem_cons_of_mem _ there)) rfl⟩
    | written same named kept₀ wrote left_eq =>
      obtain ⟨rfl, rfl⟩ := List.cons.inj left_eq
      obtain ⟨kept', now, gone⟩ := kept₀.sibling_moved named wrote ran
      obtain ⟨names, directory, settled⟩ := Disk.settled_of_runs named (temporary_normal named)
        (temporary_ne _) (fun _ target => kept₀.linkless.locate_ne target)
        (fun _ target located => absurd located (kept₀.linkless.locate_ne target)) wrote ran
      have read := Disk.content_of_settled settled named (temporary_normal named) (temporary_ne _)
        wrote ran
      exact ⟨kept', .moved named now read gone (Or.inl rfl)⟩
  | made found =>
    cases stage with
    | preparing _ same named only left_eq =>
      have files_eq := file?_put_directory (leads_of_locate found).2.2.symm (fs.placeOf s.path)
      exact ⟨kept.put found (by rintro ⟨⟩) (by rintro _ ⟨⟩),
        .preparing _ (files_eq.trans same) named only left_eq⟩
    | written same named kept₀ wrote left_eq => cases left_eq
  | wrote found free first =>
    cases stage with
    | @preparing _ _ _ parents same named only left_eq =>
      obtain rfl : parents = [] := by
        rcases parents with _ | ⟨a, parents⟩
        · rfl
        · obtain ⟨q, rfl⟩ := only a List.mem_cons_self
          cases left_eq
      cases left_eq
      obtain ⟨kept', untouched⟩ := kept.sibling_put named _ found free
      exact ⟨kept', .preparing [] (untouched.trans same) named nofun rfl⟩
    | written same named kept₀ wrote left_eq => cases left_eq
  | failed e =>
    cases stage with
    | preparing _ same | written same => exact ⟨kept, .refused same⟩
  | returned =>
    cases stage with
    | preparing _ same named only left_eq => simp at left_eq
    | written same named kept₀ wrote left_eq => cases left_eq
    | moved named now read gone ended => exact ⟨kept, .moved named now read gone (Or.inr rfl)⟩

/-- Wherever a save came, it is at one of the stages. -/
theorem of_reaches {p : Progress} (linkless : fs.Linkless)
    (reached : Progress.Reaches (.start s fs) p) : Kept fs p.files ∧ s.Stage fs p := by
  induction reached with
  | refl =>
    have files_eq : (Progress.start s fs).files = fs := by
      rw [Progress.start]
      split <;> rfl
    exact ⟨by rw [files_eq]; exact .refl linkless, start s fs⟩
  | tail _ next ih => exact ih.2.step ih.1 next

end Stage

namespace Progress

variable {left : List Action}

/-- What an action that fails has done was done on the way. -/
theorem reaches_of_failed {a : Action} {e : SystemError}
    (ran : a.run.run files = (.error e, files')) :
    Reaches ⟨s, files, a :: left, none⟩ ⟨s, files', a :: left, none⟩ := by
  cases a with
  | makeDirectories q =>
    have keeps := Disk.makeDirectories_keeps
      (P := fun g => Reaches ⟨s, files, .makeDirectories q :: left, none⟩
        ⟨s, g, .makeDirectories q :: left, none⟩)
      (fun g p place found before => before.tail (.made found)) q.components.length q files .refl
    have after : (Disk.makeDirectories q.components.length q).run files = (.error e, files') := ran
    rwa [after] at keeps
  | writeFile q content => rw [Disk.writeFile_failed ran]
  | renameFile source target => rw [Disk.renameFile_failed ran]

/-- Actions are performed step by step. -/
theorem reaches_of_runAll {result : Except SystemError Unit}
    (ran : (runAll left).run files = (result, files')) :
    ∃ left', Reaches ⟨s, files, left, none⟩
      ⟨s, files', left', some (result.mapError Fault.io)⟩ := by
  induction left generalizing files with
  | nil =>
    cases ran
    exact ⟨[], .single .returned⟩
  | cons a rest ih =>
    cases result with
    | ok u =>
      obtain ⟨between, first, later⟩ := runAll_cons ran
      obtain ⟨left', reached⟩ := ih later
      exact ⟨left', .head (.done first) reached⟩
    | error e =>
      rcases runAll_error ran with failed | ⟨between, first, later⟩
      · exact ⟨a :: rest, (reaches_of_failed failed).tail (.failed e)⟩
      · obtain ⟨left', reached⟩ := ih later
        exact ⟨left', .head (.done first) reached⟩

/-- A save that is not interrupted comes to its end in steps. -/
theorem reaches_of_save {result : Except Fault Unit} (ran : s.save.run fs = (result, files')) :
    ∃ left, Reaches (start s fs) ⟨s, files', left, some result⟩ := by
  rw [start]
  cases named : s.path.fileName? with
  | none =>
    rw [save, named] at ran
    cases ran
    exact ⟨[], .refl⟩
  | some name =>
    rw [save_run named] at ran
    cases ran
    exact reaches_of_runAll rfl

end Progress

/-- What is found at a path is as it was. What could be read still can be, and what can be read was
there. In a tree, as long as the path does not go up, it could be read, too; a path that does may
lead through a directory that was made since. -/
structure Unchanged (fs files : FileSystem) (p : Path) : Prop where
  file : files.file? (fs.placeOf p) = fs.file? (fs.placeOf p)
  still : ∀ content, fs.content p = .ok content → files.content p = .ok content
  there : ∀ content, files.content p = .ok content → fs.file? (fs.placeOf p) = some content
  only : fs.Rooted → p.Downward → ∀ content, files.content p = .ok content →
    fs.content p = .ok content

structure Holds (files : FileSystem) (p : Path) (content : List UInt8) : Prop where
  file : files.file? (files.placeOf p) = some content
  read : files.content p = .ok content

theorem Kept.unchanged (linkless : fs.Linkless) (kept : Kept fs files)
    (same : files.file? (fs.placeOf s.path) = fs.file? (fs.placeOf s.path)) :
    Unchanged fs files s.path where
  file := same
  still _ := linkless.content_kept kept.directory kept.inside same
  there _ read := by rw [← same, ← kept.placeOf_eq, kept.linkless.file_of_content read]
  only rooted down _ := rooted.content_eq kept.linkless kept.directory.symm down
    (by rw [kept.placeOf_eq, same])

/-- A save is atomic. It goes through the steps of a progress, and wherever it is interrupted or
fails, what is found at the path of the store is what was there before or the text of the document.
After an error it is what was there before, and after a success the text, without a sibling. The
text is the whole document: it is read back as that, and so is the file after a success. -/
theorem save_atomic (linkless : fs.Linkless) :
    (s.document.Sorted → s.Rereads →
      Json.Value.parseBytes? s.text = some (.object s.document)) ∧
    (∀ result files', s.save.run fs = (result, files') →
      ∃ left, Progress.Reaches (.start s fs) ⟨s, files', left, some result⟩) ∧
    ∀ p, Progress.Reaches (.start s fs) p →
      p.store = s ∧
      (Unchanged fs p.files s.path ∨ Holds p.files s.path s.text) ∧
      (∀ f, p.result = some (.error f) → Unchanged fs p.files s.path) ∧
      (p.result = some (.ok ()) → Holds p.files s.path s.text ∧
        (s.document.Sorted → s.Rereads → openAt p.files s.path = s) ∧
        ∃ name, s.path.fileName? = some name ∧
          p.files.node? (p.files.placeOf (s.temporaryPath name)) = none ∧
          p.files.isThere (s.temporaryPath name) = false) := by
  refine ⟨parseBytes?_text, fun result files' => Progress.reaches_of_save, fun p reached => ?_⟩
  obtain ⟨kept, stage⟩ := Stage.of_reaches linkless reached
  cases stage with
  | refused same =>
    have unchanged := kept.unchanged linkless same
    exact ⟨rfl, Or.inl unchanged, fun _ _ => unchanged, nofun⟩
  | preparing _ same | written same =>
    exact ⟨rfl, Or.inl (kept.unchanged linkless same), nofun, nofun⟩
  | moved named now read gone ended =>
    rw [← kept.placeOf_eq] at now gone
    refine ⟨rfl, Or.inr ⟨now, read⟩, fun f failed => ?_, fun _ => ⟨⟨now, read⟩, ?_, _, named, gone,
      kept.linkless.not_there gone⟩⟩
    · rcases ended with rfl | rfl <;> cases failed
    · exact fun sorted rereads => openAt_of_content sorted rereads read

/-- A configuration file with an empty document. -/
def bare : FileSystem :=
  ⟨[([plainName], .file [123, 125])], []⟩

theorem bare_linkless : bare.Linkless := by
  intro place target there
  rw [node?] at there
  split at there
  · cases there
  · by_cases here : place = [plainName]
    · simp [bare, here] at there
    · have apart : (place == [plainName]) = false := by simpa using here
      rw [bare, List.lookup_cons, apart] at there
      cases there

theorem bare_content : bare.content plainPath = .ok [123, 125] :=
  content_plain rfl (by simp [node?, bare])

theorem bare_sibling : bare.node? [siblingName] = none := by
  simpa [node?, bare] using siblings_apart

/-- A store of a document with a section. -/
def switched : Store :=
  ⟨plainPath, [("a", .bool true)]⟩

theorem switched_sorted : switched.document.Sorted :=
  List.pairwise_singleton _ _

theorem switched_rereads : switched.Rereads := by
  intro m there
  obtain rfl := List.mem_singleton.mp there
  exact ⟨trivial, by decide⟩

/-- The text of the document, over three lines. -/
theorem switched_text : switched.text =
    [123, 10, 32, 32, 34, 97, 34, 58, 32, 116, 114, 117, 101, 10, 125] := by
  rw [text, Text.bytesOf_eq]
  decide

/-- After the first line of the text no space is left. -/
theorem switched_cut_off : Progress.Reaches (.start switched bare)
    ⟨switched, bare.put [siblingName] (.file [123, 10]),
      [.writeFile siblingPath switched.text, .renameFile siblingPath plainPath],
      some (.error (.io (.code 28)))⟩ := by
  have begins : Progress.start switched bare = ⟨switched, bare,
      [.writeFile siblingPath switched.text, .renameFile siblingPath plainPath], none⟩ := by
    have named : switched.path.fileName? = some plainName := plainPath_named
    rw [Progress.start]
    simp only [named, saveActions_alone (s := switched) plainPath_alone,
      temporaryPath_plain (s := switched) rfl]
    rfl
  have found : bare.locate .creation siblingPath = .ok ([siblingName], none) :=
    bare_sibling ▸ siblingPath_plain.locate_eq rfl
      (Or.inr (by rw [bare_sibling]; rintro target ⟨⟩))
  have first : [123, 10] <+: switched.text := by
    rw [switched_text]
    decide
  rw [begins]
  exact .tail (.single (.wrote found (Or.inl rfl) first)) (.failed (.code 28))

/-- The file is as it was after a save that is cut off, and has the document after one that is
not. -/
theorem switched_save_atomic :
    bare.content plainPath = .ok [123, 125] ∧
    (∃ p, Progress.Reaches (.start switched bare) p ∧
      p.result = some (.error (.io (.code 28))) ∧
      p.files.node? [siblingName] = some (.file [123, 10]) ∧
      p.files.content plainPath = .ok [123, 125]) ∧
    ∃ p, Progress.Reaches (.start switched bare) p ∧ p.result = some (.ok ()) ∧
      p.files.content plainPath =
        .ok [123, 10, 32, 32, 34, 97, 34, 58, 32, 116, 114, 117, 101, 10, 125] ∧
      (openAt p.files plainPath).document = [("a", .bool true)] ∧
      p.files.isThere siblingPath = false := by
  obtain ⟨-, ends, atomic⟩ := save_atomic (s := switched) bare_linkless
  refine ⟨bare_content, ⟨_, switched_cut_off, rfl, ?_, ?_⟩, ?_⟩
  · exact node?_put_self _ (List.cons_ne_nil siblingName []) _
  · obtain ⟨-, -, failed, -⟩ := atomic _ switched_cut_off
    exact (failed _ rfl).still _ bare_content
  · obtain ⟨files, saved⟩ : ∃ files, switched.save.run bare = (.ok (), files) :=
      save_free rfl rfl bare_sibling (by simp [node?, bare])
    obtain ⟨left, reached⟩ := ends _ _ saved
    obtain ⟨-, -, -, succeeded⟩ := atomic _ reached
    obtain ⟨⟨-, read⟩, reopened, name, named, -, gone⟩ := succeeded rfl
    obtain rfl : plainName = name := Option.some.inj (plainPath_named.symm.trans named)
    rw [temporaryPath_plain rfl] at gone
    have document := congrArg Store.document (reopened switched_sorted switched_rereads)
    exact ⟨_, reached, rfl, switched_text ▸ read, document, gone⟩

end Jukebox.Config.Store
