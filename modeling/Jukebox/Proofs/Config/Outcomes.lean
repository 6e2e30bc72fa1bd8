import Mathlib.Tactic
import Jukebox.Proofs.Config.Saving
import Jukebox.Proofs.Storage.Places
/-!
# What a save can leave

A save may fail at any of its steps, and links may lead it astray. Whatever comes of it, every file
is one that was there before or has the text of the document, and the path of the store leads to its
old content, to that text, or to no file. After a save that succeeds it is the text, or no file; and
once it is the text, saving the document again leaves it there.
-/
namespace Jukebox.Config.Store

open Storage FileSystem

variable {s : Store} {fs fs' fs'' : FileSystem} {old found : List UInt8}

/-- A file system to which directories were added. -/
def Grown (fs fs' : FileSystem) : Prop :=
  ∀ P : FileSystem → Prop,
    (∀ fs place, fs.node? place = none → P fs → P (fs.put place .directory)) → P fs → P fs'

namespace Grown

theorem refl (fs : FileSystem) : Grown fs fs :=
  fun _ _ before => before

theorem content_eq (grown : Grown fs fs') {p : Path} (before : fs.content p = .ok old) :
    fs'.content p = .ok old := by
  refine grown (·.content p = .ok old) (fun fs place free before => ?_) before
  obtain ⟨goal, located⟩ := content_ok.mp before
  obtain ⟨sane, leads, file⟩ := leads_of_locate located
  have kept (q : Place) (node : Node) (there : fs.node? q = some node) :
      (fs.put place .directory).node? q = some node := by
    refine (node?_put_other fs ?_ _).trans there
    rintro rfl
    rw [free] at there
    cases there
  have leads' := leads.grow kept (by rw [← file]; rintro ⟨⟩)
  rw [← origin_put place .directory] at leads'
  exact content_ok.mpr ⟨goal, kept _ _ file.symm ▸ leads'.locate_eq sane⟩

theorem file_before (grown : Grown fs fs') {q : Place} (file : fs'.node? q = some (.file found)) :
    fs.node? q = some (.file found) := by
  refine grown (fun g => g.node? q = some (.file found) → fs.node? q = some (.file found))
    (fun g place free before there => before ?_) id file
  by_cases here : q = place
  · subst here
    have filled : q ≠ [] := by
      rintro rfl
      cases free
    rw [node?_put_self g filled] at there
    cases there
  · rwa [node?_put_other g here] at there

end Grown

/-- How far a save came: to some directories at most, to the sibling file, or to its end. -/
inductive Ends (s : Store) (fs : FileSystem) : Except Fault Unit → FileSystem → Prop
  | unwritten {f : Fault} {fs₁ : FileSystem} (grown : Grown fs fs₁) : Ends s fs (.error f) fs₁
  | unmoved {f : Fault} {name : Name} {fs₁ fs₂ : FileSystem} (grown : Grown fs fs₁)
      (wrote : (Disk.writeFile (s.temporaryPath name) s.text).run fs₁ = (.ok (), fs₂)) :
      Ends s fs (.error f) fs₂
  | moved {name : Name} {fs₁ fs₂ fs₃ : FileSystem} (grown : Grown fs fs₁)
      (named : s.path.fileName? = some name)
      (wrote : (Disk.writeFile (s.temporaryPath name) s.text).run fs₁ = (.ok (), fs₂))
      (ran : (Disk.renameFile (s.temporaryPath name) s.path).run fs₂ = (.ok (), fs₃)) :
      Ends s fs (.ok ()) fs₃

theorem runAll_error {a : Action} {rest : List Action} {e : SystemError}
    (ran : (runAll (a :: rest)).run fs = (.error e, fs')) :
    a.run.run fs = (.error e, fs') ∨
      ∃ fs₁, a.run.run fs = (.ok (), fs₁) ∧ (runAll rest).run fs₁ = (.error e, fs') := by
  rcases Disk.bind_error ran with failed | ⟨⟨⟩, fs₁, first, later⟩
  · exact Or.inl failed
  · exact Or.inr ⟨fs₁, first, later⟩

/-- The two last steps of a save that fails. -/
theorem ends_of_error {name : Name} {fs₁ : FileSystem} {e : SystemError} {f : Fault}
    (grown : Grown fs fs₁)
    (ran : (runAll [.writeFile (s.temporaryPath name) s.text,
      .renameFile (s.temporaryPath name) s.path]).run fs₁ = (.error e, fs')) :
    s.Ends fs (.error f) fs' := by
  rcases runAll_error ran with failed | ⟨fs₂, wrote, ran⟩
  · rw [Disk.writeFile_failed failed]
    exact .unwritten grown
  rcases runAll_error ran with failed | ⟨fs₃, -, ended⟩
  · rw [Disk.renameFile_failed failed]
    exact .unmoved grown wrote
  · cases ended

theorem makeDirectories_grown {result : Except SystemError Unit} {fuel : Nat} {p : Path}
    (ran : (Disk.makeDirectories fuel p).run fs = (result, fs')) : Grown fs fs' := by
  intro P grows before
  have kept := Disk.makeDirectories_keeps (fun fs p place found =>
    grows fs place (leads_of_locate found).2.2.symm) fuel p fs before
  rwa [ran] at kept

theorem makeParents_grown (p : Path) : Grown fs ((Disk.makeParents p).run fs).2 := by
  rw [Disk.makeParents]
  split
  · exact makeDirectories_grown rfl
  · exact .refl fs

/-- Every save ends in one of these ways. -/
theorem ends_of_save {result : Except Fault Unit} (ran : s.save.run fs = (result, fs')) :
    s.Ends fs result fs' := by
  cases named : s.path.fileName? with
  | none =>
    rw [save, named] at ran
    cases ran
    exact .unwritten (.refl fs)
  | some name =>
    have unfolded : s.save.run fs = _ := save_run named
    rcases outcome : (runAll (s.saveActions name)).run fs with ⟨e | ⟨⟩, fs₁⟩
    · rw [unfolded, outcome] at ran
      cases ran
      rw [saveActions] at outcome
      split at outcome
      · split at outcome
        · exact ends_of_error (.refl fs) outcome
        · rcases runAll_error outcome with failed | ⟨fs₁, made, ran⟩
          · exact .unwritten (makeDirectories_grown failed)
          · exact ends_of_error (makeDirectories_grown made) ran
      · exact ends_of_error (.refl fs) outcome
    · have saved : s.save.run fs = (.ok (), fs₁) := by
        rw [unfolded, outcome]
        rfl
      obtain ⟨fs₂, wrote, moved⟩ := save_ran named saved
      cases saved.symm.trans ran
      exact .moved (makeParents_grown s.path) named wrote moved

/-- Nothing but the text is written. -/
theorem eq_text_of_mem_saveActions {name : Name} {p : Path} {content : List UInt8}
    (written : .writeFile p content ∈ s.saveActions name) : content = s.text := by
  rcases List.mem_append.mp written with parents | last
  · split at parents
    · split at parents <;> simp at parents
    · cases parents
  · simp at last
    exact last.2

/-- The sibling has another name than the file. -/
theorem temporary_ne (name : Name) : name ++ temporarySuffix ≠ name := by
  intro same
  have filled : temporarySuffix ≠ [] := by
    rw [temporarySuffix, Text.bytesOf_eq]
    decide
  exact filled (List.append_right_eq_self.mp same)

/-- After a save that succeeds, the path of the store leads to the text, or to no file. -/
theorem text_of_saved (saved : s.save.run fs = (.ok (), fs'))
    (readable : fs'.content s.path = .ok found) : found = s.text := by
  cases ends_of_save saved with
  | moved grown named wrote ran =>
    exact Disk.content_of_landed named (temporary_normal named) (temporary_ne _) wrote ran readable

/-- Links do not lead a save astray: once the directories are there, the sibling is no link, and if
there is one at the path itself, then it leads to a file. -/
def Straight (path : Path) (fs : FileSystem) : Prop :=
  ∀ name, path.fileName? = some name →
    let ready := ((Disk.makeParents path).run fs).2
    (∀ place target, ready.locate .itself (path.withFileName (name ++ temporarySuffix)) ≠
      .ok (place, some (.link target))) ∧
    ∀ place target, ready.locate .itself path = .ok (place, some (.link target)) →
      ∃ links last content, ready.walk .target links place.dropLast [name] =
        .ok (last, some (.file content))

theorem straight_of_linkless (linkless : fs.Linkless) (path : Path) : Straight path fs := by
  intro name _ ready
  have linkless' : ready.Linkless := by
    refine makeParents_grown path Linkless (fun g made free before place target there => ?_)
      linkless
    by_cases here : place = made
    · subst here
      have filled : place ≠ [] := by
        rintro rfl
        cases free
      rw [node?_put_self g filled] at there
      cases there
    · rw [node?_put_other g here] at there
      exact before place target there
  exact ⟨fun _ target => linkless'.locate_ne target,
    fun _ target located => absurd located (linkless'.locate_ne target)⟩

theorem straight_empty (path : Path) : Straight path .empty := by
  refine straight_of_linkless (fun place target there => ?_) path
  cases place <;> cases there

/-- A save that succeeds leaves the text at the path of the store, unless links lead it astray. -/
theorem content_of_saved (saved : s.save.run fs = (.ok (), fs')) (straight : Straight s.path fs) :
    fs'.content s.path = .ok s.text := by
  cases named : s.path.fileName? with
  | none =>
    rw [save, named] at saved
    cases saved
  | some name =>
    obtain ⟨fs₁, wrote, ran⟩ := save_ran named saved
    obtain ⟨no_link, file_link⟩ := straight name named
    obtain ⟨names, directory, settled⟩ := Disk.settled_of_runs named (temporary_normal named)
      (temporary_ne _) no_link file_link wrote ran
    exact Disk.content_of_settled settled named (temporary_normal named) (temporary_ne _) wrote ran

/-- A save that succeeds leaves the sibling's place free, if the path of the store leads to a file
after it. -/
theorem settled_of_saved (saved : s.save.run fs = (.ok (), fs'))
    (readable : fs'.content s.path = .ok found) :
    ∃ name names directory, s.path.fileName? = some name ∧
      Settled fs' s.path name (name ++ temporarySuffix) names directory := by
  cases ends_of_save saved with
  | moved grown named wrote ran =>
    obtain ⟨names, directory, settled⟩ := Disk.settled_of_landed named (temporary_normal named)
      (temporary_ne _) wrote ran readable
    exact ⟨_, names, directory, named, settled⟩

/-- Saving a document again, whether it succeeds or not, leaves the text that the first save left. -/
theorem content_of_saved_again {result : Except Fault Unit}
    (saved : s.save.run fs = (.ok (), fs')) (readable : fs'.content s.path = .ok found)
    (again : s.save.run fs' = (result, fs'')) : fs''.content s.path = .ok found := by
  have same := text_of_saved saved readable
  cases ends_of_save again with
  | unwritten grown => exact grown.content_eq readable
  | unmoved grown wrote =>
    obtain ⟨place, written, -, origin_eq⟩ := Disk.overwritten_of_writeFile wrote
    rcases written.content_eq (origin_eq s.path) (grown.content_eq readable) with kept | new
    · exact kept
    · rw [same]
      exact new
  | @moved name fs₁ fs₂ fs₃ grown named wrote ran =>
    obtain ⟨name', names, directory, named', settled⟩ := settled_of_saved saved readable
    obtain rfl : name = name' := Option.some.inj (named.symm.trans named')
    have settled₁ := grown (Settled · s.path name (name ++ temporarySuffix) names directory)
      (fun _ _ free settled => settled.put_directory free) settled
    rw [same]
    exact Disk.content_of_settled settled₁ named (temporary_normal named) (temporary_ne _) wrote ran

/-- After any save, the path of the store leads to what it led to, to the text, or to no file. -/
theorem content_of_save {result : Except Fault Unit} (ran : s.save.run fs = (result, fs'))
    (before : fs.content s.path = .ok old) (readable : fs'.content s.path = .ok found) :
    found = old ∨ found = s.text := by
  cases ends_of_save ran with
  | unwritten grown =>
    rw [grown.content_eq before] at readable
    exact Or.inl (Except.ok.inj readable).symm
  | unmoved grown wrote =>
    obtain ⟨place, written, -, origin_eq⟩ := Disk.overwritten_of_writeFile wrote
    rcases written.content_eq (origin_eq s.path) (grown.content_eq before) with same | new
    · exact Or.inl (Except.ok.inj (readable.symm.trans same))
    · exact Or.inr (Except.ok.inj (readable.symm.trans new))
  | moved => exact Or.inr (text_of_saved ran readable)

/-- After any save, a file is one that was there before or has the text. -/
theorem files_of_save {result : Except Fault Unit} (ran : s.save.run fs = (result, fs')) {q : Place}
    (file : fs'.node? q = some (.file found)) :
    fs.node? q = some (.file found) ∨ found = s.text := by
  have of_write {name : Name} {fs₁ fs₂ : FileSystem} (grown : Grown fs fs₁)
      (wrote : (Disk.writeFile (s.temporaryPath name) s.text).run fs₁ = (.ok (), fs₂))
      (file : fs₂.node? q = some (.file found)) :
      fs.node? q = some (.file found) ∨ found = s.text := by
    obtain ⟨place, written, -, -⟩ := Disk.overwritten_of_writeFile wrote
    by_cases here : q = place
    · rw [here, written.now] at file
      exact Or.inr (Node.file.inj (Option.some.inj file)).symm
    · exact Or.inl (grown.file_before ((written.elsewhere q here).symm.trans file))
  cases ends_of_save ran with
  | unwritten grown => exact Or.inl (grown.file_before file)
  | unmoved grown wrote => exact of_write grown wrote file
  | moved grown named wrote ran =>
    rcases Disk.files_of_landed named (temporary_normal named) (temporary_ne _) wrote ran file with
      before | new
    · exact of_write grown wrote before
    · exact Or.inr new

end Jukebox.Config.Store
