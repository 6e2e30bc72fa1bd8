import Mathlib.Tactic
import Jukebox.Config.Store
import Jukebox.Proofs.Json.Rereading
import Jukebox.Proofs.Storage.Calls
import Jukebox.Proofs.Text.Utf8
/-!
# What saving leaves in the file

A saved document is read back if its sections are. Links can lead a save astray: writing the sibling
file goes through a link that is in its place, moving it does not.
-/
namespace Jukebox.Config.Store

open Storage FileSystem

variable {s : Store} {fs fs' : FileSystem} {name : Name}

theorem runAll_cons {a : Action} {rest : List Action}
    (ran : (runAll (a :: rest)).run fs = (.ok (), fs')) :
    ∃ fs₁, a.run.run fs = (.ok (), fs₁) ∧ (runAll rest).run fs₁ = (.ok (), fs') := by
  obtain ⟨⟨⟩, fs₁, first, later⟩ := Disk.bind_ok ran
  exact ⟨fs₁, first, later⟩

theorem save_run (named : s.path.fileName? = some name) :
    s.save.run fs = (((runAll (s.saveActions name)).run fs).1.mapError Fault.io,
      ((runAll (s.saveActions name)).run fs).2) := by
  rw [save, named]
  rfl

/-- A save that succeeds makes directories, writes the sibling file and moves it. -/
theorem save_ran (named : s.path.fileName? = some name)
    (saved : s.save.run fs = (.ok (), fs')) :
    ∃ fs₁,
      (Disk.writeFile (s.temporaryPath name) s.text).run ((Disk.makeParents s.path).run fs).2 =
        (.ok (), fs₁) ∧
      (Disk.renameFile (s.temporaryPath name) s.path).run fs₁ = (.ok (), fs') := by
  have all : (runAll (s.saveActions name)).run fs = (.ok (), fs') := by
    rw [save_run named] at saved
    rcases outcome : (runAll (s.saveActions name)).run fs with ⟨e | ⟨⟩, fs₁⟩
    · rw [outcome] at saved
      cases saved
    · rw [outcome] at saved
      cases saved
      rfl
  have rest {ready : FileSystem} (ran : (runAll [.writeFile (s.temporaryPath name) s.text,
      .renameFile (s.temporaryPath name) s.path]).run ready = (.ok (), fs')) :
      ∃ fs₁, (Disk.writeFile (s.temporaryPath name) s.text).run ready = (.ok (), fs₁) ∧
        (Disk.renameFile (s.temporaryPath name) s.path).run fs₁ = (.ok (), fs') := by
    obtain ⟨fs₁, wrote, ran⟩ := runAll_cons ran
    obtain ⟨fs₂, moved, ended⟩ := runAll_cons ran
    cases ended
    exact ⟨fs₁, wrote, moved⟩
  rw [saveActions] at all
  cases above : s.path.parent? with
  | none =>
    rw [above] at all
    rw [Disk.makeParents, above]
    exact rest all
  | some parent =>
    rw [above] at all
    rw [Disk.makeParents, above]
    obtain ⟨bytes⟩ := parent
    dsimp only at all ⊢
    split at all
    · rename_i alone
      obtain rfl : bytes = [] := alone
      rw [Disk.makeDirectories_nowhere]
      exact rest all
    · obtain ⟨ready, made, all⟩ := runAll_cons all
      have made' : (Disk.makeDirectories (⟨bytes⟩ : Path).components.length ⟨bytes⟩).run fs =
          (.ok (), ready) := made
      rw [made']
      exact rest all

theorem saveActions_alone (alone : s.path.parent? = some ⟨[]⟩) (name : Name) :
    s.saveActions name = [.writeFile (s.temporaryPath name) s.text,
      .renameFile (s.temporaryPath name) s.path] := by
  rw [saveActions, alone]
  rfl

/-- A save of a file without parents is done when its two steps are. -/
theorem save_of_runs {fs₁ : FileSystem} (named : s.path.fileName? = some name)
    (alone : s.path.parent? = some ⟨[]⟩)
    (wrote : (Disk.writeFile (s.temporaryPath name) s.text).run fs = (.ok (), fs₁))
    (moved : (Disk.renameFile (s.temporaryPath name) s.path).run fs₁ = (.ok (), fs')) :
    s.save.run fs = (.ok (), fs') := by
  have all : (runAll (s.saveActions name)).run fs = (.ok (), fs') := by
    have wrote' : (Action.writeFile (s.temporaryPath name) s.text).run.run fs = (.ok (), fs₁) :=
      wrote
    have moved' : (Action.renameFile (s.temporaryPath name) s.path).run.run fs₁ = (.ok (), fs') :=
      moved
    rw [saveActions_alone alone, runAll, Disk.bind_of_ok wrote', runAll, Disk.bind_of_ok moved']
    rfl
  rw [save_run named, all]
  rfl

/-- The name of the sibling file is a name like that of the file itself. -/
theorem temporary_normal (named : s.path.fileName? = some name) :
    NormalName (name ++ temporarySuffix) := by
  have normal := Path.normal_of_fileName? named
  have suffix_length : temporarySuffix.length = 4 := by
    rw [temporarySuffix, Text.bytesOf_eq]
    rfl
  have suffix_no_slash : slash ∉ temporarySuffix := by
    rw [temporarySuffix, Text.bytesOf_eq]
    decide
  refine ⟨?_, ?_, ?_, ?_⟩
  · exact fun same => normal.nonempty (List.append_eq_nil_iff.mp same).1
  · intro same
    have lengths := congrArg List.length same
    rw [List.length_append, suffix_length] at lengths
    simp at lengths
  · intro same
    have lengths := congrArg List.length same
    rw [List.length_append, suffix_length] at lengths
    simp at lengths
  · rw [List.mem_append]
    exact not_or.mpr ⟨normal.no_slash, suffix_no_slash⟩

section Astray

/-- A configuration file in the directory that the daemon runs in. -/
def plainPath : Path := .ofString "aircat.conf"

def plainName : Name := Text.bytesOf "aircat.conf"

def siblingPath : Path := .ofString "aircat.conf.tmp"

def siblingName : Name := Text.bytesOf "aircat.conf.tmp"

theorem plainName_eq : plainName = [97, 105, 114, 99, 97, 116, 46, 99, 111, 110, 102] := by
  rw [plainName, Text.bytesOf_eq]
  decide

theorem siblingName_eq :
    siblingName = [97, 105, 114, 99, 97, 116, 46, 99, 111, 110, 102, 46, 116, 109, 112] := by
  rw [siblingName, Text.bytesOf_eq]
  decide

theorem plainPath_eq : plainPath = ⟨[97, 105, 114, 99, 97, 116, 46, 99, 111, 110, 102]⟩ := by
  rw [← plainName_eq]
  rfl

theorem siblingPath_eq :
    siblingPath = ⟨[97, 105, 114, 99, 97, 116, 46, 99, 111, 110, 102, 46, 116, 109, 112]⟩ := by
  rw [← siblingName_eq]
  rfl

theorem plainPath_plain : Plain plainPath plainName := by
  rw [plainPath_eq, plainName_eq]
  exact ⟨⟨by decide, by decide, by decide⟩, by decide, ⟨by decide, by decide, by decide⟩, by decide⟩

theorem siblingPath_plain : Plain siblingPath siblingName := by
  rw [siblingPath_eq, siblingName_eq]
  exact ⟨⟨by decide, by decide, by decide⟩, by decide, ⟨by decide, by decide, by decide⟩, by decide⟩

theorem siblings_apart : [siblingName] ≠ [plainName] := by
  rw [siblingName_eq, plainName_eq]
  decide

/-- What is at the sibling's place is moved to that of the configuration. -/
theorem rename_sibling (root : fs.workingDirectory = []) {node : Node}
    (there : fs.node? [siblingName] = some node) (free : fs.node? [plainName] ≠ some .directory) :
    (Disk.renameFile siblingPath plainPath).run fs =
      (.ok (), (fs.erase [siblingName]).put [plainName] node) := by
  have source : fs.locate .itself siblingPath = _ :=
    siblingPath_plain.locate_eq root (Or.inl rfl)
  have target : fs.locate .itself plainPath = _ := plainPath_plain.locate_eq root (Or.inl rfl)
  have same : (⟨(withoutTrailing plainPath).bytes⟩ : Path) = plainPath := by
    rw [plainPath_eq]
    decide
  have last : ((pieces plainPath.bytes).filter (· ≠ [])).getLast? = some plainName := by
    rw [plainPath_eq, plainName_eq]
    decide
  have no_dots : ¬(plainName = [dot] ∨ plainName = [dot, dot]) := by
    rw [plainName_eq]
    decide
  have no_trailing : plainPath.bytes.getLast? ≠ some slash := by
    rw [plainPath_eq]
    decide
  rw [there] at source
  exact Disk.renameFile_of_found source last (same ▸ target) no_dots
    (fun trailing => no_trailing trailing.2) fun busy => free busy.1

theorem plainPath_named : plainPath.fileName? = some plainName := by
  rw [plainPath_eq, plainName_eq]
  decide

theorem plainPath_alone : plainPath.parent? = some ⟨[]⟩ := by
  rw [plainPath_eq]
  decide

theorem temporaryPath_plain (at_path : s.path = plainPath) :
    s.temporaryPath plainName = siblingPath := by
  rw [temporaryPath, at_path, plainPath_eq, plainName_eq, siblingPath_eq, temporarySuffix,
    Text.bytesOf_eq]
  decide

/-- Saving beside that file is writing the sibling and moving it. -/
theorem save_plain {fs₁ : FileSystem} (at_path : s.path = plainPath)
    (wrote : (Disk.writeFile siblingPath s.text).run fs = (.ok (), fs₁))
    (moved : (Disk.renameFile siblingPath plainPath).run fs₁ = (.ok (), fs')) :
    s.save.run fs = (.ok (), fs') := by
  rw [← temporaryPath_plain at_path] at wrote moved
  rw [← at_path] at moved
  exact save_of_runs (at_path ▸ plainPath_named) (at_path ▸ plainPath_alone) wrote moved

/-- A file of that name is read. -/
theorem content_plain (root : fs.workingDirectory = []) {content : List UInt8}
    (file : fs.node? [plainName] = some (.file content)) : fs.content plainPath = .ok content := by
  have found : fs.locate .target plainPath = _ :=
    plainPath_plain.locate_eq root (Or.inr (by simp [file]))
  rw [FileSystem.content, stat, found, file]

/-- Nothing is in the way of a save, which leaves the text also where a link was. -/
theorem save_over (at_path : s.path = plainPath) (root : fs.workingDirectory = [])
    (free : fs.node? [siblingName] = none) (no_directory : fs.node? [plainName] ≠ some .directory) :
    ∃ fs', s.save.run fs = (.ok (), fs') ∧ fs'.content plainPath = .ok s.text := by
  have found : fs.locate .creation siblingPath = .ok ([siblingName], none) :=
    free ▸ siblingPath_plain.locate_eq root (Or.inr (by rw [free]; rintro target ⟨⟩))
  have there := node?_put_self fs (List.cons_ne_nil siblingName []) (.file s.text)
  have kept : (fs.put [siblingName] (.file s.text)).node? [plainName] = fs.node? [plainName] :=
    node?_put_other _ siblings_apart.symm _
  have root' : (fs.put [siblingName] (.file s.text)).workingDirectory = [] :=
    (put_workingDirectory ..).trans root
  refine ⟨_, save_plain at_path (Disk.writeFile_of_free s.text found)
    (rename_sibling root' there (kept ▸ no_directory)), ?_⟩
  apply content_plain
  · rw [put_workingDirectory]
    exact root'
  · exact node?_put_self _ (List.cons_ne_nil plainName []) _

theorem save_free (at_path : s.path = plainPath) (root : fs.workingDirectory = [])
    (free : fs.node? [siblingName] = none) (no_directory : fs.node? [plainName] ≠ some .directory) :
    ∃ fs', s.save.run fs = (.ok (), fs') :=
  (save_over at_path root free no_directory).imp fun _ => And.left

theorem save_empty (at_path : s.path = plainPath) : ∃ fs', s.save.run .empty = (.ok (), fs') :=
  save_free at_path rfl rfl (by rintro ⟨⟩)

/-- The sibling's name is that of a link to the configuration file. -/
def linkedFiles : FileSystem := ⟨[([siblingName], .link plainPath)], []⟩

/-- The configuration file is a link to itself. -/
def loopedFiles : FileSystem := ⟨[([plainName], .link plainPath)], []⟩

/-- A save through such a link succeeds: it writes the configuration file and then puts the link in
its place. -/
theorem save_linked (at_path : s.path = plainPath) :
    s.save.run linkedFiles = (.ok (), loopedFiles) := by
  have there : linkedFiles.node? [siblingName] = some (.link plainPath) := by
    simp [node?, linkedFiles]
  have free : linkedFiles.node? [plainName] = none := by
    simp [node?, linkedFiles, siblings_apart.symm]
  have leads : Leads linkedFiles .creation maxLinks (linkedFiles.origin siblingPath)
      (steps siblingPath) [plainName] := by
    rw [siblingPath_plain.origin_eq rfl, siblingPath_plain.parts]
    refine .follow rfl siblingPath_plain.entry (by rintro ⟨-, ⟨⟩⟩) there (by rintro ⟨-, ⟨⟩⟩) ?_
    rw [plainPath_plain.relative, plainPath_plain.parts]
    exact .missing rfl plainPath_plain.entry free
  have found := leads.locate_eq siblingPath_plain.sane
  rw [free] at found
  have written : linkedFiles.put [plainName] (.file s.text) =
      ⟨[([siblingName], .link plainPath), ([plainName], .file s.text)], []⟩ := by
    have lost : linkedFiles.nodes.lookup [plainName] = none := free
    rw [put, lost]
    rfl
  have taken : (linkedFiles.put [plainName] (.file s.text)).erase [siblingName] =
      ⟨[([plainName], .file s.text)], []⟩ := by
    rw [written, erase]
    simp [siblings_apart.symm]
  have looped : ((linkedFiles.put [plainName] (.file s.text)).erase [siblingName]).put [plainName]
      (.link plainPath) = loopedFiles := by
    rw [taken]
    simp [put, loopedFiles]
  have now : (linkedFiles.put [plainName] (.file s.text)).node? [plainName] =
      some (.file s.text) := node?_put_self _ (List.cons_ne_nil plainName []) _
  have moved := rename_sibling rfl ((node?_put_other _ siblings_apart _).trans there)
    (by rw [now]; rintro ⟨⟩)
  exact save_plain at_path (Disk.writeFile_of_free s.text found) (looped ▸ moved)

theorem content_looped : loopedFiles.content plainPath = .error .linkLoop :=
  plainPath_plain.content_looping rfl (by simp [node?, loopedFiles])

end Astray

/-- Every section comes back. -/
def Rereads (s : Store) : Prop :=
  ∀ m ∈ s.document, m.2.ComesBack

/-- A document that is in order and whose sections come back is parsed from its text. -/
theorem parseBytes?_text (sorted : s.document.Sorted) (rereads : s.Rereads) :
    Json.Value.parseBytes? s.text = some (.object s.document) := by
  have members : ∀ ms : Json.Members, (∀ m ∈ ms, m.2.ComesBack) →
      Json.Value.MembersReread ms ∧ Json.Value.deepestMember ms < Json.maxDepth := by
    intro ms each
    induction ms with
    | nil => exact ⟨trivial, by decide⟩
    | cons m rest ih =>
      obtain ⟨first, shallow⟩ := each m List.mem_cons_self
      obtain ⟨others, deep⟩ := ih fun m' there => each m' (List.mem_cons_of_mem m there)
      exact ⟨⟨first, others⟩, max_lt shallow deep⟩
  obtain ⟨each, fits⟩ := members s.document rereads
  rw [text, Json.Value.parseBytes?, Text.ofBytes?_bytesOf]
  exact Json.parse?_toPretty (v := .object s.document) ⟨sorted, each⟩ fits

theorem documentOf_text (sorted : s.document.Sorted) (rereads : s.Rereads) :
    documentOf s.text = s.document := by
  rw [documentOf, parseBytes?_text sorted rereads]

/-- A store that is opened on the text of a document is the store of that document. -/
theorem openAt_of_content {fs : FileSystem} (sorted : s.document.Sorted) (rereads : s.Rereads)
    (content : fs.content s.path = .ok s.text) : openAt fs s.path = s := by
  rw [openAt, documentAt, content]
  exact congrArg (mk s.path) (documentOf_text sorted rereads)

theorem documentOf_sorted (content : List UInt8) : (documentOf content).Sorted := by
  unfold documentOf
  split
  · rename_i members parsed
    rw [Json.Value.parseBytes?] at parsed
    split at parsed
    · exact Json.sorted_of_parse? parsed
    · cases parsed
  · exact .nil

theorem openAt_sorted (fs : FileSystem) (path : Path) : (openAt fs path).document.Sorted := by
  unfold openAt documentAt
  split
  · exact documentOf_sorted _
  · exact .nil

end Jukebox.Config.Store
