import Jukebox.Proofs.Config.Outcomes
import Jukebox.Proofs.Daemon.ForeignSections
/-!
# Saving and shutting down

A save asks the modules for their sections and lets them run on; a shutdown closes each as soon as
it was asked. The daemon's own section is put into the document first by the one and last by the
other. What is written is the same in both cases, provided that closing a module makes no difference
to what those after it report.

Once it was shut down, the daemon calls no module any more. Shutting it down again writes the same
document again.
-/
namespace Jukebox.Module

variable {μ ω η α : Type}

theorem Loaded.retire_shut (m : Loaded μ) : m.retire.isOpen = false := by
  obtain ⟨id, name, slot⟩ := m
  cases slot <;> rfl

theorem Loaded.retire_of_shut {m : Loaded μ} (shut : m.isOpen = false) : m.retire = m := by
  obtain ⟨id, name, slot⟩ := m
  cases slot with
  | opened s => cases shut
  | failed => rfl
  | closed s => rfl

namespace Registry

variable {i : Interface μ ω η} {m : Loaded μ} {r rest : Registry μ}

/-- What the open modules report when they are asked one after the other. -/
def reports (i : Interface μ ω η) (r : Registry μ) (w : ω) : List (String × Option Json.Value) :=
  (callAll (fun _ => i.getConfig) r w).1.1

/-- Closing a module that was just asked for its section makes no difference to what those after it
report. -/
def Discreet (i : Interface μ ω η) (r : Registry μ) : Prop :=
  ∀ before m after s, r = before ++ m :: after → m.slot = .opened s → ∀ w,
    reports i after (i.close (i.getConfig s w).1.2 (i.getConfig s w).2).2 =
      reports i after (i.getConfig s w).2

theorem Discreet.tail (discreet : Discreet i (m :: rest)) : Discreet i rest := by
  intro before m' after s whole
  apply discreet (m :: before) m' after s
  rw [whole]
  rfl

/-- Modules that are closed one after the other report what they would report if they were not. -/
theorem Discreet.farewell_eq (discreet : Discreet i r) (w : ω) :
    (callAll (fun _ => farewell i) r w).1.1 = reports i r w := by
  induction r generalizing w with
  | nil => rfl
  | cons m rest ih =>
    obtain ⟨id, name, slot⟩ := m
    cases slot with
    | opened s =>
      have others := ih discreet.tail (i.close (i.getConfig s w).1.2 (i.getConfig s w).2).2
      rw [discreet [] _ rest s rfl rfl w] at others
      have closed : (callAll (fun _ => farewell i) (⟨id, name, .opened s⟩ :: rest) w).1.1 =
          (id, (i.getConfig s w).1.1) :: (callAll (fun _ => farewell i) rest
            (i.close (i.getConfig s w).1.2 (i.getConfig s w).2).2).1.1 := rfl
      have asked : reports i (⟨id, name, .opened s⟩ :: rest) w =
          (id, (i.getConfig s w).1.1) :: reports i rest (i.getConfig s w).2 := rfl
      rw [closed, asked, others]
    | failed => exact ih discreet.tail w
    | closed s => exact ih discreet.tail w

/-- Where no module is open, none is called. -/
theorem callAll_of_shut (op : Loaded μ → Call μ ω α) (shut : ∀ m ∈ r, m.isOpen = false) (w : ω) :
    callAll op r w = (([], r), w) := by
  induction r with
  | nil => rfl
  | cons m rest ih =>
    have others := ih fun m' there => shut m' (List.mem_cons_of_mem m there)
    have here := shut m List.mem_cons_self
    have passed : callAll op (m :: rest) w =
        (((callAll op rest w).1.1, m :: (callAll op rest w).1.2), (callAll op rest w).2) := by
      obtain ⟨id, name, slot⟩ := m
      cases slot with
      | opened s => cases here
      | failed => rfl
      | closed s => rfl
    rw [passed, others]

end Registry

end Jukebox.Module

namespace Jukebox.Daemon

open Config (Httpd Store)
open Config.Store (filled_setSection section?_setSection setSection_of_section? setSection_sorted)
open Storage (FileSystem)
open Jukebox.Module (Call Called Descriptor Interface Loaded Registry)

variable {μ ω η : Type} {modules : Surroundings μ ω η}
  {descriptors : FileSystem → List (Descriptor μ ω)} {c : Core μ ω}

/-- Every state of a daemon that was built on a document in order, whatever its modules do: all
events may happen, modules may move on by themselves, and files be changed at will. -/
inductive Attained (modules : Surroundings μ ω η)
    (descriptors : FileSystem → List (Descriptor μ ω)) : Core μ ω → Prop
  | built (store : Store) (files : FileSystem) (w : ω) (sorted : store.document.Sorted) :
      Attained modules descriptors (Context.build modules descriptors store files w).core
  | event {c : Core μ ω} (before : Attained modules descriptors c) (e : Event η) :
      Attained modules descriptors (e.run modules c).2
  | background {c : Core μ ω} (before : Attained modules descriptors c) (r : Registry μ)
      (same : r.shape = c.registry.shape) (w : ω) :
      Attained modules descriptors { c with registry := r, world := w }
  | rewrite {c : Core μ ω} (before : Attained modules descriptors c) (fs : FileSystem) :
      Attained modules descriptors { c with files := fs }

namespace Attained

theorem document_sorted (attained : Attained modules descriptors c) :
    c.store.document.Sorted := by
  induction attained with
  | built store files w sorted => exact sorted
  | event before e ih => exact e.document_sorted ih
  | background before r same w ih => exact ih
  | rewrite before fs ih => exact ih

theorem ids_eq (attained : Attained modules descriptors c) {ids : List String}
    (known : ∀ fs, (descriptors fs).map (·.id) = ids) : c.registry.map (·.id) = ids := by
  induction attained with
  | built store files w sorted =>
    exact (Context.build_ids modules descriptors store files w).trans (known files)
  | event before e ih => exact (e.ids_eq (.unknown modules) _).trans ih
  | background before r same w ih => exact (ids_of_shape same).trans ih
  | rewrite before fs ih => exact ih

end Attained

namespace Core

variable (modules)

/-- Saving and shutting down fill in the same document. -/
theorem save_store_eq (sorted : c.store.document.Sorted)
    (foreign : Httpd.key ∉ c.registry.map (·.id))
    (discreet : Registry.Discreet (modules c.files) c.registry) :
    (save modules c).2.store = (shutdown modules c).2.store := by
  obtain ⟨answers, r, w, asked, saved⟩ := save_effect modules c
  obtain ⟨answers', r', w', closed, after⟩ := shutdown_effect modules c
  have same := discreet.farewell_eq c.world
  rw [Registry.reports, closed, asked] at same
  -- the daemon's own section is put in first here and last there
  have silent : Httpd.key ∉ answers.map Prod.fst := by
    intro there
    obtain ⟨m, present, named⟩ :=
      List.mem_map.mp ((Registry.called_of_callAll asked).open_of_answer there)
    exact foreign (List.mem_map.mpr ⟨m, present, (Prod.mk.inj named).1⟩)
  have filled : collected (c.store.setSection Httpd.key (some c.httpd.toSection)) answers =
      (collected c.store answers).setSection Httpd.key (some c.httpd.toSection) :=
    filled_setSection sorted silent _
  obtain rfl : answers' = answers := same
  rw [(saved _ rfl).1, after]
  exact filled

/-- A shutdown closes every module and puts the daemon's own section in. -/
theorem shutdown_closes (sorted : c.store.document.Sorted) :
    (∀ m ∈ (shutdown modules c).2.registry, m.isOpen = false) ∧
      (shutdown modules c).2.store.section? Httpd.key =
        some (shutdown modules c).2.httpd.toSection := by
  obtain ⟨answers, r, w, closed, after⟩ := shutdown_effect modules c
  rw [after]
  constructor
  · intro m there
    obtain ⟨m', -, rfl⟩ := List.mem_map.mp there
    exact m'.retire_shut
  · exact section?_setSection (collected_sorted sorted) _ _

/-- A daemon that was shut down calls no module when it is shut down again, and writes the document
that it has. -/
theorem shutdown_again (sorted : c.store.document.Sorted)
    (shut : ∀ m ∈ c.registry, m.isOpen = false)
    (own : c.store.section? Httpd.key = some c.httpd.toSection) :
    shutdown modules c =
      ((c.store.save.run c.files).1, { c with files := (c.store.save.run c.files).2 }) := by
  obtain ⟨answers, r, w, closed, after⟩ := shutdown_effect modules c
  rw [Registry.callAll_of_shut _ shut] at closed
  cases closed
  have retired : c.registry.map (·.retire) = c.registry := by
    rw [List.map_congr_left fun m there => Loaded.retire_of_shut (shut m there)]
    exact List.map_id _
  have filled : (collected c.store []).setSection Httpd.key (some c.httpd.toSection) = c.store :=
    setSection_of_section? sorted own
  rw [after, filled, retired]

end Core

namespace Conduct

variable {conduct : Conduct modules descriptors} {fs : FileSystem} {r : Registry μ}

theorem reports_eq (sound : r.Holds conduct.Valid) (w : ω) :
    Registry.reports (modules fs) r w = r.live conduct.config :=
  (Conduct.get_live (Registry.callAll_called _ r w) sound).1

/-- Modules whose sections are a matter of their own states are discreet. -/
theorem discreet (sound : r.Holds conduct.Valid) : Registry.Discreet (modules fs) r := by
  intro before m after s whole here w
  have sound_after : Registry.Holds conduct.Valid after := by
    intro m' there
    apply sound
    rw [whole]
    exact List.mem_append_right _ (List.mem_cons_of_mem m there)
  rw [reports_eq sound_after, reports_eq sound_after]

end Conduct

/-- A save and a shutdown of the same daemon write the same document and leave the same files, and
one succeeds exactly if the other does. A shutdown leaves no module open. Another one after it calls
none, whatever the modules are by then: all but the files is as it was. So is the text in the file,
if the first shutdown succeeded and left a file that can be read. It does unless links lead it
astray. -/
theorem Attained.shutdown_as_save (attained : Attained modules descriptors c) {ids : List String}
    (known : ∀ fs, (descriptors fs).map (·.id) = ids) (foreign : Httpd.key ∉ ids)
    (discreet : Registry.Discreet (modules c.files) c.registry) {other : Surroundings μ ω η}
    {saved parted again : Core μ ω} {result result' result'' : Except Fault Unit}
    (saves : Core.save modules c = (result, saved))
    (parts : Core.shutdown modules c = (result', parted))
    (repeats : Core.shutdown other parted = (result'', again)) :
    saved.store = parted.store ∧ saved.files = parted.files ∧
    (result = .ok () ↔ result' = .ok ()) ∧
    (∀ m ∈ parted.registry, m.isOpen = false) ∧
    again = { parted with files := again.files } ∧
    (result' = .ok () → ∀ found, parted.files.content c.store.path = .ok found →
      found = parted.store.text ∧ again.files.content c.store.path = .ok found) ∧
    (result' = .ok () → Store.Straight c.store.path c.files →
      parted.files.content c.store.path = .ok parted.store.text) := by
  have sorted := attained.document_sorted
  have same := Core.save_store_eq modules sorted (attained.ids_eq known ▸ foreign) discreet
  obtain ⟨-, saved_files, save_ok⟩ := Core.save_writes modules c
  obtain ⟨path_eq, parted_files, parted_ok⟩ := Core.shutdown_writes modules c
  obtain ⟨shut, own⟩ := Core.shutdown_closes modules sorted
  have sorted_parted : (Core.shutdown modules c).2.store.document.Sorted :=
    Event.shutdown.document_sorted sorted
  rw [saves, parts] at same
  rw [saves] at saved_files save_ok
  rw [parts] at path_eq parted_files parted_ok shut own sorted_parted
  dsimp only at same saved_files save_ok path_eq parted_files parted_ok shut own sorted_parted
  have repeated := Core.shutdown_again other sorted_parted shut own
  obtain ⟨rfl, rfl⟩ := Prod.mk.inj (repeats.symm.trans repeated)
  refine ⟨same, ?_, ?_, shut, rfl, ?_, ?_⟩
  · rw [saved_files, parted_files, same]
  · rw [save_ok, parted_ok, same]
  · intro done found readable
    have ran : parted.store.save.run c.files = (.ok (), parted.files) :=
      Prod.ext (parted_ok.symm.trans done) parted_files.symm
    rw [← path_eq] at readable ⊢
    exact ⟨Store.text_of_saved ran readable, Store.content_of_saved_again ran readable rfl⟩
  · intro done straight
    have ran : parted.store.save.run c.files = (.ok (), parted.files) :=
      Prod.ext (parted_ok.symm.trans done) parted_files.symm
    rw [← path_eq] at straight ⊢
    exact Store.content_of_saved ran straight

/-- The conduct of the same modules when others of them are linked in. -/
def Conduct.linked {descriptors : FileSystem → List (Descriptor μ ω)}
    (conduct : Conduct modules descriptors) (others : FileSystem → List (Descriptor μ ω))
    (opening : ∀ fs, ∀ d ∈ others fs, ∀ value w s w', d.opening value w = (.ok s, w') →
      conduct.Valid d.id s) : Conduct modules others where
  Valid := conduct.Valid
  config := conduct.config
  opening known ran := opening _ _ known _ _ _ _ ran
  setting := conduct.setting
  getting := conduct.getting
  routing := conduct.routing
  handling := conduct.handling

section Duo

/-- Two players, each under an id of its own. -/
def duoDescriptors (_ : FileSystem) :
    List (Descriptor Playback.Player (Playback.Rehearsal × List Playback.Call)) :=
  [Playback.Service.descriptor, { Playback.Service.descriptor with id := "radio" }]

theorem duo_opening (fs : FileSystem)
    (d : Descriptor Playback.Player (Playback.Rehearsal × List Playback.Call))
    (known : d ∈ duoDescriptors fs) (value : Option Json.Value)
    (w : Playback.Rehearsal × List Playback.Call) (s : Playback.Player)
    (w' : Playback.Rehearsal × List Playback.Call) (ran : d.opening value w = (.ok s, w')) :
    rehearsedConduct.Valid d.id s := by
  rcases List.mem_cons.mp known with rfl | later
  · cases ran
    exact Config.Music.ofSection_told _
  · obtain rfl := List.mem_singleton.mp later
    cases ran
    exact Config.Music.ofSection_told _

def duoConduct : Conduct rehearsedModules duoDescriptors :=
  rehearsedConduct.linked duoDescriptors duo_opening

def duoBuilt (files : FileSystem) : Core Playback.Player (Playback.Rehearsal × List Playback.Call) :=
  (Context.build rehearsedModules duoDescriptors ⟨Store.plainPath, []⟩ files
    (⟨0, 0, [], .playing, false⟩, [])).core

/-- The settings of one player and those of the HTTP layer are changed. -/
def duo (files : FileSystem) : Core Playback.Player (Playback.Rehearsal × List Playback.Call) :=
  ((Event.apply "" [(Httpd.key, .object [("port", .nat 9000)]),
    ("radio", .object [("path", .string "/radio")])]).run rehearsedModules (duoBuilt files)).2

theorem duo_attained (files : FileSystem) : Attained rehearsedModules duoDescriptors (duo files) :=
  (Attained.built ⟨Store.plainPath, []⟩ files _ .nil).event _

theorem duo_sound (files : FileSystem) : duoConduct.Sound (duo files) :=
  Event.sound duoConduct _ _ (duoConduct.build_sound ⟨Store.plainPath, []⟩ files _)

/-- Two players are saved and shut down twice. -/
theorem duo_parted :
    Attained rehearsedModules duoDescriptors (duo .empty) ∧
    Registry.Discreet (rehearsedModules (duo .empty).files) (duo .empty).registry ∧
    (duo .empty).registry.shape = [("files", true), ("radio", true)] ∧
    (Core.save rehearsedModules (duo .empty)).1 = .ok () ∧
    (Core.shutdown rehearsedModules (duo .empty)).1 = .ok () ∧
    (Core.save rehearsedModules (duo .empty)).2.files =
      (Core.shutdown rehearsedModules (duo .empty)).2.files ∧
    (Core.shutdown rehearsedModules (duo .empty)).2.files.content Store.plainPath =
      .ok (Core.shutdown rehearsedModules (duo .empty)).2.store.text ∧
    (Core.shutdown rehearsedModules
        (Core.shutdown rehearsedModules (duo .empty)).2).2.files.content Store.plainPath =
      .ok (Core.shutdown rehearsedModules (duo .empty)).2.store.text := by
  have discreet : Registry.Discreet (rehearsedModules (duo .empty).files) (duo .empty).registry :=
    Conduct.discreet (duo_sound .empty)
  obtain ⟨-, same_files, both, -, -, keeps, leaves⟩ := Attained.shutdown_as_save
    (duo_attained .empty) (fun _ => rfl) (by decide) discreet Prod.mk.eta.symm Prod.mk.eta.symm
    (Prod.mk.eta (p := Core.shutdown rehearsedModules
      (Core.shutdown rehearsedModules (duo .empty)).2)).symm
  have done : (Core.shutdown rehearsedModules (duo .empty)).1 = .ok () := by
    obtain ⟨path_eq, -, succeeds⟩ := Core.shutdown_writes rehearsedModules (duo .empty)
    obtain ⟨fs', saved⟩ := Store.save_empty path_eq
    exact succeeds.trans (congrArg Prod.fst saved)
  have left := leaves done (Store.straight_empty _)
  exact ⟨duo_attained .empty, discreet, rfl, both.mpr done, done, same_files, left,
    (keeps done _ left).2⟩

/-- When the sibling's name is that of a link to the configuration file, the first shutdown succeeds
and leaves no file that can be read. The second one leaves the text. -/
theorem ported_linked_parted :
    Attained rehearsedModules Playback.Service.descriptors (ported Store.linkedFiles) ∧
    Httpd.key ∉ (ported Store.linkedFiles).registry.map (·.id) ∧
    Registry.Discreet (rehearsedModules (ported Store.linkedFiles).files)
      (ported Store.linkedFiles).registry ∧
    (Core.save rehearsedModules (ported Store.linkedFiles)).1 = .ok () ∧
    (Core.shutdown rehearsedModules (ported Store.linkedFiles)).1 = .ok () ∧
    (Core.shutdown rehearsedModules
      (Core.shutdown rehearsedModules (ported Store.linkedFiles)).2).1 = .ok () ∧
    (Core.shutdown rehearsedModules (ported Store.linkedFiles)).2.files.content Store.plainPath =
      .error .linkLoop ∧
    (Core.shutdown rehearsedModules
        (Core.shutdown rehearsedModules (ported Store.linkedFiles)).2).2.files.content
          Store.plainPath =
      .ok (Core.shutdown rehearsedModules (ported Store.linkedFiles)).2.store.text := by
  have running := ported_running Store.linkedFiles
  have foreign : Httpd.key ∉ (ported Store.linkedFiles).registry.map (·.id) := by
    rw [running.ids_eq fun _ => rfl]
    decide
  obtain ⟨save_path, -, save_ok⟩ := Core.save_writes rehearsedModules (ported Store.linkedFiles)
  obtain ⟨path_eq, written, succeeds⟩ :=
    Core.shutdown_writes rehearsedModules (ported Store.linkedFiles)
  have done : _ = (Except.ok (), Store.loopedFiles) := Store.save_linked path_eq
  have files_eq : (Core.shutdown rehearsedModules (ported Store.linkedFiles)).2.files =
      Store.loopedFiles := written.trans (congrArg Prod.snd done)
  -- the second save finds a link in the file's place and puts the text there
  obtain ⟨fs', saved, content_eq⟩ := Store.save_over path_eq
    (rfl : Store.loopedFiles.workingDirectory = [])
    (by simpa [FileSystem.node?, Store.loopedFiles] using Store.siblings_apart)
    (by simp [FileSystem.node?, Store.loopedFiles])
  obtain ⟨shut, own⟩ := Core.shutdown_closes rehearsedModules running.document_sorted
  have again : Core.shutdown rehearsedModules
      (Core.shutdown rehearsedModules (ported Store.linkedFiles)).2 = _ :=
    Core.shutdown_again rehearsedModules (running.event .shutdown).document_sorted shut own
  rw [files_eq, saved] at again
  refine ⟨(Attained.built ⟨Store.plainPath, []⟩ Store.linkedFiles _ .nil).event _, foreign,
    Conduct.discreet running.reachable.sound,
    save_ok.mpr (congrArg Prod.fst (Store.save_linked save_path)),
    succeeds.trans (congrArg Prod.fst done), ?_, ?_, ?_⟩
  · rw [again]
  · rw [files_eq]
    exact Store.content_looped
  · rw [again]
    exact content_eq

end Duo

end Jukebox.Daemon
