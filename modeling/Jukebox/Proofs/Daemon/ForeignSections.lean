import Jukebox.Proofs.Config.Outcomes
import Jukebox.Proofs.Daemon.Recovery
import Jukebox.Proofs.Json.Survival
/-!
# Foreign sections

The configuration file may hold sections that are nobody's: of modules that could not be opened, or
under keys that nobody knows. They stay in the document and in every file that is written, with the
values they had, as long as the file can be read and nobody else writes it.

Nothing is assumed of the modules. In particular the sections that they tell need not come back from
the file.
-/
namespace Jukebox.Daemon

open Config (Httpd Store)
open Config.Store (section?_setSection_other)
open Storage (FileSystem Path)
open Jukebox.Module (Descriptor Loaded Registry)

variable {μ ω η : Type} {modules : Surroundings μ ω η}
  {descriptors : FileSystem → List (Descriptor μ ω)} {path : Path} {key : String} {v : Json.Value}

/-- The file at a path is a JSON object. -/
def Readable (path : Path) (fs : FileSystem) : Prop :=
  ∃ content members, fs.content path = .ok content ∧
    Json.Value.parseBytes? content = some (.object members)

/-- The file at a path is a JSON object that has a key with a value. -/
def Filed (path : Path) (key : String) (v : Json.Value) (fs : FileSystem) : Prop :=
  ∃ content members, fs.content path = .ok content ∧
    Json.Value.parseBytes? content = some (.object members) ∧
    Json.Members.find? key members = some v

/-- A text that was made of an object that has a key with a value, and that is read, if at all, as
such an object. -/
def Bears (key : String) (v : Json.Value) (content : List UInt8) : Prop :=
  (∃ members, content = Text.bytesOf (Json.Value.object members).toPretty ∧
    Json.Members.find? key members = some v) ∧
  ∀ v', Json.Value.parseBytes? content = some v' →
    ∃ members, v' = .object members ∧ Json.Members.find? key members = some v

/-- What can become of the daemon while the file at a path stays readable and nobody else writes it.
Modules may move on by themselves, and other files may change. -/
inductive Guarded (modules : Surroundings μ ω η) (path : Path) (first : Core μ ω) :
    Core μ ω → Prop
  | start : Guarded modules path first first
  | event {c : Core μ ω} (before : Guarded modules path first c) (e : Event η)
      (readable : Readable path (e.run modules c).2.files) :
      Guarded modules path first (e.run modules c).2
  | background {c : Core μ ω} (before : Guarded modules path first c) (r : Registry μ)
      (same : r.shape = c.registry.shape) (w : ω) :
      Guarded modules path first { c with registry := r, world := w }
  | rewrite {c : Core μ ω} (before : Guarded modules path first c) (fs : FileSystem)
      (same : fs.content path = c.files.content path) :
      Guarded modules path first { c with files := fs }

section Documents

variable {s : Store} {fs fs' : FileSystem}

theorem Filed.readable (filed : Filed path key v fs) : Readable path fs := by
  obtain ⟨content, members, found, parsed, -⟩ := filed
  exact ⟨content, members, found, parsed⟩

/-- What a file holds is what a store finds that is opened on it. -/
theorem filed_iff : Filed path key v fs ↔ (Store.openAt fs path).section? key = some v := by
  have unfolded : (Store.openAt fs path).section? key =
      (Store.documentAt fs path).find? key := rfl
  constructor
  · rintro ⟨content, members, found, parsed, there⟩
    rw [unfolded, Store.documentAt, found]
    simpa only [Store.documentOf, parsed] using there
  · intro there
    rw [unfolded, Store.documentAt] at there
    split at there
    · rename_i content found
      rw [Store.documentOf] at there
      split at there
      · rename_i members parsed
        exact ⟨content, members, found, parsed, there⟩
      · cases there
    · cases there

/-- The text of a document has its sections, if they come back. -/
theorem bears_text (sorted : s.document.Sorted) (there : s.section? key = some v)
    (comes_back : v.ComesBack) : Bears key v s.text := by
  refine ⟨⟨s.document, rfl, there⟩, fun v' parsed => ?_⟩
  rw [Store.text, Json.Value.parseBytes?, Text.ofBytes?_bytesOf] at parsed
  exact Json.find?_of_parse? sorted parsed (Json.Members.mem_of_find? there) comes_back

/-- Saving a document that has a section leaves a file that has it, if that can be read. -/
theorem Filed.saved {result : Except Fault Unit} (ran : s.save.run fs = (result, fs'))
    (filed : Filed s.path key v fs) (bears : Bears key v s.text)
    (readable : Readable s.path fs') : Filed s.path key v fs' := by
  obtain ⟨old, members, found, parsed, there⟩ := filed
  obtain ⟨now, members', found', parsed'⟩ := readable
  refine ⟨now, members', found', parsed', ?_⟩
  rcases Store.content_of_save ran found found' with rfl | rfl
  · rw [parsed] at parsed'
    cases parsed'
    exact there
  · obtain ⟨_, same, there'⟩ := bears.2 _ parsed'
    cases same
    exact there'

end Documents

def Conduct.unknown (modules : Surroundings μ ω η) : Conduct modules (fun _ => []) where
  Valid _ _ := False
  config _ := none
  opening known _ := absurd known List.not_mem_nil
  setting valid _ := valid
  getting valid _ := valid.elim
  routing valid _ := valid.elim
  handling valid _ := valid

namespace Event

variable (modules) (e : Event η) (c : Core μ ω)

theorem stays_shut (shut : (key, true) ∉ c.registry.shape) :
    (key, true) ∉ (e.run modules c).2.registry.shape := by
  by_cases running : e = .shutdown
  · subst running
    obtain ⟨answers, r, w, ran, after⟩ := Core.shutdown_effect modules c
    have retired (m : Loaded μ) : m.retire.isOpen = false := by
      obtain ⟨id, name, slot⟩ := m
      cases slot <;> rfl
    rw [run_shutdown, after]
    intro there
    obtain ⟨m, retiree, same⟩ := List.mem_map.mp there
    obtain ⟨m, -, rfl⟩ := List.mem_map.mp retiree
    rw [retired] at same
    cases same
  · rwa [Registry.Moves.shape_eq (e.moves (.unknown modules) c running)]

/-- A document is that of the file after a reload, and otherwise has the foreign sections that it
had. -/
theorem foreign_section (foreign : key ≠ Httpd.key) (shut : (key, true) ∉ c.registry.shape) :
    (e.run modules c).2.store.section? key = c.store.section? key ∨
      (e.run modules c).2.store = c.store.load c.files := by
  cases e with
  | reload =>
    obtain ⟨answers, r, w, ran, after⟩ := Core.reload_effect modules c
    exact Or.inr (congrArg Core.store after)
  | save =>
    obtain ⟨answers, r, w, ran, after⟩ := Core.save_effect modules c
    have silent := mt (Registry.called_of_callAll ran).open_of_answer shut
    rw [run_save, (after _ rfl).1]
    exact Or.inl ((section?_collected_other silent).trans (section?_setSection_other foreign _))
  | shutdown =>
    obtain ⟨answers, r, w, ran, after⟩ := Core.shutdown_effect modules c
    have silent := mt (Registry.called_of_callAll ran).open_of_answer shut
    rw [run_shutdown, after]
    exact Or.inl ((section?_setSection_other foreign _).trans (section?_collected_other silent))
  | apply resource body =>
    rw [run, (Core.apply_frame modules c resource body).1]
    exact Or.inl rfl
  | _ => exact Or.inl rfl

/-- Whatever is written is the document after the event. -/
theorem writes : (e.run modules c).2.files = c.files ∨
    (e.run modules c).2.files = ((e.run modules c).2.store.save.run c.files).2 := by
  cases e with
  | save => exact Or.inr (Core.save_writes modules c).2.1
  | shutdown => exact Or.inr (Core.shutdown_writes modules c).2.1
  | _ => exact Or.inl (files_eq _ c trivial)

end Event

structure Kept (path : Path) (key : String) (v : Json.Value) (c : Core μ ω) : Prop where
  path_eq : c.store.path = path
  sorted : c.store.document.Sorted
  shut : (key, true) ∉ c.registry.shape
  there : c.store.section? key = some v
  filed : Filed path key v c.files

namespace Kept

variable {c : Core μ ω}

theorem section_after (kept : Kept path key v c) (foreign : key ≠ Httpd.key) (e : Event η) :
    (e.run modules c).2.store.section? key = some v := by
  rcases e.foreign_section modules c foreign kept.shut with same | loaded
  · exact same.trans kept.there
  · rw [loaded, Store.load, kept.path_eq]
    exact filed_iff.mp kept.filed

theorem bears_after (kept : Kept path key v c) (foreign : key ≠ Httpd.key)
    (comes_back : v.ComesBack) (e : Event η) : Bears key v (e.run modules c).2.store.text :=
  bears_text (e.document_sorted kept.sorted) (kept.section_after foreign e) comes_back

theorem event (kept : Kept path key v c) (foreign : key ≠ Httpd.key) (comes_back : v.ComesBack)
    (e : Event η) (readable : Readable path (e.run modules c).2.files) :
    Kept path key v (e.run modules c).2 where
  path_eq := (e.path_eq c).trans kept.path_eq
  sorted := e.document_sorted kept.sorted
  shut := e.stays_shut modules c kept.shut
  there := kept.section_after foreign e
  filed := by
    have at_path : (e.run modules c).2.store.path = path := (e.path_eq c).trans kept.path_eq
    rcases e.writes modules c with same | written
    · rw [same]
      exact kept.filed
    · have filed := kept.filed
      rw [written] at readable ⊢
      rw [← at_path] at filed readable ⊢
      exact filed.saved rfl (kept.bears_after foreign comes_back e) readable

/-- Every file after an event was there before or has the section. -/
theorem files_after (kept : Kept path key v c) (foreign : key ≠ Httpd.key)
    (comes_back : v.ComesBack) (e : Event η) {place : Storage.Place} {found : List UInt8}
    (file : (e.run modules c).2.files.node? place = some (.file found)) :
    c.files.node? place = some (.file found) ∨ Bears key v found := by
  rcases e.writes modules c with same | written
  · exact Or.inl (same ▸ file)
  · rw [written] at file
    rcases Store.files_of_save rfl file with before | rfl
    · exact Or.inl before
    · exact Or.inr (kept.bears_after foreign comes_back e)

end Kept

/-- A daemon that is built on a file with a section that is nobody's. -/
theorem kept_of_build {files : FileSystem} {w : ω} (filed : Filed path key v files)
    (shut : (key, true) ∉
      (Context.build modules descriptors (.openAt files path) files w).core.registry.shape) :
    Kept path key v (Context.build modules descriptors (.openAt files path) files w).core := by
  obtain ⟨loaded, answers, r, w', loads, called, built⟩ :=
    Context.build_effect modules descriptors (.openAt files path) files w
  rw [built] at shut ⊢
  exact ⟨rfl, Store.openAt_sorted files path, shut, filed_iff.mp filed, filed⟩

/-- A section of the configuration file that is neither the daemon's own nor that of a module which
was opened stays in the document and in the file through every run. Whatever the next event is and
however it ends, the document has the section, so has every text that is written, and so has every
file that was not there before. -/
theorem Guarded.foreign_kept {files : FileSystem} {w : ω} {c : Core μ ω}
    (filed : Filed path key v files) (comes_back : v.ComesBack) (foreign : key ≠ Httpd.key)
    (shut : (key, true) ∉
      (Context.build modules descriptors (.openAt files path) files w).core.registry.shape)
    (run : Guarded modules path
      (Context.build modules descriptors (.openAt files path) files w).core c) :
    c.store.section? key = some v ∧ Filed path key v c.files ∧
    ∀ e : Event η,
      (e.run modules c).2.store.section? key = some v ∧
      (∀ name p content,
        .writeFile p content ∈ (e.run modules c).2.store.saveActions name → Bears key v content) ∧
      ((e.run modules c).2.files = c.files ∨
        (e.run modules c).2.files = ((e.run modules c).2.store.save.run c.files).2) ∧
      ∀ place found, (e.run modules c).2.files.node? place = some (.file found) →
        c.files.node? place = some (.file found) ∨ Bears key v found := by
  have kept : Kept path key v c := by
    induction run with
    | start => exact kept_of_build filed shut
    | event _ e readable ih => exact ih.event foreign comes_back e readable
    | background _ r same w ih => exact ⟨ih.path_eq, ih.sorted, same ▸ ih.shut, ih.there, ih.filed⟩
    | rewrite _ fs same ih =>
      refine ⟨ih.path_eq, ih.sorted, ih.shut, ih.there, ?_⟩
      obtain ⟨content, members, found, holds⟩ := ih.filed
      exact ⟨content, members, same.trans found, holds⟩
  refine ⟨kept.there, kept.filed, fun e => ⟨kept.section_after foreign e, ?_, e.writes modules c,
    fun place found => kept.files_after foreign comes_back e⟩⟩
  intro name p content written
  rw [Store.eq_text_of_mem_saveActions written]
  exact kept.bears_after foreign comes_back e

section Lyrics

/-- The player, and a module that cannot be opened. -/
def lyricsDescriptors (_ : FileSystem) :
    List (Descriptor Playback.Player (Playback.Rehearsal × List Playback.Call)) :=
  [Playback.Service.descriptor,
    ⟨"lyrics", "Lyrics", "Shows what is sung.", fun _ => pure (.error (.config "no words"))⟩]

def lyricsConduct : Conduct rehearsedModules lyricsDescriptors where
  Valid := rehearsedConduct.Valid
  config := rehearsedConduct.config
  opening known ran := by
    rcases List.mem_cons.mp known with rfl | later
    · cases ran
      exact Config.Music.ofSection_told _
    · obtain rfl := List.mem_singleton.mp later
      cases ran
  setting := rehearsedConduct.setting
  getting := rehearsedConduct.getting
  routing := rehearsedConduct.routing
  handling := rehearsedConduct.handling

/-- A document with a section of the module that cannot be opened. -/
def lyricsStore : Store :=
  ⟨Store.plainPath, [("lyrics", .bool true)]⟩

def lyricsFiles : FileSystem :=
  FileSystem.empty.put [Store.plainName] (.file lyricsStore.text)

def lyricsBuilt : Core Playback.Player (Playback.Rehearsal × List Playback.Call) :=
  (Context.build rehearsedModules lyricsDescriptors (.openAt lyricsFiles Store.plainPath) lyricsFiles
    (⟨0, 0, [], .playing, false⟩, [])).core

def lyricsNamed : Core Playback.Player (Playback.Rehearsal × List Playback.Call) :=
  ((Event.apply "" [("httpd", .object [("port", .nat 9000)]), ("lyrics", .null)]).run
    rehearsedModules lyricsBuilt).2

def lyricsSaved : Core Playback.Player (Playback.Rehearsal × List Playback.Call) :=
  (Event.save.run rehearsedModules lyricsNamed).2

def lyricsReloaded : Core Playback.Player (Playback.Rehearsal × List Playback.Call) :=
  (Event.reload.run rehearsedModules lyricsSaved).2

theorem lyrics_comesBack : (Json.Value.bool true).ComesBack :=
  ⟨trivial, by decide⟩

theorem lyrics_rereads : lyricsStore.Rereads := by
  intro m there
  obtain rfl := List.mem_singleton.mp there
  exact lyrics_comesBack

theorem lyrics_sorted : lyricsStore.document.Sorted :=
  List.pairwise_singleton _ _

theorem lyrics_node : lyricsFiles.node? [Store.plainName] = some (.file lyricsStore.text) :=
  FileSystem.node?_put_self .empty (List.cons_ne_nil Store.plainName []) _

theorem lyrics_node_other {place : Storage.Place} (other : place ≠ [Store.plainName]) :
    lyricsFiles.node? place = FileSystem.empty.node? place :=
  FileSystem.node?_put_other .empty other _

theorem lyrics_linkless (place : Storage.Place) (target : Path) :
    lyricsFiles.node? place ≠ some (.link target) := by
  by_cases here : place = [Store.plainName]
  · rw [here, lyrics_node]
    rintro ⟨⟩
  · rw [lyrics_node_other here]
    cases place <;> rintro ⟨⟩

theorem lyrics_content : lyricsFiles.content Store.plainPath = .ok lyricsStore.text := by
  have found : lyricsFiles.locate .target Store.plainPath = _ :=
    Store.plainPath_plain.locate_eq rfl (Or.inr (by rw [lyrics_node]; rintro target ⟨⟩))
  rw [lyrics_node] at found
  exact FileSystem.content_ok.mpr ⟨_, found⟩

theorem lyrics_filed : Filed Store.plainPath "lyrics" (.bool true) lyricsFiles :=
  ⟨lyricsStore.text, lyricsStore.document, lyrics_content,
    Store.parseBytes?_text lyrics_sorted lyrics_rereads, rfl⟩

theorem lyrics_opened : Store.openAt lyricsFiles Store.plainPath = lyricsStore :=
  Store.openAt_of_content lyrics_sorted lyrics_rereads lyrics_content

theorem lyrics_shape : lyricsBuilt.registry.shape = [("files", true), ("lyrics", false)] := rfl

theorem lyrics_frame : lyricsNamed.store = lyricsStore ∧ lyricsNamed.files = lyricsFiles := by
  obtain ⟨store_eq, files_eq⟩ := Core.apply_frame rehearsedModules lyricsBuilt ""
    [("httpd", .object [("port", .nat 9000)]), ("lyrics", .null)]
  exact ⟨store_eq.trans lyrics_opened, files_eq⟩

theorem lyrics_running : Running lyricsConduct lyricsNamed :=
  ⟨.openAt lyricsFiles Store.plainPath, lyricsFiles, (⟨0, 0, [], .playing, false⟩, []),
    Store.openAt_sorted _ _, .event .start _ trivial⟩

/-- The save succeeds, and the file can be read after it. -/
theorem lyrics_saved : (Core.save rehearsedModules lyricsNamed).1 = .ok () ∧
    Readable Store.plainPath lyricsSaved.files := by
  obtain ⟨store_eq, files_eq⟩ := lyrics_frame
  obtain ⟨path_eq, writes, succeeds⟩ := Core.save_writes rehearsedModules lyricsNamed
  have recorded := lyrics_running.save_records (fun _ => rfl)
    (by decide) (by decide)
  have before : ForeignComeBack lyricsNamed.store := by
    rw [store_eq]
    exact fun m there _ => lyrics_rereads m there
  obtain ⟨comes_back, -⟩ := before.saved lyrics_running.reachable.sound fun s v told => by
    cases told
    exact music_comesBack _
  rw [store_eq] at path_eq
  rw [files_eq] at writes succeeds
  have free : lyricsFiles.node? [Store.siblingName] = none := lyrics_node_other Store.siblings_apart
  obtain ⟨fs', done⟩ := Store.save_free path_eq rfl free (by rw [lyrics_node]; rintro ⟨⟩)
  have content := Store.content_of_saved done (Store.straight_of_linkless lyrics_linkless _)
  rw [path_eq] at content
  have saved_files : lyricsSaved.files = fs' := writes.trans (congrArg Prod.snd done)
  exact ⟨succeeds.mpr (congrArg Prod.fst done), _, _, saved_files ▸ content,
    Store.parseBytes?_text recorded.sorted (recorded.rereads comes_back)⟩

theorem lyrics_guarded : Guarded rehearsedModules Store.plainPath lyricsBuilt lyricsReloaded := by
  have named : Readable Store.plainPath lyricsNamed.files := by
    rw [lyrics_frame.2]
    exact lyrics_filed.readable
  exact .event (.event (.event .start _ named) .save lyrics_saved.2) .reload lyrics_saved.2

/-- The section is there after a body that names it, a save and a reload. -/
theorem lyrics_kept :
    Filed Store.plainPath "lyrics" (.bool true) lyricsFiles ∧ (Json.Value.bool true).ComesBack ∧
    "lyrics" ≠ Httpd.key ∧ lyricsBuilt.registry.shape = [("files", true), ("lyrics", false)] ∧
    (Core.save rehearsedModules lyricsNamed).1 = .ok () ∧
    Guarded rehearsedModules Store.plainPath lyricsBuilt lyricsReloaded ∧
    lyricsReloaded.store.section? "lyrics" = some (.bool true) :=
  ⟨lyrics_filed, lyrics_comesBack, by decide, lyrics_shape, lyrics_saved.1, lyrics_guarded,
    (Guarded.foreign_kept lyrics_filed lyrics_comesBack (by decide)
      (by rw [← lyricsBuilt, lyrics_shape]; decide) lyrics_guarded).1⟩

end Lyrics

end Jukebox.Daemon
