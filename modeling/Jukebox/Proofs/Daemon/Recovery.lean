import Jukebox.Proofs.Config.Outcomes
import Jukebox.Proofs.Daemon.Player
import Jukebox.Proofs.Playback.Rehearsal
/-!
# Saved configuration comes back

Saving copies what the owners tell into the document and writes it; reloading reads the file and
hands every owner its section. For modules that take back what they told, the second undoes whatever
happened since the first, and a restart after a shutdown does the same for modules that are opened
anew.

What a file says after a save is a matter of links: the sibling file is written through a link that
stands in its place, and then that link itself is moved.
-/
namespace Jukebox.Daemon

open Config (Httpd Store)
open Config.Store (setSection_sorted section?_setSection section?_setSection_other straight_empty)
open Storage (FileSystem)
open Jukebox.Module (Call Called Descriptor Loaded Registry)

variable {μ ω η : Type} {modules : Surroundings μ ω η}
  {descriptors : FileSystem → List (Descriptor μ ω)}

/-- Modules that take back what they told: given their section again, or opened with it, they stand
for that section. -/
structure Conduct.Lawful (conduct : Conduct modules descriptors) : Prop where
  restored : ∀ {fs id told s r s'}, conduct.Valid id told → conduct.Valid id s →
    ((modules fs).setConfig (conduct.config told)).Takes s r s' →
    conduct.config s' = conduct.config told
  reopened : ∀ {fs d told}, d ∈ descriptors fs → conduct.Valid d.id told → ∀ w,
    ∃ s w', d.opening (conduct.config told) w = (.ok s, w') ∧
      conduct.config s = conduct.config told

/-- The states of a daemon that was built on a document in order, as all documents are that were
read or had sections set. -/
def Running (conduct : Conduct modules descriptors) (c : Core μ ω) : Prop :=
  ∃ (store : Store) (files : FileSystem) (w : ω), store.document.Sorted ∧
    History conduct (fun _ => True) (fun _ _ => True)
      (Context.build modules descriptors store files w).core c

namespace Core

variable (modules) (c : Core μ ω)

/-- A save is as successful as the write of the document. -/
theorem save_writes :
    (save modules c).2.store.path = c.store.path ∧
      (save modules c).2.files = ((save modules c).2.store.save.run c.files).2 ∧
      ((save modules c).1 = .ok () ↔ ((save modules c).2.store.save.run c.files).1 = .ok ()) := by
  obtain ⟨answers, r, w, ran, after⟩ := save_effect modules c
  obtain ⟨saved, succeeds⟩ := after _ rfl
  rw [saved]
  exact ⟨collected_path _ _, rfl, succeeds⟩

/-- So is a shutdown. -/
theorem shutdown_writes :
    (shutdown modules c).2.store.path = c.store.path ∧
      (shutdown modules c).2.files = ((shutdown modules c).2.store.save.run c.files).2 ∧
      (shutdown modules c).1 = ((shutdown modules c).2.store.save.run c.files).1 := by
  obtain ⟨answers, r, w, ran, after⟩ := shutdown_effect modules c
  rw [after]
  exact ⟨collected_path _ _, rfl, rfl⟩

end Core

section Documents

variable {store : Store} {answers : List (String × Option Json.Value)}

theorem collected_cons (answer : String × Option Json.Value) :
    Core.collected store (answer :: answers) =
      Core.collected (store.setSection answer.1 answer.2) answers := rfl

theorem collected_sorted (sorted : store.document.Sorted) :
    (Core.collected store answers).document.Sorted :=
  Store.filled_sorted sorted

/-- Who answered nothing has the section that was there. -/
theorem section?_collected_other {key : String} (silent : key ∉ answers.map Prod.fst) :
    (Core.collected store answers).section? key = store.section? key :=
  Store.section?_filled_other silent

/-- Who answered has the section of the answer, or none if that was the answer. -/
theorem section?_collected (sorted : store.document.Sorted)
    (distinct : (answers.map Prod.fst).Nodup) {key : String} {value : Option Json.Value}
    (told : (key, value) ∈ answers) : (Core.collected store answers).section? key = value := by
  obtain ⟨before, later, rfl⟩ := List.append_of_mem told
  refine Store.section?_filled sorted fun again => ?_
  rw [List.map_append, List.map_cons] at distinct
  exact (List.nodup_cons.mp (List.nodup_append.mp distinct).2.1).1 again

end Documents

section Registries

variable {store : Store} {r r' : Registry μ}

theorem ids_of_shape (same : r'.shape = r.shape) : r'.map (·.id) = r.map (·.id) := by
  have ids := congrArg (List.map Prod.fst) same
  simpa [Registry.shape, Function.comp_def] using ids

theorem ids_of_loads {ds : List (Descriptor μ ω)}
    (loads : List.Forall₂ (fun d m => Loaded.Loads d (store.section? d.id) m) ds r) :
    r.map (·.id) = ds.map (·.id) := by
  induction loads with
  | nil => rfl
  | cons one _ ih =>
    rw [List.map_cons, List.map_cons, ih]
    cases one <;> rfl

end Registries

namespace Event

variable (e : Event η) {c : Core μ ω}

/-- Every document is in order after an event. -/
theorem document_sorted (before : c.store.document.Sorted) :
    (e.run modules c).2.store.document.Sorted := by
  cases e with
  | reload => exact Store.openAt_sorted c.files c.store.path
  | save =>
    obtain ⟨answers, r, w, ran, after⟩ := Core.save_effect modules c
    rw [run_save, (after _ rfl).1]
    exact collected_sorted (setSection_sorted before _ _)
  | shutdown =>
    obtain ⟨answers, r, w, ran, after⟩ := Core.shutdown_effect modules c
    rw [run_shutdown, after]
    exact setSection_sorted (collected_sorted before) _ _
  | apply resource body =>
    have frame := (Core.apply_frame modules c resource body).1
    rw [run, frame]
    exact before
  | _ => exact before

/-- The modules keep their places, also when they are closed. -/
theorem ids_eq (conduct : Conduct modules descriptors) (c : Core μ ω) :
    (e.run modules c).2.registry.map (·.id) = c.registry.map (·.id) := by
  by_cases running : e = .shutdown
  · subst running
    obtain ⟨answers, r, w, ran, after⟩ := Core.shutdown_effect modules c
    have moves := (Registry.called_of_callAll ran).moves (P := fun _ _ _ => True)
      fun _ _ _ _ _ => trivial
    have retired (m : Loaded μ) : m.retire.id = m.id := by
      obtain ⟨id, name, slot⟩ := m
      cases slot <;> rfl
    rw [run_shutdown, after, ← ids_of_shape moves.shape_eq]
    simp [retired]
  · exact ids_of_shape (Registry.Moves.shape_eq (e.moves conduct c running))

end Event

/-- What events, background and rewrites of files keep. -/
theorem History.keeps {conduct : Conduct modules descriptors} {allowed : Event η → Prop}
    {rewrites : FileSystem → FileSystem → Prop} {first c : Core μ ω} {P : Core μ ω → Prop}
    (history : History conduct allowed rewrites first c) (before : P first)
    (event : ∀ e c, allowed e → P c → P (e.run modules c).2)
    (background : ∀ c r w, conduct.Moves c.registry r → P c →
      P { c with registry := r, world := w })
    (rewrite : ∀ c fs, rewrites c.files fs → P c → P { c with files := fs }) : P c := by
  induction history with
  | start => exact before
  | event _ e may ih => exact event e _ may ih
  | background _ r moves w ih => exact background _ r w moves ih
  | rewrite _ fs may ih => exact rewrite _ fs may ih

/-- A daemon is built with the modules that are linked in, opened or not. -/
theorem Context.build_ids (modules : Surroundings μ ω η)
    (descriptors : FileSystem → List (Descriptor μ ω)) (store : Store) (files : FileSystem)
    (w : ω) : (build modules descriptors store files w).core.registry.map (·.id) =
      (descriptors files).map (·.id) := by
  obtain ⟨loaded, answers, r, w', loads, called, built⟩ :=
    build_effect modules descriptors store files w
  have moves := called.moves (P := fun _ _ _ => True) fun _ _ _ _ _ => trivial
  rw [built, ← ids_of_loads loads]
  exact ids_of_shape moves.shape_eq

/-- The modules of the registry are those that the daemon was built with. -/
theorem Reachable.ids_eq {conduct : Conduct modules descriptors} {c : Core μ ω}
    (reachable : Reachable conduct c) {ids : List String}
    (known : ∀ fs, (descriptors fs).map (·.id) = ids) : c.registry.map (·.id) = ids := by
  obtain ⟨store, files, w, history⟩ := reachable
  refine history.keeps (P := fun c => c.registry.map (·.id) = ids) ?_ ?_ ?_ ?_
  · exact (Context.build_ids modules descriptors store files w).trans (known files)
  · exact fun e c _ before => (e.ids_eq conduct c).trans before
  · exact fun c r w moves before => (ids_of_shape (Registry.Moves.shape_eq moves)).trans before
  · exact fun _ _ _ before => before

namespace Running

variable {conduct : Conduct modules descriptors} {c : Core μ ω}

theorem reachable (running : Running conduct c) : Reachable conduct c := by
  obtain ⟨store, files, w, -, history⟩ := running
  exact ⟨store, files, w, history⟩

theorem event (running : Running conduct c) (e : Event η) :
    Running conduct (e.run modules c).2 := by
  obtain ⟨store, files, w, sorted, history⟩ := running
  exact ⟨store, files, w, sorted, .event history e trivial⟩

theorem document_sorted (running : Running conduct c) : c.store.document.Sorted := by
  obtain ⟨store, files, w, sorted, history⟩ := running
  refine history.keeps (P := fun c => c.store.document.Sorted) sorted ?_ ?_ ?_
  · exact fun e _ _ before => e.document_sorted before
  · exact fun _ _ _ _ before => before
  · exact fun _ _ _ before => before

theorem ids_eq (running : Running conduct c) {ids : List String}
    (known : ∀ fs, (descriptors fs).map (·.id) = ids) : c.registry.map (·.id) = ids :=
  running.reachable.ids_eq known

end Running

namespace Conduct

variable {conduct : Conduct modules descriptors} {fs : FileSystem} {store : Store}
  {told r r' : Registry μ}

/-- Open modules that are given what they told stand for it again, whatever became of them since. -/
theorem restored_live (lawful : conduct.Lawful) {answers : List (String × Except Fault Unit)}
    (called : Called (fun m => (modules fs).setConfig (store.section? m.id)) r answers r')
    (sound : r.Holds conduct.Valid) (sound_told : told.Holds conduct.Valid)
    (same : r.shape = told.shape)
    (sections : ∀ id value, (id, value) ∈ told.live conduct.config → store.section? id = value) :
    r'.live conduct.config = told.live conduct.config := by
  -- both registries have the same modules open, so they are taken apart together
  induction called generalizing told with
  | nil =>
    obtain rfl := List.map_eq_nil_iff.mp same.symm
    rfl
  | @opened id name s s' a rest rest' answers takes _ ih =>
    cases told with
    | nil => cases same
    | cons m others =>
      obtain ⟨head, tail⟩ := List.cons.inj same
      obtain ⟨id', name', slot⟩ := m
      cases slot with
      | opened t =>
        obtain rfl : id = id' := (Prod.mk.inj head).1
        have section_eq := sections id (conduct.config t) List.mem_cons_self
        dsimp only at takes
        rw [section_eq] at takes
        rw [Registry.live_opened, Registry.live_opened,
          lawful.restored (sound_told.head rfl) (sound.head rfl) takes,
          ih sound.tail sound_told.tail tail fun id value there =>
            sections id value (List.mem_cons_of_mem _ there)]
      | failed => cases (Prod.mk.inj head).2
      | closed t => cases (Prod.mk.inj head).2
  | @passed m rest rest' answers shut _ ih =>
    cases told with
    | nil => cases same
    | cons m' others =>
      obtain ⟨head, tail⟩ := List.cons.inj same
      have shut' : m'.isOpen = false := ((Prod.mk.inj head).2).symm.trans shut
      rw [Registry.live_shut shut'] at sections ⊢
      rw [Registry.live_shut shut]
      exact ih sound.tail sound_told.tail tail sections

/-- Modules that are opened with what they told stand for it again, if none is opened that told
nothing. -/
theorem reopened_live (lawful : conduct.Lawful) {ds : List (Descriptor μ ω)}
    {loaded : Registry μ} (known : ∀ d ∈ ds, d ∈ descriptors fs)
    (loads : List.Forall₂ (fun d m => Loaded.Loads d (store.section? d.id) m) ds loaded)
    (sound : told.Holds conduct.Valid) (same : ds.map (·.id) = told.map (·.id))
    (shut : ∀ m ∈ told, m.isOpen = false → (m.id, true) ∉ loaded.shape)
    (sections : ∀ id value, (id, value) ∈ told.live conduct.config → store.section? id = value) :
    loaded.live conduct.config = told.live conduct.config := by
  induction loads generalizing told with
  | nil =>
    obtain rfl := List.map_eq_nil_iff.mp same.symm
    rfl
  | @cons d m ds loaded one _ ih =>
    cases told with
    | nil => cases same
    | cons m₀ others =>
      obtain ⟨head, tail⟩ := List.cons.inj same
      have never : ∀ m' ∈ others, m'.isOpen = false → (m'.id, true) ∉ Registry.shape loaded :=
        fun m' there closed later =>
          shut m' (List.mem_cons_of_mem m₀ there) closed (List.mem_cons_of_mem _ later)
      have known' := fun d' there => known d' (List.mem_cons_of_mem d there)
      by_cases opened : m₀.isOpen = true
      · obtain ⟨id, name, _ | t | t⟩ := m₀
        · cases opened
        · obtain rfl : d.id = id := head
          have section_eq := sections d.id (conduct.config t) List.mem_cons_self
          have others_eq := ih known' sound.tail tail never fun id value there =>
            sections id value (List.mem_cons_of_mem _ there)
          have again := lawful.reopened (known d List.mem_cons_self) (sound.head rfl)
          cases one with
          | @opened s w w' ran =>
            obtain ⟨s₁, w₁, ran₁, config_eq⟩ := again w
            rw [section_eq, ran₁] at ran
            cases ran
            rw [Registry.live_opened, Registry.live_opened, config_eq, others_eq]
          | @failed f w w' ran =>
            obtain ⟨s₁, w₁, ran₁, -⟩ := again w
            rw [section_eq, ran₁] at ran
            cases ran
        · cases opened
      · have closed : m₀.isOpen = false := (Bool.not_eq_true _).mp opened
        have named : m₀.id = d.id := head.symm
        have not_opened := shut m₀ List.mem_cons_self closed
        rw [named] at not_opened
        have still : m.isOpen = false := by
          cases one with
          | opened ran => exact absurd List.mem_cons_self not_opened
          | failed ran => rfl
        rw [Registry.live_shut closed] at sections ⊢
        rw [Registry.live_shut still]
        exact ih known' sound.tail tail never sections

/-- What open modules answer when they are asked for their sections and closed. -/
theorem farewell_live {answers : List (String × Option Json.Value)}
    (called : Called (fun _ => Registry.farewell (modules fs)) r answers r')
    (sound : r.Holds conduct.Valid) : answers = r.live conduct.config := by
  refine called.tells sound fun m s a s' valid takes => ?_
  obtain ⟨w, w', ran⟩ := takes
  have asked : ((modules fs).getConfig).Takes s ((modules fs).getConfig s w).1.1
      ((modules fs).getConfig s w).1.2 := ⟨w, ((modules fs).getConfig s w).2, rfl⟩
  have first : (Registry.farewell (modules fs) s w).1.1 = ((modules fs).getConfig s w).1.1 := rfl
  rw [ran] at first
  exact first.trans (conduct.getting valid asked).1

/-- The open modules are among all, in the same order. -/
theorem live_ids (conduct : Conduct modules descriptors) (r : Registry μ) :
    ((r.live conduct.config).map Prod.fst).Sublist (r.map (·.id)) := by
  induction r with
  | nil => exact .slnil
  | cons m rest ih =>
    obtain ⟨id, name, _ | s | s⟩ := m
    · exact ih.cons id
    · exact ih.cons_cons id
    · exact ih.cons id

end Conduct

section Owners

/-- Any port comes back from its section. -/
theorem httpd_restored (h : Httpd) : Httpd.ofSection (some h.toSection) = h := by
  obtain ⟨port⟩ := h
  have small : port.toNat < 65536 := port.toNat_lt
  have natural : (Json.Value.nat port.toNat).natural? = some port.toNat := rfl
  simp [Httpd.ofSection, Httpd.toSection, Config.setting?, Json.Members.find?, Httpd.port?,
    natural, small]

theorem httpd_comesBack (h : Httpd) : h.toSection.ComesBack := by
  have small : h.port.toNat < 65536 := h.port.toNat_lt
  have range : (Json.Number.integer h.port.toNat).InRange := by
    constructor
    · unfold Json.leastInteger
      omega
    · unfold Json.greatestInteger
      omega
  exact ⟨⟨List.pairwise_singleton _ _, Json.Number.rereads_integer range, trivial⟩,
    show 1 < Json.maxDepth by decide⟩

theorem music_comesBack (m : Config.Music) : m.toSection.ComesBack :=
  ⟨⟨List.pairwise_singleton _ _, trivial, trivial⟩, show 1 < Json.maxDepth by decide⟩

end Owners

structure Recorded (conduct : Conduct modules descriptors) (c : Core μ ω) (store : Store) :
    Prop where
  path_eq : store.path = c.store.path
  sorted : store.document.Sorted
  httpd : store.section? Httpd.key = some c.httpd.toSection
  sections : ∀ id value, (id, value) ∈ c.registry.live conduct.config →
    store.section? id = value

/-- The sections of the modules and the foreign ones come back; the daemon's own does anyway. -/
def ForeignComeBack (store : Store) : Prop :=
  ∀ m ∈ store.document, m.1 ≠ Httpd.key → m.2.ComesBack

namespace ForeignComeBack

variable {store : Store} {answers : List (String × Option Json.Value)}

protected theorem setSection (before : ForeignComeBack store) {key : String}
    {value : Option Json.Value} (back : ∀ v, value = some v → key ≠ Httpd.key → v.ComesBack) :
    ForeignComeBack (store.setSection key value) := by
  intro m there foreign
  rcases Json.Members.mem_of_mem_put there with ⟨v, rfl, rfl⟩ | old
  · exact back v rfl foreign
  · exact before m old foreign

protected theorem collected (before : ForeignComeBack store)
    (each : ∀ id v, (id, some v) ∈ answers → v.ComesBack) :
    ForeignComeBack (Core.collected store answers) := by
  induction answers generalizing store with
  | nil => exact before
  | cons answer rest ih =>
    rw [collected_cons]
    obtain ⟨id, value⟩ := answer
    refine ih (before.setSection ?_) fun id' v there => each id' v (List.mem_cons_of_mem _ there)
    rintro v rfl -
    exact each id v List.mem_cons_self

/-- Sections come back from a save and from a shutdown if they did before and so do those that
modules tell. -/
theorem saved {conduct : Conduct modules descriptors} {c : Core μ ω}
    (before : ForeignComeBack c.store) (sound : conduct.Sound c)
    (tells : ∀ s v, conduct.config s = some v → v.ComesBack) :
    ForeignComeBack (Core.save modules c).2.store ∧
      ForeignComeBack (Core.shutdown modules c).2.store := by
  have live (id : String) (v : Json.Value)
      (there : (id, some v) ∈ c.registry.live conduct.config) : v.ComesBack := by
    obtain ⟨s, told⟩ := Registry.exists_of_live there
    exact tells s v told.symm
  have own {store : Store} (others : ForeignComeBack store) :
      ForeignComeBack (store.setSection Httpd.key (some c.httpd.toSection)) :=
    others.setSection fun _ _ foreign => absurd rfl foreign
  constructor
  · obtain ⟨answers, r, w, ran, after⟩ := Core.save_effect modules c
    rw [(after _ rfl).1, (Conduct.get_live (Registry.called_of_callAll ran) sound).1]
    exact (own before).collected live
  · obtain ⟨answers, r, w, ran, after⟩ := Core.shutdown_effect modules c
    rw [after, Conduct.farewell_live (Registry.called_of_callAll ran) sound]
    exact own (before.collected live)

end ForeignComeBack

/-- The port can be read off the configuration that is told. -/
theorem httpd_told {conduct : Conduct modules descriptors} {c : Core μ ω}
    (foreign : Httpd.key ∉ c.registry.map (·.id)) :
    Httpd.ofSection ((conduct.told c).find? Httpd.key) = c.httpd := by
  have others (ms : Json.Members) (silent : ∀ m ∈ ms, m.1 ≠ Httpd.key) (seen : Json.Members) :
      (ms.foldl (fun seen m => seen.set m.1 m.2) seen).find? Httpd.key =
        seen.find? Httpd.key := by
    induction ms generalizing seen with
    | nil => rfl
    | cons m rest ih =>
      rw [List.foldl_cons, ih fun m' there => silent m' (List.mem_cons_of_mem _ there),
        Json.Members.find?_set_other (silent m List.mem_cons_self).symm]
  have first : (conduct.told c).find? Httpd.key = some c.httpd.toSection := by
    rw [Conduct.told, Json.Members.ofList, List.foldl_cons, others, Json.Members.find?_set_self]
    intro m there
    obtain ⟨⟨id, value⟩, live, same⟩ := List.mem_filterMap.mp there
    obtain ⟨v, -, rfl⟩ := Option.map_eq_some_iff.mp same
    rintro rfl
    exact foreign ((conduct.live_ids c.registry).subset (List.mem_map_of_mem live))
  rw [first, httpd_restored]

namespace Recorded

variable {conduct : Conduct modules descriptors} {c c' : Core μ ω} {store : Store}

/-- All sections of the document come back. -/
theorem rereads (recorded : Recorded conduct c store) (comes_back : ForeignComeBack store) :
    store.Rereads := by
  intro m there
  by_cases own : m.1 = Httpd.key
  · have found := Json.Members.find?_of_mem recorded.sorted there
    rw [own] at found
    rw [← Option.some.inj (recorded.httpd.symm.trans found)]
    exact httpd_comesBack c.httpd
  · exact comes_back m there own

theorem load_eq (recorded : Recorded conduct c store) (comes_back : ForeignComeBack store)
    {files : FileSystem} (holds : files.content store.path = .ok store.text) :
    Store.openAt files store.path = store :=
  Store.openAt_of_content recorded.sorted (recorded.rereads comes_back) holds

theorem httpdOf_eq (recorded : Recorded conduct c store) : Core.httpdOf store = c.httpd := by
  rw [Core.httpdOf, recorded.httpd, httpd_restored]

/-- Reloading from a file that holds the document brings back what was told, if the modules that
were open then are open now. -/
theorem reload_told (recorded : Recorded conduct c store) (lawful : conduct.Lawful)
    (comes_back : ForeignComeBack store) (sound : conduct.Sound c) (sound' : conduct.Sound c')
    (same : c'.registry.shape = c.registry.shape) (at_path : c'.store.path = store.path)
    (holds : c'.files.content store.path = .ok store.text) :
    (Core.snapshot modules "" (Core.reload modules c').2).1 = (Core.snapshot modules "" c).1 := by
  obtain ⟨answers, r, w, ran, reloaded⟩ := Core.reload_effect modules c'
  have loaded : c'.store.load c'.files = store := by
    rw [Store.load, at_path, recorded.load_eq comes_back holds]
  have live : r.live conduct.config = c.registry.live conduct.config := by
    rw [loaded] at ran
    exact Conduct.restored_live lawful (Registry.called_of_callAll ran) sound' sound same
      recorded.sections
  have sound_after : conduct.Sound (Core.reload modules c').2 :=
    Event.sound conduct .reload c' sound'
  rw [conduct.snapshot_told sound_after, conduct.snapshot_told sound, reloaded]
  rw [Conduct.told, Conduct.told, loaded, recorded.httpdOf_eq, live]

/-- Building a daemon on a file that holds the document brings back what was told, if only modules
are opened that told something. -/
theorem build_told (recorded : Recorded conduct c store) (lawful : conduct.Lawful)
    (comes_back : ForeignComeBack store) (sound : conduct.Sound c) {files : FileSystem} {w : ω}
    (distinct : (c.registry.map (·.id)).Nodup)
    (same : (descriptors files).map (·.id) = c.registry.map (·.id))
    (holds : files.content store.path = .ok store.text)
    (no_other : ∀ id, (id, true) ∈ (Context.build modules descriptors
      (.openAt files store.path) files w).core.registry.shape → (id, true) ∈ c.registry.shape) :
    (Core.snapshot modules ""
        (Context.build modules descriptors (.openAt files store.path) files w).core).1 =
      (Core.snapshot modules "" c).1 := by
  have sound_built := conduct.build_sound (.openAt files store.path) files w
  obtain ⟨loaded, routes, f, w', loads, called, built⟩ :=
    Context.build_effect modules descriptors (.openAt files store.path) files w
  rw [conduct.snapshot_told sound_built, conduct.snapshot_told sound]
  rw [built] at no_other ⊢
  have opened := recorded.load_eq comes_back holds
  rw [opened] at loads ⊢
  have moved := Conduct.route_moves conduct called
  -- ids are distinct, so a module that is opened under the id of a closed one would be that one
  have shut : ∀ m ∈ c.registry, m.isOpen = false → (m.id, true) ∉ Registry.shape loaded := by
    intro m there closed later
    have open_before := no_other m.id ((Registry.Moves.shape_eq moved).symm ▸ later)
    obtain ⟨m', there', same'⟩ := List.mem_map.mp open_before
    obtain ⟨same_id, opened'⟩ := Prod.mk.inj same'
    have one : m' = m := List.inj_on_of_nodup_map distinct there' there same_id
    rw [one, closed] at opened'
    cases opened'
  have live : f.live conduct.config = c.registry.live conduct.config := by
    rw [Conduct.route_live called (Conduct.load_sound conduct (fun _ there => there) loads)]
    exact Conduct.reopened_live lawful (fun _ there => there) loads sound same shut
      recorded.sections
  rw [Conduct.told, Conduct.told, live, recorded.httpdOf_eq]

end Recorded

namespace Running

variable {conduct : Conduct modules descriptors} {c : Core μ ω} {ids : List String}

/-- Saving records what the owners tell. -/
theorem save_records (running : Running conduct c)
    (known : ∀ fs, (descriptors fs).map (·.id) = ids) (distinct : ids.Nodup)
    (foreign : Httpd.key ∉ ids) : Recorded conduct c (Core.save modules c).2.store := by
  obtain ⟨answers, r, w, ran, after⟩ := Core.save_effect modules c
  have sorted := setSection_sorted running.document_sorted Httpd.key (some c.httpd.toSection)
  obtain ⟨told, -⟩ := Conduct.get_live (Registry.called_of_callAll ran) running.reachable.sound
  have among := conduct.live_ids c.registry
  rw [running.ids_eq known, ← told] at among
  -- the daemon's own section is put in first, and no module answers under its key
  have silent : Httpd.key ∉ answers.map Prod.fst := fun there => foreign (among.subset there)
  rw [(after _ rfl).1]
  refine ⟨collected_path _ _, collected_sorted sorted, ?_, fun id value there => ?_⟩
  · rw [section?_collected_other silent, section?_setSection running.document_sorted]
  · exact section?_collected sorted (among.nodup distinct) (told ▸ there)

/-- A shutdown does the same. -/
theorem shutdown_records (running : Running conduct c)
    (known : ∀ fs, (descriptors fs).map (·.id) = ids) (distinct : ids.Nodup)
    (foreign : Httpd.key ∉ ids) : Recorded conduct c (Core.shutdown modules c).2.store := by
  obtain ⟨answers, r, w, ran, after⟩ := Core.shutdown_effect modules c
  have sorted : (Core.collected c.store answers).document.Sorted :=
    collected_sorted running.document_sorted
  have told := Conduct.farewell_live (Registry.called_of_callAll ran) running.reachable.sound
  have among := conduct.live_ids c.registry
  rw [running.ids_eq known, ← told] at among
  rw [after]
  refine ⟨collected_path _ _, setSection_sorted sorted _ _, section?_setSection sorted _ _,
    fun id value there => ?_⟩
  -- here the daemon's own section is put in last, and must not replace that of a module
  have apart : id ≠ Httpd.key := by
    rintro rfl
    exact foreign (among.subset (told ▸ List.mem_map_of_mem there))
  exact (section?_setSection_other apart _).trans
    (section?_collected running.document_sorted (among.nodup distinct) (told ▸ there))

/-- Events that do not write the file leave what was saved where it is. -/
theorem undisturbed {c' : Core μ ω} {path : Storage.Path}
    (history : History conduct Event.Quiet (fun fs fs' => fs'.content path = fs.content path)
      c c') :
    c'.store.path = c.store.path ∧ c'.files.content path = c.files.content path ∧
      c'.registry.shape = c.registry.shape := by
  refine history.keeps (P := fun c' => c'.store.path = c.store.path ∧
    c'.files.content path = c.files.content path ∧ c'.registry.shape = c.registry.shape)
    ⟨rfl, rfl, rfl⟩ ?_ ?_ ?_
  · rintro e c₁ quiet ⟨path_eq, content_eq, shape_eq⟩
    have running : e ≠ .shutdown := by
      rintro rfl
      exact quiet
    exact ⟨(e.path_eq c₁).trans path_eq, by rw [e.files_eq c₁ quiet, content_eq],
      (Registry.Moves.shape_eq (e.moves conduct c₁ running)).trans shape_eq⟩
  · rintro c₁ r w moves ⟨path_eq, content_eq, shape_eq⟩
    exact ⟨path_eq, content_eq, (Registry.Moves.shape_eq moves).trans shape_eq⟩
  · rintro c₁ fs same ⟨path_eq, content_eq, shape_eq⟩
    exact ⟨path_eq, same.trans content_eq, shape_eq⟩

end Running

/-- The player takes back what it told. -/
theorem player_lawful {υ : Type} (h : FileSystem → Playback.Host υ) :
    (Playback.Service.conduct h).Lawful where
  restored {_ _ told _ _ _} valid _ takes := by
    obtain ⟨w, w', ran⟩ := takes
    cases ran
    exact congrArg (some ·.toSection) (Config.Music.ofSection_toSection valid)
  reopened {_ d told} known valid w := by
    obtain rfl := List.mem_singleton.mp known
    refine ⟨_, w, rfl, ?_⟩
    exact congrArg (some ·.toSection) (Config.Music.ofSection_toSection valid)

/-- What was saved comes back: by reloading after anything but another write of the file, and by a
restart after a shutdown if only modules are opened that were open before. The section of the HTTP
layer and that of the player can be told, written, read and taken back, whatever their settings.
Links must not lead the save astray. -/
theorem Running.saved_comes_back {conduct : Conduct modules descriptors} {c : Core μ ω}
    {ids : List String} (running : Running conduct c) (lawful : conduct.Lawful)
    (known : ∀ fs, (descriptors fs).map (·.id) = ids) (distinct : ids.Nodup)
    (foreign : Httpd.key ∉ ids) (straight : Store.Straight c.store.path c.files) :
    ((Core.save modules c).1 = .ok () → ForeignComeBack (Core.save modules c).2.store →
      ∀ c', History conduct Event.Quiet
          (fun fs fs' => fs'.content c.store.path = fs.content c.store.path)
          (Core.save modules c).2 c' →
        (Core.snapshot modules "" (Core.reload modules c').2).1 =
          (Core.snapshot modules "" c).1) ∧
    ((Core.shutdown modules c).1 = .ok () → ForeignComeBack (Core.shutdown modules c).2.store →
      ∀ files w,
        files.content c.store.path = (Core.shutdown modules c).2.files.content c.store.path →
        (∀ id, (id, true) ∈ (Context.build modules descriptors (.openAt files c.store.path) files
          w).core.registry.shape → (id, true) ∈ c.registry.shape) →
        (Core.snapshot modules "" (Context.build modules descriptors
            (.openAt files c.store.path) files w).core).1 =
          (Core.snapshot modules "" c).1) ∧
    (∀ h : Httpd, Httpd.ofSection (some h.toSection) = h ∧ h.toSection.ComesBack) ∧
    (∀ value, Config.Music.ofSection (some (Config.Music.ofSection value).toSection) =
        Config.Music.ofSection value ∧ (Config.Music.ofSection value).toSection.ComesBack) ∧
    ∀ {υ : Type} (h : FileSystem → Playback.Host υ), (Playback.Service.conduct h).Lawful := by
  have sound := running.reachable.sound
  refine ⟨fun done comes_back c' history => ?_, fun done comes_back files w same no_other => ?_,
    fun h => ⟨httpd_restored h, httpd_comesBack h⟩, fun value => ⟨?_, music_comesBack _⟩,
    fun h => player_lawful h⟩
  · have recorded := running.save_records known distinct foreign
    obtain ⟨-, writes, succeeds⟩ := Core.save_writes modules c
    have saved := Store.content_of_saved (Prod.ext (succeeds.mp done) writes.symm)
      (recorded.path_eq.symm ▸ straight)
    obtain ⟨path_eq, content_eq, shape_eq⟩ := undisturbed history
    have sound_saved : conduct.Sound (Core.save modules c).2 := Event.sound conduct .save c sound
    have moves : conduct.Moves c.registry (Core.save modules c).2.registry :=
      Event.moves conduct .save c (by rintro ⟨⟩)
    refine recorded.reload_told lawful comes_back sound (history.sound sound_saved)
      (shape_eq.trans (Registry.Moves.shape_eq moves)) path_eq ?_
    rw [recorded.path_eq] at saved ⊢
    exact content_eq.trans saved
  · have recorded := running.shutdown_records known distinct foreign
    obtain ⟨-, writes, succeeds⟩ := Core.shutdown_writes modules c
    have saved := Store.content_of_saved (Prod.ext (succeeds.symm.trans done) writes.symm)
      (recorded.path_eq.symm ▸ straight)
    have ids_eq := running.ids_eq known
    rw [← recorded.path_eq] at same no_other ⊢
    exact recorded.build_told lawful comes_back sound (ids_eq.symm ▸ distinct)
      ((known files).trans ids_eq.symm) (same.trans saved) no_other
  · exact Config.Music.ofSection_toSection (Config.Music.ofSection_told value)

section Ported

abbrev rehearsedModules :
    Surroundings Playback.Player (Playback.Rehearsal × List Playback.Call) Playback.Request :=
  Playback.Service.modules fun _ => .rehearsed

abbrev rehearsedConduct :
    Conduct rehearsedModules Playback.Service.descriptors :=
  Playback.Service.conduct fun _ => .rehearsed

def ported (files : FileSystem) : Core Playback.Player (Playback.Rehearsal × List Playback.Call) :=
  ((Event.apply "" [(Httpd.key, .object [("port", .nat 9000)])]).run rehearsedModules
    (Context.build rehearsedModules Playback.Service.descriptors ⟨Store.plainPath, []⟩ files
      (⟨0, 0, [], .playing, false⟩, [])).core).2

theorem ported_running (files : FileSystem) : Running rehearsedConduct (ported files) :=
  ⟨⟨Store.plainPath, []⟩, files, (⟨0, 0, [], .playing, false⟩, []), .nil, .event .start _ trivial⟩

theorem ported_store (files : FileSystem) : (ported files).store = ⟨Store.plainPath, []⟩ := rfl

theorem ported_foreign (files : FileSystem) :
    ForeignComeBack (Core.save rehearsedModules (ported files)).2.store ∧
      ForeignComeBack (Core.shutdown rehearsedModules (ported files)).2.store := by
  have before : ForeignComeBack (ported files).store := by
    rw [ported_store]
    exact List.forall_mem_nil _
  refine before.saved (ported_running files).reachable.sound ?_
  rintro p v ⟨⟩
  exact music_comesBack _

/-- Without links, both ways bring the port back. -/
theorem ported_comes_back :
    Running rehearsedConduct (ported .empty) ∧ rehearsedConduct.Lawful ∧
    (ported .empty).registry.shape = [("files", true)] ∧
    Store.Straight (ported .empty).store.path (ported .empty).files ∧
    (ported .empty).httpd = ⟨9000⟩ ∧
    (Core.save rehearsedModules (ported .empty)).1 = .ok () ∧
    (Core.snapshot rehearsedModules "" (Core.reload rehearsedModules
        (Event.resetDefaults.run rehearsedModules
          (Core.save rehearsedModules (ported .empty)).2).2).2).1 =
      (Core.snapshot rehearsedModules "" (ported .empty)).1 ∧
    (Core.shutdown rehearsedModules (ported .empty)).1 = .ok () ∧
    (Core.snapshot rehearsedModules "" (Context.build rehearsedModules Playback.Service.descriptors
        (.openAt (Core.shutdown rehearsedModules (ported .empty)).2.files
          (ported .empty).store.path)
        (Core.shutdown rehearsedModules (ported .empty)).2.files
        (⟨0, 0, [], .playing, false⟩, [])).core).1 =
      (Core.snapshot rehearsedModules "" (ported .empty)).1 := by
  have saved : (Core.save rehearsedModules (ported .empty)).1 = .ok () := by
    obtain ⟨path_eq, -, succeeds⟩ := Core.save_writes rehearsedModules (ported .empty)
    obtain ⟨fs', done⟩ := Store.save_empty path_eq
    exact succeeds.mpr (congrArg Prod.fst done)
  have shut : (Core.shutdown rehearsedModules (ported .empty)).1 = .ok () := by
    obtain ⟨path_eq, -, succeeds⟩ := Core.shutdown_writes rehearsedModules (ported .empty)
    obtain ⟨fs', done⟩ := Store.save_empty path_eq
    exact succeeds.trans (congrArg Prod.fst done)
  obtain ⟨reloads, restarts, -⟩ := Running.saved_comes_back (ported_running .empty)
    (player_lawful _) (fun _ => rfl) (List.nodup_singleton _) (by decide) (straight_empty _)
  obtain ⟨save_foreign, shutdown_foreign⟩ := ported_foreign .empty
  exact ⟨ported_running .empty, player_lawful _, rfl, straight_empty _, rfl, saved,
    reloads saved save_foreign _ (.event .start .resetDefaults trivial), shut,
    restarts shut shutdown_foreign _ _ rfl fun _ there => there⟩

/-- When the sibling's name is that of a link to the configuration file, the port is lost although
the save succeeds. -/
theorem ported_linked_lost :
    Running rehearsedConduct (ported Store.linkedFiles) ∧ rehearsedConduct.Lawful ∧
    (ported Store.linkedFiles).registry.shape = [("files", true)] ∧
    (Core.save rehearsedModules (ported Store.linkedFiles)).1 = .ok () ∧
    ForeignComeBack (Core.save rehearsedModules (ported Store.linkedFiles)).2.store ∧
    (Core.snapshot rehearsedModules "" (Core.reload rehearsedModules
        (Core.save rehearsedModules (ported Store.linkedFiles)).2).2).1 ≠
      (Core.snapshot rehearsedModules "" (ported Store.linkedFiles)).1 := by
  obtain ⟨path_eq, writes, succeeds⟩ :=
    Core.save_writes rehearsedModules (ported Store.linkedFiles)
  have done : _ = (Except.ok (), Store.loopedFiles) := Store.save_linked path_eq
  have running := ported_running Store.linkedFiles
  refine ⟨running, player_lawful _, rfl, succeeds.mpr (congrArg Prod.fst done),
    (ported_foreign _).1, fun same => ?_⟩
  have own {c : Core Playback.Player (Playback.Rehearsal × List Playback.Call)}
      (running : Running rehearsedConduct c) :
      Httpd.ofSection ((Core.snapshot rehearsedModules "" c).1.find? Httpd.key) = c.httpd := by
    rw [Conduct.snapshot_told _ running.reachable.sound]
    refine httpd_told ?_
    rw [running.ids_eq fun _ => rfl]
    decide
  have lost : (Core.reload rehearsedModules
      (Core.save rehearsedModules (ported Store.linkedFiles)).2).2.httpd = .default := by
    obtain ⟨_, _, _, _, reloaded⟩ := Core.reload_effect rehearsedModules
      (Core.save rehearsedModules (ported Store.linkedFiles)).2
    have files_eq : (Core.save rehearsedModules (ported Store.linkedFiles)).2.files =
        Store.loopedFiles := writes.trans (congrArg Prod.snd done)
    have at_path : (Core.save rehearsedModules (ported Store.linkedFiles)).2.store.path =
        Store.plainPath := path_eq
    rw [reloaded]
    dsimp only
    rw [Store.load, at_path, files_eq, Store.openAt, Store.documentAt, Store.content_looped]
    rfl
  have before : (ported Store.linkedFiles).httpd = ⟨9000⟩ := rfl
  have kept := own ((running.event .save).event .reload)
  have unfolded : (Event.reload.run rehearsedModules
      (Event.save.run rehearsedModules (ported Store.linkedFiles)).2).2 =
        (Core.reload rehearsedModules
          (Core.save rehearsedModules (ported Store.linkedFiles)).2).2 := rfl
  rw [unfolded, same, own running, lost, before] at kept
  revert kept
  decide

end Ported

end Jukebox.Daemon
