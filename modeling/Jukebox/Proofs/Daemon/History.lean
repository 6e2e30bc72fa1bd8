import Jukebox.Daemon.Gateway
import Jukebox.Proofs.Config.Sections
import Jukebox.Proofs.Module.Calls
/-!
# Histories of the daemon

`Conduct` collects what is known of the modules: the states they can be in and the configuration
that such a state stands for, which is what a module answers when it is asked. `Event` lists what
the daemon can be told to do, and `History` strings events together; between two events open
modules may move on by themselves, the world may become any other and the file system be changed.

A served request is one event or none.
-/
namespace Jukebox.Daemon

open Config (Httpd Store)
open Storage (FileSystem)
open Jukebox.Module (Call Called Descriptor Interface Loaded Registry)

variable {μ ω η : Type} {modules : Surroundings μ ω η}
  {descriptors : FileSystem → List (Descriptor μ ω)}

/-- How modules behave: `Valid` holds of the states that a module of an id is opened in and gets
into, and `config` is the section that a state stands for. Asking for the section or for the routes
does not change it. -/
structure Conduct (modules : Surroundings μ ω η)
    (descriptors : FileSystem → List (Descriptor μ ω)) where
  Valid : String → μ → Prop
  config : μ → Option Json.Value
  opening : ∀ {fs d value w s w'}, d ∈ descriptors fs → d.opening value w = (.ok s, w') →
    Valid d.id s
  setting : ∀ {fs id value s r s'}, Valid id s → ((modules fs).setConfig value).Takes s r s' →
    Valid id s'
  getting : ∀ {fs id s value s'}, Valid id s → (modules fs).getConfig.Takes s value s' →
    value = config s ∧ Valid id s' ∧ config s' = config s
  routing : ∀ {fs id s routes s'}, Valid id s → (modules fs).routes.Takes s routes s' →
    Valid id s' ∧ config s' = config s
  handling : ∀ {fs id x q s reply s'}, Valid id s → ((modules fs).handle x q).Takes s reply s' →
    Valid id s'

/-- Opening a module with a section, and giving it that section later, lead to the same
configuration. -/
def Conduct.Agrees (conduct : Conduct modules descriptors) : Prop :=
  ∀ fs, ∀ d ∈ descriptors fs, ∀ value w s w', d.opening value w = (.ok s, w') →
    ∀ s₀ r s', conduct.Valid d.id s₀ → ((modules fs).setConfig value).Takes s₀ r s' →
      conduct.config s' = conduct.config s

/-- What the daemon is told to do, by its own requests or by those of its modules. -/
inductive Event (η : Type) where
  | resetDefaults
  | reload
  | save
  | snapshot (resource : String)
  | apply (resource : String) (body : Json.Members)
  | request (position : Nat) (handler : η) (q : Http.Request)
  | shutdown

def Event.run (modules : Surroundings μ ω η) : Event η → Operation μ ω Unit
  | .resetDefaults => Core.resetDefaults modules
  | .reload => Core.reload modules
  | .save => do let _ ← Core.save modules
  | .snapshot resource => do let _ ← Core.snapshot modules resource
  | .apply resource body => Core.apply modules resource body
  | .request position handler q => do
    let _ ← Core.onRegistry modules fun i r => r.handle i position handler q
  | .shutdown => do let _ ← Core.shutdown modules

/-- Events that do not write the file. -/
def Event.Quiet : Event η → Prop
  | .save => False
  | .shutdown => False
  | _ => True

/-- Modules move on and stay valid. -/
def Conduct.Moves (conduct : Conduct modules descriptors) (r r' : Registry μ) : Prop :=
  r.Moves (fun id s s' => conduct.Valid id s → conduct.Valid id s') r'

/-- What can become of the daemon through events of a kind and changes of the file system of a
kind. -/
inductive History (conduct : Conduct modules descriptors) (allowed : Event η → Prop)
    (rewrites : FileSystem → FileSystem → Prop) (first : Core μ ω) : Core μ ω → Prop
  | start : History conduct allowed rewrites first first
  | event {c : Core μ ω} (before : History conduct allowed rewrites first c) (e : Event η)
      (may : allowed e) : History conduct allowed rewrites first (e.run modules c).2
  | background {c : Core μ ω} (before : History conduct allowed rewrites first c)
      (r : Registry μ) (moves : conduct.Moves c.registry r) (w : ω) :
      History conduct allowed rewrites first { c with registry := r, world := w }
  | rewrite {c : Core μ ω} (before : History conduct allowed rewrites first c) (fs : FileSystem)
      (may : rewrites c.files fs) : History conduct allowed rewrites first { c with files := fs }

/-- Every state of a daemon that was built: all events may happen, and files be changed at will. -/
def Reachable (conduct : Conduct modules descriptors) (c : Core μ ω) : Prop :=
  ∃ (store : Store) (files : FileSystem) (w : ω),
    History conduct (fun _ => True) (fun _ _ => True)
      (Context.build modules descriptors store files w).core c

/-- Open modules are in valid states. -/
def Conduct.Sound (conduct : Conduct modules descriptors) (c : Core μ ω) : Prop :=
  c.registry.Holds conduct.Valid

/-- The live configuration: the section of the HTTP layer and those of the open modules that have
one. -/
def Conduct.told (conduct : Conduct modules descriptors) (c : Core μ ω) : Json.Members :=
  Json.Members.ofList ((Httpd.key, c.httpd.toSection) ::
    (c.registry.live conduct.config).filterMap fun (id, v) => v.map fun v => (id, v))

namespace Core

variable (modules) (c : Core μ ω)

/-- Resetting calls every open module without a section. -/
theorem resetDefaults_effect : ∃ answers r w,
    Registry.callAll (fun _ => (modules c.files).setConfig none) c.registry c.world =
      ((answers, r), w) ∧
    (resetDefaults modules c).2 = { c with httpd := .default, registry := r, world := w } :=
  ⟨_, _, _, rfl, rfl⟩

/-- Reloading calls every open module with its section of the document read. -/
theorem reload_effect : ∃ answers r w,
    Registry.callAll
      (fun m => (modules c.files).setConfig ((c.store.load c.files).section? m.id)) c.registry
      c.world = ((answers, r), w) ∧
    (reload modules c).2 =
      ⟨r, c.store.load c.files, httpdOf (c.store.load c.files), c.files, w⟩ :=
  ⟨_, _, _, rfl, rfl⟩

/-- A snapshot asks every open module for its section. -/
theorem snapshot_effect (resource : String) : ∃ answers r w,
    Registry.callAll (fun _ => (modules c.files).getConfig) c.registry c.world =
      ((answers, r), w) ∧
    snapshot modules resource c =
      (Json.Members.ofList
        ((if selects resource Httpd.key then [(Httpd.key, c.httpd.toSection)] else []) ++
          (answers.filterMap fun (id, v) => v.map fun v => (id, v)).filter
            fun (id, _) => selects resource id),
        { c with registry := r, world := w }) :=
  ⟨_, _, _, rfl, rfl⟩

/-- The members of a body are applied one after the other, those that were not asked for left
out. -/
theorem apply_cons (resource : String) (member : String × Json.Value) (rest : Json.Members) :
    (apply modules resource (member :: rest) c).2 =
      (apply modules resource rest
        (if selects resource member.1 then (applySection modules member.1 member.2 c).2
          else c)).2 := by
  obtain ⟨key, value⟩ := member
  by_cases chosen : selects resource key = true
  · rw [apply, if_pos chosen, if_pos chosen]
    rfl
  · rw [apply, if_neg chosen, if_neg chosen]

/-- Applying sections writes neither the document nor a file. -/
theorem apply_frame (resource : String) (body : Json.Members) :
    (apply modules resource body c).2.store = c.store ∧
      (apply modules resource body c).2.files = c.files := by
  induction body generalizing c with
  | nil => exact ⟨rfl, rfl⟩
  | cons member rest ih =>
    have one : (applySection modules member.1 member.2 c).2.store = c.store ∧
        (applySection modules member.1 member.2 c).2.files = c.files := by
      rw [applySection]
      split <;> exact ⟨rfl, rfl⟩
    rw [apply_cons]
    split
    · exact ⟨(ih _).1.trans one.1, (ih _).2.trans one.2⟩
    · exact ih c

/-- The store with a section put in for each answer. -/
def collected (store : Store) (answers : List (String × Option Json.Value)) : Store :=
  answers.foldl (fun s (id, v) => s.setSection id v) store

/-- Writing the document is the end of a save. -/
theorem save_unfolded {answers : List (String × Option Json.Value)} {r : Registry μ} {w : ω}
    (ran : Registry.callAll (fun _ => (modules c.files).getConfig) c.registry c.world =
      ((answers, r), w)) {store : Store}
    (filled : collected (c.store.setSection Httpd.key (some c.httpd.toSection)) answers = store) :
    save modules c =
      (match (store.save.run c.files).1 with
        | .ok () => pure (.ok ())
        | .error f => pure
          (.error (.internal ("Cannot write " ++ store.path.display ++ ": " ++ f.message))) :
        Operation μ ω (Except Fault Unit))
      ⟨r, store, c.httpd, (store.save.run c.files).2, w⟩ := by
  obtain ⟨⟨rfl, rfl⟩, rfl⟩ := Prod.mk.inj ran |>.imp_left Prod.mk.inj
  subst filled
  rfl

/-- Saving asks every open module for its section and writes the document they are put in. -/
theorem save_effect : ∃ answers r w,
    Registry.callAll (fun _ => (modules c.files).getConfig) c.registry c.world =
      ((answers, r), w) ∧
    ∀ store, store = collected (c.store.setSection Httpd.key (some c.httpd.toSection)) answers →
      (save modules c).2 = ⟨r, store, c.httpd, (store.save.run c.files).2, w⟩ ∧
      ((save modules c).1 = .ok () ↔ (store.save.run c.files).1 = .ok ()) := by
  refine ⟨_, _, _, rfl, fun store filled => ?_⟩
  rw [save_unfolded modules c rfl filled.symm]
  rcases store.save.run c.files with ⟨f | ⟨⟩, files⟩
  · exact ⟨rfl, by constructor <;> rintro ⟨⟩⟩
  · exact ⟨rfl, by constructor <;> intro _ <;> rfl⟩

/-- A shutdown takes the section of every open module, closes it and writes the document. -/
theorem shutdown_effect : ∃ answers r w,
    Registry.callAll (fun _ => Registry.farewell (modules c.files)) c.registry c.world =
      ((answers, r), w) ∧
    shutdown modules c =
      (((collected c.store answers).setSection Httpd.key (some c.httpd.toSection)).save.run
          c.files |>.1,
        ⟨r.map (·.retire),
          (collected c.store answers).setSection Httpd.key (some c.httpd.toSection), c.httpd,
          (((collected c.store answers).setSection Httpd.key (some c.httpd.toSection)).save.run
            c.files).2, w⟩) :=
  ⟨_, _, _, rfl, rfl⟩

end Core

namespace Conduct

variable (conduct : Conduct modules descriptors) {c : Core μ ω} {fs : FileSystem}
  {r r' r'' : Registry μ}

theorem moves_refl (r : Registry μ) : conduct.Moves r r := .refl r

variable {conduct}

theorem Moves.trans (first : conduct.Moves r r') (second : conduct.Moves r' r'') :
    conduct.Moves r r'' :=
  Registry.Moves.trans first second fun _ _ _ _ one two valid => two (one valid)

theorem Moves.sound (moves : conduct.Moves r r') (sound : r.Holds conduct.Valid) :
    r'.Holds conduct.Valid :=
  Registry.Moves.holds moves sound fun _ _ _ valid keeps => keeps valid

theorem set_moves {value : Loaded μ → Option Json.Value}
    {answers : List (String × Except Fault Unit)}
    (called : Called (fun m => (modules fs).setConfig (value m)) r answers r') :
    conduct.Moves r r' :=
  called.moves fun _ _ _ _ takes valid => conduct.setting valid takes

theorem get_moves {answers : List (String × Option Json.Value)}
    (called : Called (fun _ => (modules fs).getConfig) r answers r') : conduct.Moves r r' :=
  called.moves fun _ _ _ _ takes valid => (conduct.getting valid takes).2.1

/-- The sections that open modules answer are those their states stand for. -/
theorem get_live {answers : List (String × Option Json.Value)}
    (called : Called (fun _ => (modules fs).getConfig) r answers r')
    (sound : r.Holds conduct.Valid) :
    answers = r.live conduct.config ∧ r'.live conduct.config = r.live conduct.config :=
  ⟨called.tells sound fun _ _ _ _ valid takes => (conduct.getting valid takes).1,
    called.live_eq sound fun _ _ _ _ valid takes => (conduct.getting valid takes).2.2⟩

theorem applySection_moves (key : String) (value : Json.Value) (c : Core μ ω) :
    conduct.Moves c.registry (Core.applySection modules key value c).2.registry := by
  rw [Core.applySection]
  by_cases own : key = Httpd.key
  · rw [if_pos own]
    exact conduct.moves_refl _
  · rw [if_neg own]
    exact Registry.apply_moves (modules c.files) key value
      (P := fun id s s' => conduct.Valid id s → conduct.Valid id s')
      (fun _ _ _ takes valid => conduct.setting valid takes) c.registry c.world

theorem apply_moves (resource : String) (body : Json.Members) (c : Core μ ω) :
    conduct.Moves c.registry (Core.apply modules resource body c).2.registry := by
  induction body generalizing c with
  | nil => exact conduct.moves_refl _
  | cons member rest ih =>
    rw [Core.apply_cons]
    split
    · exact (applySection_moves member.1 member.2 c).trans (ih _)
    · exact ih c

end Conduct

theorem collected_path (store : Store) (answers : List (String × Option Json.Value)) :
    (Core.collected store answers).path = store.path :=
  store.filled_path answers

namespace Event

variable (conduct : Conduct modules descriptors) (e : Event η) (c : Core μ ω)

theorem run_save : (run modules .save c).2 = (Core.save modules c).2 := rfl

theorem run_snapshot (resource : String) :
    (run modules (.snapshot resource) c).2 = (Core.snapshot modules resource c).2 := rfl

theorem run_shutdown : (run modules .shutdown c).2 = (Core.shutdown modules c).2 := rfl

/-- No event but a shutdown closes a module. -/
theorem moves (running : e ≠ .shutdown) :
    conduct.Moves c.registry (e.run modules c).2.registry := by
  cases e with
  | resetDefaults =>
    obtain ⟨answers, r, w, ran, after⟩ := Core.resetDefaults_effect modules c
    rw [run, after]
    exact Conduct.set_moves (Registry.called_of_callAll ran)
  | reload =>
    obtain ⟨answers, r, w, ran, after⟩ := Core.reload_effect modules c
    rw [run, after]
    exact Conduct.set_moves (Registry.called_of_callAll ran)
  | save =>
    obtain ⟨answers, r, w, ran, after⟩ := Core.save_effect modules c
    rw [run_save, (after _ rfl).1]
    exact Conduct.get_moves (Registry.called_of_callAll ran)
  | snapshot resource =>
    obtain ⟨answers, r, w, ran, after⟩ := Core.snapshot_effect modules c resource
    rw [run_snapshot, after]
    exact Conduct.get_moves (Registry.called_of_callAll ran)
  | apply resource body => exact Conduct.apply_moves resource body c
  | request position handler q =>
    exact Registry.handle_moves (modules c.files) position handler q
      (P := fun id s s' => conduct.Valid id s → conduct.Valid id s')
      (fun _ _ _ _ takes valid => conduct.handling valid takes) c.registry c.world
  | shutdown => exact absurd rfl running

theorem sound (before : conduct.Sound c) : conduct.Sound (e.run modules c).2 := by
  by_cases running : e = .shutdown
  · subst running
    obtain ⟨answers, r, w, ran, after⟩ := Core.shutdown_effect modules c
    rw [run_shutdown, after]
    intro m there s here
    obtain ⟨m', -, rfl⟩ := List.mem_map.mp there
    obtain ⟨id, name, slot⟩ := m'
    cases slot <;> cases here
  · exact (moves conduct e c running).sound before

theorem path_eq : (e.run modules c).2.store.path = c.store.path := by
  cases e with
  | save =>
    obtain ⟨answers, r, w, ran, after⟩ := Core.save_effect modules c
    rw [run_save, (after _ rfl).1]
    exact collected_path _ answers
  | apply resource body => exact congrArg Store.path (Core.apply_frame modules c resource body).1
  | shutdown =>
    obtain ⟨answers, r, w, ran, after⟩ := Core.shutdown_effect modules c
    rw [run_shutdown, after]
    exact collected_path _ answers
  | _ => rfl

theorem files_eq (quiet : e.Quiet) : (e.run modules c).2.files = c.files := by
  cases e with
  | save => exact quiet.elim
  | shutdown => exact quiet.elim
  | apply resource body => exact (Core.apply_frame modules c resource body).2
  | _ => rfl

end Event

/-- A daemon is built with the document of its store, and its modules are asked for their routes
right after they were opened. -/
theorem Context.build_effect (modules : Surroundings μ ω η)
    (descriptors : FileSystem → List (Descriptor μ ω)) (store : Store) (files : FileSystem)
    (w : ω) :
    ∃ loaded answers r w',
      List.Forall₂ (fun d m => Loaded.Loads d (store.section? d.id) m) (descriptors files) loaded ∧
      Called (fun _ => (modules files).routes) loaded answers r ∧
      (build modules descriptors store files w).core =
        ⟨r, store, Core.httpdOf store, files, w'⟩ := by
  obtain ⟨answers, called⟩ := Registry.routesFrom_called (modules files) 0
    (Registry.load (descriptors files) store w).1 (Registry.load (descriptors files) store w).2
  exact ⟨_, answers, _, _, Registry.load_loads (descriptors files) store w, called, rfl⟩

namespace Conduct

variable {conduct : Conduct modules descriptors} {fs : FileSystem} {store : Store}
  {ds : List (Descriptor μ ω)} {r r' : Registry μ}

theorem load_sound (conduct : Conduct modules descriptors) (known : ∀ d ∈ ds, d ∈ descriptors fs)
    (loads : List.Forall₂ (fun d m => Loaded.Loads d (store.section? d.id) m) ds r) :
    r.Holds conduct.Valid := by
  induction loads with
  | nil => exact .nil
  | cons one _ ih =>
    refine .cons (fun s here => ?_) (ih fun d there => known d (List.mem_cons_of_mem _ there))
    cases one with
    | opened ran =>
      cases here
      exact conduct.opening (known _ List.mem_cons_self) ran
    | failed ran => cases here

theorem route_moves (conduct : Conduct modules descriptors)
    {answers : List (String × List (Http.Route η))}
    (called : Called (fun _ => (modules fs).routes) r answers r') : conduct.Moves r r' :=
  called.moves fun _ _ _ _ takes valid => (conduct.routing valid takes).1

theorem route_live {answers : List (String × List (Http.Route η))}
    (called : Called (fun _ => (modules fs).routes) r answers r')
    (sound : r.Holds conduct.Valid) : r'.live conduct.config = r.live conduct.config :=
  called.live_eq sound fun _ _ _ _ valid takes => (conduct.routing valid takes).2

variable (conduct)

theorem build_sound (store : Store) (files : FileSystem) (w : ω) :
    conduct.Sound (Context.build modules descriptors store files w).core := by
  obtain ⟨loaded, answers, r, w', loads, called, built⟩ :=
    Context.build_effect modules descriptors store files w
  rw [built]
  exact (route_moves conduct called).sound (load_sound conduct (fun _ there => there) loads)

/-- A snapshot without a choice tells the live configuration, and leaves it as it is. -/
theorem snapshot_told {c : Core μ ω} (sound : conduct.Sound c) :
    (Core.snapshot modules "" c).1 = conduct.told c := by
  obtain ⟨answers, r, w, ran, after⟩ := Core.snapshot_effect modules c ""
  have every (key : String) : Core.selects "" key = true := by simp [Core.selects]
  rw [after, (get_live (Registry.called_of_callAll ran) sound).1, told]
  simp [every]

end Conduct

theorem History.sound {conduct : Conduct modules descriptors} {allowed : Event η → Prop}
    {rewrites : FileSystem → FileSystem → Prop} {first c : Core μ ω}
    (history : History conduct allowed rewrites first c) (before : conduct.Sound first) :
    conduct.Sound c := by
  induction history with
  | start => exact before
  | event _ e may ih => exact e.sound conduct _ ih
  | background _ r moves w ih => exact moves.sound ih
  | rewrite _ fs may ih => exact ih

theorem Reachable.sound {conduct : Conduct modules descriptors} {c : Core μ ω}
    (reachable : Reachable conduct c) : conduct.Sound c := by
  obtain ⟨store, files, w, history⟩ := reachable
  exact history.sound (conduct.build_sound store files w)

/-- A state is left as it is, or by one event. -/
def OneEvent (modules : Surroundings μ ω η) (c c' : Core μ ω) : Prop :=
  c' = c ∨ ∃ e : Event η, c' = (e.run modules c).2

theorem ConfigRequest.handle_save (q : Http.Request) (c : Core μ ω) :
    ConfigRequest.save.handle modules q c =
      (match (Core.save modules c).1 with
        | .ok () => pure .ok
        | .error _ => pure (.text 500 "Cannot save configuration") :
        Operation μ ω Http.Response) (Core.save modules c).2 := rfl

theorem ConfigRequest.handle_event (r : ConfigRequest) (q : Http.Request) (c : Core μ ω) :
    OneEvent modules c (r.handle modules q c).2 := by
  cases r with
  | resetDefaults => exact Or.inr ⟨.resetDefaults, rfl⟩
  | reload => exact Or.inr ⟨.reload, rfl⟩
  | save =>
    refine Or.inr ⟨.save, ?_⟩
    rw [ConfigRequest.handle_save]
    cases (Core.save modules c).1 <;> rfl
  | sections =>
    rw [handle]
    split
    · exact Or.inr ⟨.snapshot q.resource, rfl⟩
    · rcases q.json with _ | document
      · exact Or.inl rfl
      · cases document with
        | object sections => exact Or.inr ⟨.apply q.resource sections, rfl⟩
        | _ => exact Or.inl rfl

theorem Target.handle_event (t : Target η) (q : Http.Request) (c : Core μ ω) :
    OneEvent modules c (t.handle modules q c).2 := by
  cases t with
  | config r => exact r.handle_event q c
  | module position handler => exact Or.inr ⟨.request position handler q, rfl⟩

theorem Context.answer_event (m : Http.Method) (path : String) (body : List UInt8)
    (c : Context μ ω η) : OneEvent modules c.core (answer modules m path body c).2.core ∧
      (answer modules m path body c).2.dispatcher = c.dispatcher := by
  refine ⟨?_, rfl⟩
  have core : (answer modules m path body c).2.core =
      (c.dispatcher.answer (fun t q => t.handle modules q) m path body c.core).2 := rfl
  rw [core, Http.Dispatcher.answer]
  cases c.dispatcher.dispatch m path body with
  | respond response => exact Or.inl rfl
  | call target q => exact target.handle_event q c.core

/-- Whatever is asked of the daemon is one event or none, and the routes stay as they were bound. -/
theorem serve_event (modules : Surroundings μ ω η) (method target : String) (body : List UInt8)
    (c : Context μ ω η) :
    OneEvent modules c.core (serve modules method target body c).2.core ∧
      (serve modules method target body c).2.dispatcher = c.dispatcher := by
  have nothing : OneEvent modules c.core c.core ∧ c.dispatcher = c.dispatcher := ⟨Or.inl rfl, rfl⟩
  unfold serve
  split
  · exact nothing
  dsimp only
  split
  · exact nothing
  unfold serveTables
  rcases Http.Method.ofName? method with _ | m
  · exact nothing
  rcases Text.ofBytes? (Text.Percent.decode (Text.bytesOf (targetPath target))) with _ | path
  · exact nothing
  exact Context.answer_event m path body c

end Jukebox.Daemon
