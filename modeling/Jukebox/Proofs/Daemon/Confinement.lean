import Jukebox.Proofs.Daemon.Player
import Jukebox.Proofs.Playback.Rehearsal
/-!
# Confinement to the music root

A daemon that has the player serves requests with any target, is reconfigured and shut down, and its
watcher makes passes; between two such steps the world and the file system may become any other.
Whatever the player looks at then lies below the root that is configured at that moment, and
whatever it opens is the file of an entry that was added below the root of its own moment.
-/
namespace Jukebox.Daemon

open Storage (FileSystem Below)
open Playback
open Jukebox.Module (Loaded Registry)

variable {ω : Type} (h : FileSystem → Host ω)

def playerOf : Registry Player → Player
  | ⟨_, _, .opened p⟩ :: _ => p
  | ⟨_, _, .closed p⟩ :: _ => p
  | _ => .new .default

/-- What happens to the daemon: a request comes in, it is told something from inside, or the
watcher makes a pass. -/
inductive Action where
  | serve (method target : String) (body : List UInt8)
  | event (e : Event Request)
  | pass

def watcherPass (h : Host ω) : Jukebox.Module.Call Player ω Unit := do
  if (← get).watched then
    let _ ← Player.onEngine (Engine.tick h)

def Action.run : Action → StateM (Context Player (ω × List Call) Request) Unit
  | .serve method target body => do
    let _ ← Daemon.serve (Service.modules h) method target body
  | .event e => Context.onCore (e.run (Service.modules h))
  | .pass => Context.onCore fun c =>
    ((), (Core.onRegistry (Service.modules h)
      (fun _ r => r.callFirst Service.id (watcherPass (h c.files).recorded)) c).2)

/-- The daemon after an action that begins with this file system, this world and an empty record of
calls. -/
def Context.after (c : Context Player (ω × List Call) Request) (files : FileSystem) (w : ω)
    (action : Action) : Context Player (ω × List Call) Request :=
  (action.run h { c with core := { c.core with files := files, world := (w, []) } }).2

structure Moment where
  before : Engine
  after : Engine
  made : List Call

def Moment.between (c c' : Context Player (ω × List Call) Request) : Moment :=
  ⟨(playerOf c.core.registry).engine, (playerOf c'.core.registry).engine, c'.core.world.2⟩

/-- The daemon from its start, with the moments that were. -/
inductive Lifetime : List Moment → Context Player (ω × List Call) Request → Prop
  | built (store : Config.Store) (files : FileSystem) (w : ω) :
      Lifetime [] (Context.build (Service.modules h) Service.descriptors store files (w, []))
  | step {moments : List Moment} {c : Context Player (ω × List Call) Request}
      (lived : Lifetime moments c) (files : FileSystem) (w : ω) (action : Action) :
      Lifetime (moments ++ [.between c (c.after h files w action)]) (c.after h files w action)

inductive Alone : Registry Player → Player → Prop
  | opened (p : Player) : Alone [⟨Service.id, Service.title, .opened p⟩] p
  | closed (p : Player) : Alone [⟨Service.id, Service.title, .closed p⟩] p

theorem Alone.playerOf {r : Registry Player} {p : Player} (alone : Alone r p) :
    playerOf r = p := by
  cases alone <;> rfl

/-- The player stays alone and keeps to its root. -/
def KeepsTo (c c' : Core Player (ω × List Call)) : Prop :=
  ∀ p w, Alone c.registry p → c.world = (w, []) →
    ∃ p', Alone c'.registry p' ∧ Confines p.engine c'.world.2 p'.engine

variable {h}

/-- New settings make no calls and keep the entries. -/
theorem reconfigured_confines {e e' : Engine} (same : e'.playlist = e.playlist) :
    Confines e [] e' :=
  .of_opensOnly .nil fun _ there => same ▸ there

/-- Shutting the player down opens nothing and leaves no entries. -/
theorem shutdown_confines (h : Host ω) (p : Player) (w : ω) :
    ∃ p' w' made, (∀ calls, Player.shutdown h.recorded p (w, calls) =
      (((), p'), (w', calls ++ made))) ∧ Confines p.engine made p'.engine := by
  obtain ⟨_, _, w₁, made, stopped, rfl, silent⟩ := Engine.stop_performs h p.engine w
  obtain ⟨_, _, w₂, more, flushed, rfl, silent'⟩ := Engine.flush_performs h p.engine.stopped w₁
  refine ⟨⟨p.engine.stopped.flushed, false⟩, w₂, made ++ more, fun calls => ?_, ?_⟩
  · have unfolded : Player.shutdown h.recorded p (w, calls) =
        Player.onEngine (Engine.flush h.recorded)
          ⟨(Engine.stop h.recorded p.engine (w, calls)).1.2, false⟩
          (Engine.stop h.recorded p.engine (w, calls)).2 := rfl
    rw [unfolded, stopped, ← List.append_assoc]
    dsimp only [Player.onEngine]
    rw [flushed]
  · have opens : OpensOnly p.engine.playlist.entries (made ++ more) := by
      rw [silent, silent']
      exact ((OpensOnly.dropped _).append (.dropped _)).append
        ((OpensOnly.dropped _).append (.dropped _))
    exact .of_opensOnly opens fun _ there => by cases there

theorem pass_confines (h : Host ω) (p : Player) (w : ω) :
    ∃ p' w' made, (∀ calls, watcherPass h.recorded p (w, calls) =
      (((), p'), (w', calls ++ made))) ∧ Confines p.engine made p'.engine := by
  obtain ⟨engine, watched⟩ := p
  cases watched with
  | false => exact ⟨⟨engine, false⟩, w, [], fun calls => by rw [List.append_nil]; rfl, .refl engine⟩
  | true =>
    obtain ⟨moved, e', w', made, ticked, ticks⟩ := Engine.tick_performs h engine w
    refine ⟨⟨e', true⟩, w', made, fun calls => ?_, ?_⟩
    · have unfolded : watcherPass h.recorded ⟨engine, true⟩ (w, calls) =
          (((), ⟨(Engine.tick h.recorded engine (w, calls)).1.2, true⟩),
            (Engine.tick h.recorded engine (w, calls)).2) := rfl
      rw [unfolded, ticked]
    · exact .of_effect (.tick ticks) fun _ _ => Command.noConfusion

theorem handle_confines {h : Host ω} (names : h.Enumerates) (r : Request) (q : Http.Request)
    (p : Player) (w : ω) :
    ∃ reply p' w' made, (∀ calls, Service.handle h.recorded r q p (w, calls) =
      ((reply, p'), (w', calls ++ made))) ∧ Confines p.engine made p'.engine := by
  obtain ⟨response, e', w', made, answered, serves⟩ := r.handles h p.engine w q.resource
  refine ⟨.answered response, { p with engine := e' }, w', made, fun calls => ?_,
    serves.confines names⟩
  dsimp only [Service.handle]
  rw [answered calls]

/-- Calls of the daemon that ask nothing of the host and leave the playlist alone. -/
def Quiet {α : Type} (op : Jukebox.Module.Call Player (ω × List Call) α) : Prop :=
  ∀ p w, (op p w).2 = w ∧ (op p w).1.2.engine.playlist = p.engine.playlist

theorem setConfig_quiet (fs : FileSystem) (value : Option Json.Value) :
    Quiet ((Service.modules h fs).setConfig value) :=
  fun _ _ => ⟨rfl, rfl⟩

theorem getConfig_quiet (fs : FileSystem) : Quiet (Service.modules h fs).getConfig :=
  fun _ _ => ⟨rfl, rfl⟩

section

variable {α : Type} {r : Registry Player} {p : Player} {w : ω × List Call}

theorem callAll_quiet {op : Loaded Player → Jukebox.Module.Call Player (ω × List Call) α}
    (quiet : ∀ m, Quiet (op m)) (alone : Alone r p) :
    ∃ p', Alone (r.callAll op w).1.2 p' ∧ (r.callAll op w).2 = w ∧
      p'.engine.playlist = p.engine.playlist := by
  cases alone with
  | opened p => exact ⟨_, .opened _, quiet _ p w⟩
  | closed p => exact ⟨p, .closed p, rfl, rfl⟩

theorem apply_quiet (fs : FileSystem) (key : String) (value : Json.Value) (alone : Alone r p) :
    ∃ p', Alone (r.apply (Service.modules h fs) key value w).1.2 p' ∧
      (r.apply (Service.modules h fs) key value w).2 = w ∧
      p'.engine.playlist = p.engine.playlist := by
  by_cases named : Service.id = key
  · subst named
    cases alone with
    | opened p => exact ⟨_, .opened _, rfl, rfl⟩
    | closed p => exact ⟨p, .closed p, rfl, rfl⟩
  · have passed (m : Loaded Player) (own : m.id = Service.id) :
        Registry.apply (Service.modules h fs) key value [m] w =
          ((.error (.notFound ("module '" ++ key ++ "'")), [m]), w) := by
      have other : m.id ≠ key := own ▸ named
      rw [Registry.apply, Registry.callFirst, if_neg other]
      rfl
    cases alone with
    | opened p =>
      rw [passed _ rfl]
      exact ⟨p, .opened p, rfl, rfl⟩
    | closed p =>
      rw [passed _ rfl]
      exact ⟨p, .closed p, rfl, rfl⟩

end

/-- Applying sections makes no calls and keeps the entries. -/
theorem apply_sections_quiet (resource : String) (body : Json.Members)
    {c : Core Player (ω × List Call)} {p : Player} (alone : Alone c.registry p) :
    ∃ p', Alone (Core.apply (Service.modules h) resource body c).2.registry p' ∧
      (Core.apply (Service.modules h) resource body c).2.world = c.world ∧
      p'.engine.playlist = p.engine.playlist := by
  induction body generalizing c p with
  | nil => exact ⟨p, alone, rfl, rfl⟩
  | cons member rest ih =>
    have one : ∃ p', Alone (Core.applySection (Service.modules h) member.1 member.2
          c).2.registry p' ∧
        (Core.applySection (Service.modules h) member.1 member.2 c).2.world = c.world ∧
        p'.engine.playlist = p.engine.playlist := by
      rw [Core.applySection]
      split
      · exact ⟨p, alone, rfl, rfl⟩
      · exact apply_quiet c.files member.1 member.2 alone
    rw [Core.apply_cons]
    split
    · obtain ⟨p₁, alone₁, world₁, playlist₁⟩ := one
      obtain ⟨p', alone', world', playlist'⟩ := ih alone₁
      exact ⟨p', alone', world'.trans world₁, playlist'.trans playlist₁⟩
    · exact ih alone

/-- What leaves the record empty and the playlist alone. -/
theorem KeepsTo.of_quiet {c c' : Core Player (ω × List Call)}
    (quiet : ∀ p, Alone c.registry p → ∃ p', Alone c'.registry p' ∧ c'.world = c.world ∧
      p'.engine.playlist = p.engine.playlist) : KeepsTo c c' := by
  intro p w alone record
  obtain ⟨p', alone', world, playlist⟩ := quiet p alone
  refine ⟨p', alone', ?_⟩
  rw [world, record]
  exact reconfigured_confines playlist

theorem handle_alone {fs : FileSystem} {r : Registry Player} {x : Request} {q : Http.Request}
    {p p' : Player} {reply : Http.Reply} {w w' : ω × List Call} (alone : Alone r p)
    (ran : Service.handle (h fs).recorded x q p w = ((reply, p'), w')) :
    ∃ r', r.handle (Service.modules h fs) 0 x q w = ((reply, r'), w') ∧ Alone r' p' := by
  cases alone with
  | opened p =>
    refine ⟨_, ?_, .opened p'⟩
    have unfolded : Registry.handle (Service.modules h fs) 0 x q
        [⟨Service.id, Service.title, .opened p⟩] w =
        (((Service.handle (h fs).recorded x q p w).1.1, [⟨Service.id, Service.title,
          .opened (Service.handle (h fs).recorded x q p w).1.2⟩]),
          (Service.handle (h fs).recorded x q p w).2) := rfl
    rw [unfolded, ran]
  | closed p =>
    refine ⟨_, ?_, .closed p'⟩
    have unfolded : Registry.handle (Service.modules h fs) 0 x q
        [⟨Service.id, Service.title, .closed p⟩] w =
        (((Service.handle (h fs).recorded x q p w).1.1, [⟨Service.id, Service.title,
          .closed (Service.handle (h fs).recorded x q p w).1.2⟩]),
          (Service.handle (h fs).recorded x q p w).2) := rfl
    rw [unfolded, ran]

/-- A shutdown closes the player, if it is open. -/
theorem farewell_alone {fs : FileSystem} {r r' : Registry Player} {p : Player} {w : ω}
    {w' : ω × List Call} {answers : List (String × Option Json.Value)} (alone : Alone r p)
    (ran : r.callAll (fun _ => Registry.farewell (Service.modules h fs)) (w, []) =
      ((answers, r'), w')) :
    ∃ p', Alone (r'.map (·.retire)) p' ∧ Confines p.engine w'.2 p'.engine := by
  cases alone with
  | opened p =>
    obtain ⟨p', w₁, made, closing, confines⟩ := shutdown_confines (h fs) p w
    have unfolded : Registry.callAll (fun _ => Registry.farewell (Service.modules h fs))
        [⟨Service.id, Service.title, .opened p⟩] (w, []) =
        (([(Service.id, some p.engine.settings.toSection)], [⟨Service.id, Service.title,
          .opened (Player.shutdown (h fs).recorded p (w, [])).1.2⟩]),
          (Player.shutdown (h fs).recorded p (w, [])).2) := rfl
    rw [unfolded, closing []] at ran
    cases ran
    exact ⟨p', .closed p', confines⟩
  | closed p =>
    cases ran
    exact ⟨p, .closed p, .refl _⟩

/-- Nothing that the daemon is told makes the player leave its root. -/
theorem event_keeps (names : ∀ fs, (h fs).Enumerates) (e : Event Request)
    (c : Core Player (ω × List Call)) : KeepsTo c (e.run (Service.modules h) c).2 := by
  cases e with
  | resetDefaults =>
    exact .of_quiet fun p alone => callAll_quiet (fun _ => setConfig_quiet _ _) alone
  | reload => exact .of_quiet fun p alone => callAll_quiet (fun _ => setConfig_quiet _ _) alone
  | save =>
    obtain ⟨answers, r, w', ran, after⟩ := Core.save_effect (Service.modules h) c
    rw [Event.run_save, (after _ rfl).1]
    refine .of_quiet fun p alone => ?_
    have quiet := callAll_quiet (w := c.world) (fun _ => getConfig_quiet (h := h) c.files) alone
    rwa [ran] at quiet
  | snapshot resource =>
    exact .of_quiet fun p alone => callAll_quiet (fun _ => getConfig_quiet _) alone
  | apply resource body => exact .of_quiet fun p alone => apply_sections_quiet resource body alone
  | request position handler q =>
    cases position with
    | zero =>
      intro p w alone record
      obtain ⟨reply, p', w', made, ran, confines⟩ := handle_confines (names c.files) handler q p w
      obtain ⟨r', handled, alone'⟩ := handle_alone alone (ran [])
      have after : (Event.run (Service.modules h) (.request 0 handler q) c).2 =
          { c with
            registry := (c.registry.handle (Service.modules h c.files) 0 handler q c.world).1.2
            world := (c.registry.handle (Service.modules h c.files) 0 handler q c.world).2 } := rfl
      rw [after, record, handled]
      exact ⟨p', alone', confines⟩
    | succ n =>
      refine .of_quiet fun p alone => ?_
      obtain ⟨r, store, httpd, fs, world⟩ := c
      cases n <;> cases alone
      all_goals first
        | exact ⟨_, .opened _, rfl, rfl⟩
        | exact ⟨_, .closed _, rfl, rfl⟩
  | shutdown =>
    intro p w alone record
    obtain ⟨answers, r, w₁, ran, after⟩ := Core.shutdown_effect (Service.modules h) c
    rw [Event.run_shutdown, after]
    rw [record] at ran
    exact farewell_alone alone ran

theorem pass_alone {fs : FileSystem} {r : Registry Player} {p : Player} {w : ω}
    (alone : Alone r p) :
    ∃ p', Alone (r.callFirst Service.id (watcherPass (h fs).recorded) (w, [])).1.2 p' ∧
      Confines p.engine (r.callFirst Service.id (watcherPass (h fs).recorded) (w, [])).2.2
        p'.engine := by
  cases alone with
  | opened p =>
    obtain ⟨p', w₁, made, ran, confines⟩ := pass_confines (h fs) p w
    have unfolded : Registry.callFirst Service.id (watcherPass (h fs).recorded)
        [⟨Service.id, Service.title, .opened p⟩] (w, []) =
        ((some (), [⟨Service.id, Service.title,
          .opened (watcherPass (h fs).recorded p (w, [])).1.2⟩]),
          (watcherPass (h fs).recorded p (w, [])).2) := rfl
    rw [unfolded, ran []]
    exact ⟨p', .opened p', confines⟩
  | closed p => exact ⟨p, .closed p, .refl _⟩

/-- A request that is served is one event or none. -/
theorem Context.after_serve (c : Context Player (ω × List Call) Request) (files : FileSystem)
    (w : ω) (method target : String) (body : List UInt8) :
    OneEvent (Service.modules h) { c.core with files := files, world := (w, []) }
      (c.after h files w (.serve method target body)).core :=
  (serve_event (Service.modules h) method target body _).1

/-- No action makes the player leave the root that is configured when the action begins. -/
theorem after_keeps (names : ∀ fs, (h fs).Enumerates)
    (c : Context Player (ω × List Call) Request) (files : FileSystem) (w : ω) (action : Action)
    {p : Player} (alone : Alone c.core.registry p) :
    ∃ p', Alone (c.after h files w action).core.registry p' ∧
      Confines p.engine (c.after h files w action).core.world.2 p'.engine := by
  cases action with
  | serve method target body =>
    rcases c.after_serve files w method target body with same | ⟨e, after⟩
    · rw [same]
      exact ⟨p, alone, .refl _⟩
    · rw [after]
      exact event_keeps names e _ p w alone rfl
  | event e =>
    exact event_keeps names e { c.core with files := files, world := (w, []) } p w alone rfl
  | pass => exact pass_alone alone

/-- An entry was added at one of these moments, below the root that was configured then. -/
def AddedBelow (moments : List Moment) (entry : Entry) : Prop :=
  ∃ m ∈ moments, entry ∈ m.after.playlist.entries ∧ m.before.playlist.issued ≤ entry.serial ∧
    Below m.before.settings.root entry.path

theorem AddedBelow.append {moments : List Moment} {entry : Entry}
    (added : AddedBelow moments entry) (later : List Moment) :
    AddedBelow (moments ++ later) entry :=
  added.imp fun _ there => ⟨List.mem_append_left later there.1, there.2⟩

/-- At a moment that comes after some others, what was looked at lies below the root of that moment,
and what was opened is the file of an entry that was added below the root of its moment. -/
def Moment.Confined (before : List Moment) (m : Moment) : Prop :=
  ∀ call ∈ m.made,
    (∀ p, call.browses? = some p → Below m.before.settings.root p) ∧
    ∀ p, call.opens? = some p → ∃ entry,
      (entry ∈ m.before.playlist.entries ∨ entry ∈ m.after.playlist.entries) ∧ entry.path = p ∧
        AddedBelow (before ++ [m]) entry

theorem Lifetime.entries_added (names : ∀ fs, (h fs).Enumerates) {moments : List Moment}
    {c : Context Player (ω × List Call) Request} (lived : Lifetime h moments c) :
    ∃ p, Alone c.core.registry p ∧
      ∀ entry ∈ p.engine.playlist.entries, AddedBelow moments entry := by
  induction lived with
  | built store files w => exact ⟨_, .opened _, fun _ there => by cases there⟩
  | @step moments c lived files w action ih =>
    obtain ⟨p, alone, added⟩ := ih
    obtain ⟨p', alone', confines⟩ := after_keeps names c files w action alone
    refine ⟨p', alone', fun entry there => ?_⟩
    rcases confines.adds entry there with old | ⟨serial, below⟩
    · exact (added entry old).append _
    · refine ⟨_, List.mem_append_right moments (List.mem_singleton.mpr rfl), ?_⟩
      rw [Moment.between, alone.playerOf, alone'.playerOf]
      exact ⟨there, serial, below⟩

/-- Whatever requests are served and however the daemon is configured meanwhile, every path that
the player hands to its host has the components of a root, followed by names only: of the root
configured at that moment if the path was named by a client, of the root configured when the entry
was added if it is that of an entry. -/
theorem Lifetime.confined (names : ∀ fs, (h fs).Enumerates) {moments : List Moment}
    {c : Context Player (ω × List Call) Request} (lived : Lifetime h moments c) :
    ∀ before m later, moments = before ++ m :: later → m.Confined before := by
  induction lived with
  | built store files w => simp
  | @step moments c lived files w action ih =>
    intro before m later split
    rcases List.eq_nil_or_concat later with rfl | ⟨others, last, rfl⟩
    · obtain ⟨rfl, same⟩ := List.append_inj' split rfl
      obtain rfl := (List.cons.inj same).1
      obtain ⟨p, alone, added⟩ := lived.entries_added names
      obtain ⟨p', alone', confines⟩ := after_keeps names c files w action alone
      rw [Moment.between, alone.playerOf, alone'.playerOf]
      refine fun call there => ⟨confines.browses call there, fun path opens => ?_⟩
      obtain ⟨entry, here, path_eq⟩ := confines.opens call there path opens
      refine ⟨entry, here, path_eq, ?_⟩
      have new_or_old : entry ∈ p.engine.playlist.entries ∨
          p.engine.playlist.issued ≤ entry.serial ∧ entry ∈ p'.engine.playlist.entries ∧
            Below p.engine.settings.root entry.path := by
        rcases here with old | new
        · exact Or.inl old
        · exact (confines.adds entry new).imp id fun fresh => ⟨fresh.1, new, fresh.2⟩
      rcases new_or_old with old | ⟨serial, there, below⟩
      · exact (added entry old).append _
      · exact ⟨_, List.mem_append_right _ (List.mem_singleton.mpr rfl), there, serial, below⟩
    · rw [List.concat_eq_append, ← List.cons_append, ← List.append_assoc] at split
      exact ih before m others (List.append_inj' split rfl).1

/-- A daemon that was just built, with the player only. -/
def justBuilt : Context Player (Rehearsal × List Call) Request :=
  Context.build (Service.modules fun _ => .rehearsed) Service.descriptors
    ⟨.ofString "aircat.conf", []⟩ .empty (⟨0, 0, [], .playing, false⟩, [])

/-- A file is asked for with an encoded slash and a dot in its path. -/
def oddlyAsked : Context Player (Rehearsal × List Call) Request :=
  justBuilt.after (fun _ => .rehearsed) .empty ⟨0, 0, [], .playing, false⟩
    (.serve "PUT" "/files/play/a%2F./b.mp3" [])

theorem rehearsed_enumerates : Host.rehearsed.Enumerates := by
  intro p w names w' read name there
  cases read
  cases there

theorem oddlyAsked_confined :
    (∀ _ : FileSystem, Host.rehearsed.Enumerates) ∧
    Lifetime (fun _ => .rehearsed) [.between justBuilt oddlyAsked] oddlyAsked ∧
    (Moment.between justBuilt oddlyAsked).made.filterMap Call.opens? =
      [.ofString "/var/aircat/files/a/b.mp3"] ∧
    (Moment.between justBuilt oddlyAsked).Confined [] := by
  have lived : Lifetime (fun _ => .rehearsed) [.between justBuilt oddlyAsked] oddlyAsked :=
    .step (.built _ _ _) _ _ _
  exact ⟨fun _ => rehearsed_enumerates, lived, by decide +kernel,
    Lifetime.confined (fun _ => rehearsed_enumerates) lived [] _ [] rfl⟩

end Jukebox.Daemon
