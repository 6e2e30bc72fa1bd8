import Jukebox.Proofs.Daemon.Confinement
import Jukebox.Proofs.Http.Dispatching
/-!
# Reading requests

Whatever the path of a `GET` is, a route that accepts the method answers it, and the routes that do
only read: the playlist, the status, a listing, and the live configuration. So a daemon that has the
player is after a `GET` what it was before, and its host was asked about nothing but files that lie
there.
-/
namespace Jukebox.Playback

/-- Calls that look at the files that are there. They start no decoder and touch no stream. -/
def Call.looks : Call → Bool
  | .inspected _ => true
  | .listed _ => true
  | .readTags _ => true
  | _ => false

variable {ω : Type} {h : Host ω} {e e' : Engine} {w w' : ω} {made : List Call}

theorem Lists.looks {relative : String} {r : Except Refusal Library.Listing}
    (lists : Lists h e w relative r w' made) : ∀ call ∈ made, call.looks = true := by
  cases lists with
  | outside no => exact List.forall_mem_nil _
  | unread resolved no => exact List.forall_mem_singleton.mpr rfl
  | listed resolved read looks =>
    refine List.forall_mem_cons.mpr ⟨rfl, fun call there => ?_⟩
    obtain ⟨name, -, rfl | rfl⟩ := looks call there <;> rfl

def Request.reads : Request → Bool
  | .playlist => true
  | .status => true
  | .list => true
  | _ => false

theorem Request.command?_of_reads {request : Request} (reads : request.reads = true) :
    request.command? = none := by
  cases request <;> first | rfl | cases reads

/-- A reading request leaves the engine as it is and looks at files only. -/
theorem Request.Serves.reads {request : Request} {resource : String} {response : Http.Response}
    (serves : Request.Serves h e w resource request response e' w' made)
    (reads : request.reads = true) : e' = e ∧ ∀ call ∈ made, call.looks = true := by
  cases serves with
  | playlist => exact ⟨rfl, List.forall_mem_nil _⟩
  | status s w' => exact ⟨rfl, List.forall_mem_nil _⟩
  | listed lists => exact ⟨rfl, lists.looks⟩
  | performed means effect =>
    rw [Request.command?_of_reads reads] at means
    cases means
  | badIndex indexed no => rcases indexed with rfl | rfl <;> cases reads
  | noEntry indexed index outside => rcases indexed with rfl | rfl <;> cases reads
  | _ => cases reads

end Jukebox.Playback

namespace Jukebox.Daemon

open Storage (FileSystem)
open Playback
open Http (Dispatcher Route)
open Jukebox.Module (Loaded Registry)

variable {ω : Type} {h : FileSystem → Host ω}

section Player

variable {fs : FileSystem} {r r' : Registry Player} {p : Player}

theorem Alone.eq_of_shape (alone : Alone r p) (alone' : Alone r' p) (same : r'.shape = r.shape) :
    r' = r := by
  cases alone <;> cases alone' <;> first | rfl | cases same

/-- The player is asked for its section without any change. -/
theorem Alone.asked {answers : List (String × Option Json.Value)} {w w' : ω × List Call}
    (alone : Alone r p) (ran : Registry.callAll
      (fun _ => (Service.modules h fs).getConfig) r w = ((answers, r'), w')) :
    r' = r ∧ w' = w := by
  cases alone <;> cases ran <;> exact ⟨rfl, rfl⟩

/-- The player stays alone when its state moves. -/
theorem Alone.moved {P : String → Player → Player → Prop} (alone : Alone r p)
    (moves : Registry.Moves P r r') : ∃ p', Alone r' p' := by
  cases alone with
  | opened p =>
    cases moves with
    | cons one others =>
      cases others
      cases one with
      | kept m => exact ⟨p, .opened p⟩
      | opened moved => exact ⟨_, .opened _⟩
  | closed p =>
    cases moves with
    | cons one others =>
      cases others
      cases one with
      | kept m => exact ⟨p, .closed p⟩
      | closed s s' => exact ⟨s', .closed s'⟩

theorem Alone.retired (alone : Alone r p) : Alone (r.map (·.retire)) p := by
  cases alone <;> exact .closed p

end Player

/-- Nothing that the daemon is told takes the player away. -/
theorem Event.alone (e : Event Request) {c : Core Player (ω × List Call)} {p : Player}
    (alone : Alone c.registry p) : ∃ p', Alone (e.run (Service.modules h) c).2.registry p' := by
  by_cases running : e = .shutdown
  · subst running
    obtain ⟨answers, r, w, ran, after⟩ := Core.shutdown_effect (Service.modules h) c
    have moves := (Registry.called_of_callAll ran).moves (P := fun _ _ _ => True)
      fun _ _ _ _ _ => trivial
    obtain ⟨p', alone'⟩ := alone.moved moves
    rw [run_shutdown, after]
    exact ⟨p', alone'.retired⟩
  · exact alone.moved (e.moves (Service.conduct h) c running)

/-- Handlers that only read when they are asked with a `GET`. -/
def Target.reads : Target Request → Bool
  | .config r => r = .sections
  | .module position r => position = 0 ∧ r.reads = true

/-- A route that accepts `GET` has a handler that reads. -/
def ReadsOnGet (r : Route (Target Request)) : Prop :=
  .get ∈ r.methods → r.handler.reads = true

theorem table_readsOnGet :
    ∀ r ∈ Request.table.map fun r => r.withHandler (Target.module 0 r.handler), ReadsOnGet r := by
  unfold ReadsOnGet
  decide

theorem own_readsOnGet :
    ∀ r ∈ ConfigRequest.table.map fun r => r.withHandler (Target.config (η := Request) r.handler),
      ReadsOnGet r := by
  unfold ReadsOnGet
  decide

/-- The routes that are bound when the daemon is built. -/
theorem build_readsOnGet (store : Config.Store) (files : FileSystem) (w : ω) :
    (Context.build (Service.modules h) Service.descriptors store files (w, [])).dispatcher.Every
      ReadsOnGet :=
  (Dispatcher.every_empty.addUrls Service.id table_readsOnGet).addUrls configNamespace
    own_readsOnGet

/-- The routes stay as they were bound. -/
theorem Context.after_dispatcher (c : Context Player (ω × List Call) Request) (files : FileSystem)
    (w : ω) (action : Action) : (c.after h files w action).dispatcher = c.dispatcher := by
  cases action with
  | serve method target body => exact (serve_event (Service.modules h) method target body _).2
  | event e => rfl
  | pass => rfl

/-- What is so at every moment of the daemon: the player is there, and its routes are those that
were bound. -/
theorem Lifetime.standing {moments : List Moment} {c : Context Player (ω × List Call) Request}
    (lived : Lifetime h moments c) :
    (∃ p, Alone c.core.registry p) ∧ c.dispatcher.Every ReadsOnGet := by
  induction lived with
  | built store files w => exact ⟨⟨_, .opened _⟩, build_readsOnGet store files w⟩
  | @step moments c lived files w action ih =>
    obtain ⟨⟨p, alone⟩, bound⟩ := ih
    refine ⟨?_, c.after_dispatcher files w action ▸ bound⟩
    cases action with
    | serve method target body =>
      rcases c.after_serve files w method target body with same | ⟨e, after⟩
      · rw [same]
        exact ⟨p, alone⟩
      · rw [after]
        exact e.alone alone
    | event e => exact e.alone alone
    | pass =>
      exact alone.moved (Registry.callFirst_moves Service.id _ (P := fun _ _ _ => True)
        (fun _ _ _ _ => trivial) c.core.registry (w, []))

/-- A handler that reads leaves the daemon as it is and looks at files only. -/
theorem Target.handle_reads {t : Target Request} {q : Http.Request}
    {c : Core Player (ω × List Call)} {p : Player} {w : ω} (reads : t.reads = true)
    (asked : q.method = .get) (alone : Alone c.registry p) (record : c.world = (w, [])) :
    ∃ w' made, (t.handle (Service.modules h) q c).2 = { c with world := (w', made) } ∧
      ∀ call ∈ made, call.looks = true := by
  cases t with
  | config r =>
    obtain rfl : r = .sections := of_decide_eq_true reads
    refine ⟨w, [], ?_, List.forall_mem_nil _⟩
    have snapshot : (Target.handle (Service.modules h) (.config .sections) q c).2 =
        (Core.snapshot (Service.modules h) q.resource c).2 := by
      dsimp only [handle, ConfigRequest.handle]
      rw [if_pos asked]
      rfl
    obtain ⟨answers, r, w', ran, after⟩ :=
      Core.snapshot_effect (Service.modules h) c q.resource
    obtain ⟨rfl, rfl⟩ : r = c.registry ∧ w' = c.world := alone.asked ran
    rw [snapshot, after, ← record]
  | module position request =>
    obtain ⟨rfl, reading⟩ := of_decide_eq_true reads
    obtain ⟨response, e', w', made, answered, serves⟩ :=
      request.handles (h c.files) p.engine w q.resource
    obtain ⟨rfl, looks⟩ := serves.reads reading
    refine ⟨w', made, ?_, looks⟩
    have ran : Service.handle (h c.files).recorded request q p (w, []) =
        ((.answered response, p), (w', made)) := by
      dsimp only [Service.handle]
      rw [answered]
      rfl
    obtain ⟨r', handled, alone'⟩ := handle_alone alone ran
    have moves := Registry.handle_moves (Service.modules h c.files) 0 request q
      (P := fun _ _ _ => True) (fun _ _ _ _ _ => trivial) c.registry (w, [])
    rw [handled] at moves
    obtain rfl : r' = c.registry := alone.eq_of_shape alone' moves.shape_eq
    have after : (Target.handle (Service.modules h) (.module 0 request) q c).2 =
        { c with
          registry := (c.registry.handle (Service.modules h c.files) 0 request q c.world).1.2
          world := (c.registry.handle (Service.modules h c.files) 0 request q c.world).2 } := rfl
    rw [after, record, handled]

/-- A `GET` for any path is answered by a refusal or by a handler that reads. -/
theorem Context.answer_reads {c : Context Player (ω × List Call) Request} {files : FileSystem}
    {p : Player} {w : ω} (alone : Alone c.core.registry p) (bound : c.dispatcher.Every ReadsOnGet)
    (path : String) (body : List UInt8) :
    ∃ w' made, (Context.answer (Service.modules h) .get path body
        { c with core := { c.core with files := files, world := (w, []) } }).2 =
        { c with core := { c.core with files := files, world := (w', made) } } ∧
      ∀ call ∈ made, call.looks = true := by
  have core : (Context.answer (Service.modules h) .get path body
      { c with core := { c.core with files := files, world := (w, []) } }).2 =
      { c with core := (c.dispatcher.answer (fun t q => t.handle (Service.modules h) q) .get path
        body { c.core with files := files, world := (w, []) }).2 } := rfl
  rw [core, Dispatcher.answer]
  cases decided : c.dispatcher.dispatch .get path body with
  | respond response => exact ⟨w, [], rfl, List.forall_mem_nil _⟩
  | call t q =>
    obtain ⟨asked, r, readsOnGet, rfl, accepts⟩ := bound.dispatch_calls decided
    obtain ⟨w', made, after, looks⟩ := Target.handle_reads (h := h)
      (c := { c.core with files := files, world := (w, []) }) (readsOnGet accepts) asked alone rfl
    exact ⟨w', made, by rw [after], looks⟩

/-- A `GET` changes nothing about the daemon, whatever its target and its body are and whatever
became of the daemon before: neither the playlist and the sessions nor any configuration, document
or file. What it asks the host is about files that lie there; no media file is opened for playing
and no stream is touched. -/
theorem Lifetime.get_reads {moments : List Moment} {c : Context Player (ω × List Call) Request}
    (lived : Lifetime h moments c) (files : FileSystem) (w : ω) (target : String)
    (body : List UInt8) :
    ∃ w' made, c.after h files w (.serve "GET" target body) =
        { c with core := { c.core with files := files, world := (w', made) } } ∧
      ∀ call ∈ made, call.looks = true := by
  obtain ⟨⟨p, alone⟩, bound⟩ := lived.standing
  have begun : c.after h files w (.serve "GET" target body) =
      (serve (Service.modules h) "GET" target body
        { c with core := { c.core with files := files, world := (w, []) } }).2 := rfl
  rw [begun]
  have nothing : ∃ w' made,
      { c with core := { c.core with files := files, world := (w, []) } } =
        { c with core := { c.core with files := files, world := (w', made) } } ∧
      ∀ call ∈ made, Call.looks call = true := ⟨w, [], rfl, List.forall_mem_nil _⟩
  have named : Http.Method.ofName? "GET" = some .get := rfl
  unfold serve
  split
  · exact nothing
  dsimp only
  split
  · exact nothing
  unfold serveTables
  rw [named]
  rcases Text.ofBytes? (Text.Percent.decode (Text.bytesOf (targetPath target))) with _ | path
  · exact nothing
  exact Context.answer_reads alone bound path body

/-- A path that only `PUT` is meant for, with an encoded slash, and a listing. -/
theorem oddlyAsked_read :
    Lifetime (fun _ => .rehearsed) [.between justBuilt oddlyAsked] oddlyAsked ∧
    (playerOf oddlyAsked.core.registry).engine.playlist.count = 1 ∧
    (∃ w' made, oddlyAsked.after (fun _ => .rehearsed) .empty ⟨0, 0, [], .playing, false⟩
          (.serve "GET" "/files/playlist%2Fflush" []) =
        { oddlyAsked with
          core := { oddlyAsked.core with files := .empty, world := (w', made) } } ∧
      ∀ call ∈ made, call.looks = true) ∧
    (oddlyAsked.after (fun _ => .rehearsed) .empty ⟨0, 0, [], .playing, false⟩
        (.serve "GET" "/files/list/a" [])).core.world.2 =
      [.listed (.ofString "/var/aircat/files/a")] := by
  have lived : Lifetime (fun _ => .rehearsed) [.between justBuilt oddlyAsked] oddlyAsked :=
    .step (.built _ _ _) _ _ _
  exact ⟨lived, by decide +kernel, lived.get_reads .empty ⟨0, 0, [], .playing, false⟩ _ [],
    by decide +kernel⟩

end Jukebox.Daemon
