import Jukebox.Proofs.Playback.Effects
/-!
# Runs of sections

Clients and the watcher take turns on the engine, each turn being one section. `Command` names the
sections, `Takes` says that a section can take an engine to another with a result and some calls,
and `Run` strings turns together from a state. Between two turns the world may become any other, so
a run ranges over all answers the host can give at each call.

A shutdown is two commands, `stop` and later `flush`; a file is played by its path by `add` and
later `play`. Other turns may fall between the two.
-/
namespace Jukebox.Playback

open Storage

/-- The sections of the engine. `look` stands for those that only read the state. -/
inductive Command where
  | add (path : Path) (tags : Option Library.Tags)
  | remove (index : Nat)
  | flush
  | play (index : Option Nat)
  | togglePause
  | stop
  | next
  | prev
  | seek (secs : UInt64)
  | setSettings (settings : Config.Music)
  | tick
  | status (picture : Bool)
  | look
  deriving DecidableEq, Repr

/-- The section of a command. Those that cannot be refused always succeed. -/
def Command.body {ω : Type} (h : Host ω) : Command → Section ω (Except Refusal Unit)
  | .add path tags => do let _ ← Engine.push path tags; pure (.ok ())
  | .remove index => Engine.remove h index
  | .flush => do Engine.flush h; pure (.ok ())
  | .play index => Engine.play h index
  | .togglePause => do let _ ← Engine.togglePause h; pure (.ok ())
  | .stop => do Engine.stop h; pure (.ok ())
  | .next => do Engine.next h; pure (.ok ())
  | .prev => do Engine.prev h; pure (.ok ())
  | .seek secs => Engine.seek h secs
  | .setSettings settings => do Engine.setSettings settings; pure (.ok ())
  | .tick => do let _ ← Engine.tick h; pure (.ok ())
  | .status picture => do let _ ← Engine.status h picture; pure (.ok ())
  | .look => do let _ ← get; pure (.ok ())

structure Turn where
  command : Command
  result : Except Refusal Unit
  calls : List Call

/-- In some world the section of a turn takes one engine to another. -/
def Takes {ω : Type} (h : Host ω) (e : Engine) (t : Turn) (e' : Engine) : Prop :=
  ∃ w w', t.command.body h.recorded e (w, []) = ((t.result, e'), (w', t.calls))

/-- Turns one after another, each in a world of its own. -/
inductive Run {ω : Type} (h : Host ω) (start : Engine) : List Turn → Engine → Prop
  | start : Run h start [] start
  | turn {turns : List Turn} {t : Turn} {e e' : Engine} :
      Run h start turns e → Takes h e t e' → Run h start (turns ++ [t]) e'

/-- In some world an engine is dropped with these calls. -/
def Disposes {ω : Type} (h : Host ω) (e : Engine) (made : List Call) : Prop :=
  ∃ w w' e', Engine.dispose h.recorded e (w, []) = (((), e'), (w', made))

def callsOf (turns : List Turn) : List Call :=
  turns.flatMap Turn.calls

@[simp] theorem callsOf_nil : callsOf [] = [] := rfl

@[simp] theorem callsOf_append (turns more : List Turn) :
    callsOf (turns ++ more) = callsOf turns ++ callsOf more := by
  simp [callsOf]

@[simp] theorem callsOf_singleton (t : Turn) : callsOf [t] = t.calls := by
  simp [callsOf]

/-- Two runs, the second from where the first ends, are one. -/
theorem Run.append {ω : Type} {h : Host ω} {e e' e'' : Engine} {turns more : List Turn}
    (first : Run h e turns e') (second : Run h e' more e'') : Run h e (turns ++ more) e'' := by
  induction second with
  | start => rwa [List.append_nil]
  | turn _ takes ih =>
    rw [← List.append_assoc]
    exact .turn ih takes

/-- What each command can do. -/
inductive Effect (e : Engine) : Command → Except Refusal Unit → Engine → List Call → Prop
  | add (path : Path) (tags : Option Library.Tags) :
      Effect e (.add path tags) (.ok ()) { e with playlist := e.playlist.push path tags } []
  | remove {index : Nat} {r : Except Refusal Unit} {e' : Engine} {made : List Call}
      (removes : e.Removes index r e' made) : Effect e (.remove index) r e' made
  | flush : Effect e .flush (.ok ()) e.flushed (dropped e.current ++ dropped e.previous)
  | play {index : Option Nat} {r : Except Refusal Unit} {e' : Engine} {made : List Call}
      (plays : e.Plays index r e' made) : Effect e (.play index) r e' made
  | togglePause {e' : Engine} {made : List Call} (toggles : e.Toggles e' made) :
      Effect e .togglePause (.ok ()) e' made
  | stop : Effect e .stop (.ok ()) e.stopped (dropped e.current ++ dropped e.previous)
  | next {e' : Engine} {made : List Call} (advances : e.Advances .forward false e' made) :
      Effect e .next (.ok ()) e' made
  | prev {e' : Engine} {made : List Call} (advances : e.Advances .backward false e' made) :
      Effect e .prev (.ok ()) e' made
  | seekNothing (secs : UInt64) (no : e.current = none) :
      Effect e (.seek secs) (.error .nothingPlaying) e []
  | seek {s : Session} (secs : UInt64) (r : Except Refusal Unit) (there : e.current = some s) :
      Effect e (.seek secs) r e [.sought s.file]
  | setSettings (settings : Config.Music) :
      Effect e (.setSettings settings) (.ok ()) { e with settings := settings } []
  | tick {moved : Bool} {e' : Engine} {made : List Call} (ticks : e.Ticks moved e' made) :
      Effect e .tick (.ok ()) e' made
  | status (picture : Bool) : Effect e (.status picture) (.ok ()) e []
  | look : Effect e .look (.ok ()) e []

variable {ω : Type} {h : Host ω} {e e' : Engine}

/-- A section whose result is dropped and that then succeeds. -/
private theorem Performs.succeeding {α : Type} {op : Recorded ω α}
    {post : α → Engine → List Call → Prop} (first : Performs op e post) :
    Performs (do let _ ← op; pure (.ok ()) : Recorded ω (Except Refusal Unit)) e
      fun r e' made => r = .ok () ∧ ∃ a, post a e' made := by
  refine first.bind ?_
  intro a e' made holds
  exact Performs.result ⟨rfl, a, by rwa [List.append_nil]⟩

theorem body_performs (c : Command) : Performs (c.body h.recorded) e (Effect e c) := by
  cases c with
  | add path tags =>
    refine (Engine.push_performs e path tags).succeeding.imp ?_
    rintro _ _ _ ⟨rfl, _, _, rfl, rfl⟩
    exact .add path tags
  | remove index =>
    exact (Engine.remove_performs h e index).imp fun _ _ _ removes => .remove removes
  | flush =>
    refine (Engine.flush_performs h e).succeeding.imp ?_
    rintro _ _ _ ⟨rfl, _, rfl, rfl⟩
    exact .flush
  | play index => exact (Engine.play_performs h e index).imp fun _ _ _ plays => .play plays
  | togglePause =>
    refine (Engine.togglePause_performs h e).succeeding.imp ?_
    rintro _ _ _ ⟨rfl, _, _, toggles⟩
    exact .togglePause toggles
  | stop =>
    refine (Engine.stop_performs h e).succeeding.imp ?_
    rintro _ _ _ ⟨rfl, _, rfl, rfl⟩
    exact .stop
  | next =>
    refine (Engine.advance_performs h e .forward false).succeeding.imp ?_
    rintro _ _ _ ⟨rfl, _, advances⟩
    exact .next advances
  | prev =>
    refine (Engine.advance_performs h e .backward false).succeeding.imp ?_
    rintro _ _ _ ⟨rfl, _, advances⟩
    exact .prev advances
  | seek secs =>
    refine (Engine.seek_performs h e secs).imp ?_
    rintro r _ _ ⟨rfl, ⟨no, rfl, rfl⟩ | ⟨s, there, rfl⟩⟩
    · exact .seekNothing secs no
    · exact .seek secs r there
  | setSettings settings =>
    exact Performs.modify_bind (Performs.result (Effect.setSettings settings))
  | tick =>
    refine (Engine.tick_performs h e).succeeding.imp ?_
    rintro _ _ _ ⟨rfl, _, ticks⟩
    exact .tick ticks
  | status picture =>
    refine (Engine.status_performs h e picture).succeeding.imp ?_
    rintro _ _ _ ⟨rfl, _, rfl, rfl⟩
    exact .status picture
  | look => exact Performs.get_bind (Performs.result Effect.look)

/-- Every turn is an effect of its command. -/
theorem Takes.effect {t : Turn} (takes : Takes h e t e') :
    Effect e t.command t.result e' t.calls := by
  obtain ⟨w, w', ran⟩ := takes
  exact (body_performs t.command).of_run ran

/-- Dropping an engine drops the current session and then the previous one. -/
theorem Disposes.calls {made : List Call} (disposes : Disposes h e made) :
    made = dropped e.current ++ dropped e.previous := by
  obtain ⟨w, w', e', ran⟩ := disposes
  exact ((Engine.dispose_performs h e).of_run ran).2

def runCommands (h : Host ω) : List Command → Section ω Unit
  | [] => pure ()
  | c :: rest => do
    let _ ← c.body h
    runCommands h rest

/-- Executing commands in one world is a run, and its calls are those on record. -/
theorem runCommands_run (h : Host ω) (commands : List Command) (e : Engine) (w : ω) :
    ∃ turns e' w', turns.map Turn.command = commands ∧ Run h e turns e' ∧
      ∀ calls, runCommands h.recorded commands e (w, calls) =
        (((), e'), (w', calls ++ callsOf turns)) := by
  induction commands generalizing e w with
  | nil => exact ⟨[], e, w, rfl, .start, fun calls => by rw [callsOf_nil, List.append_nil]; rfl⟩
  | cons c rest ih =>
    obtain ⟨r, e₁, w₁, made, ran, _⟩ := body_performs (h := h) (e := e) c w
    obtain ⟨turns, e', w', names, run, rest_ran⟩ := ih e₁ w₁
    have takes : Takes h e ⟨c, r, made⟩ e₁ := ⟨w, w₁, ran []⟩
    refine ⟨⟨c, r, made⟩ :: turns, e', w', congrArg (c :: ·) names,
      (Run.turn .start takes).append run, fun calls => ?_⟩
    have unfolded : runCommands h.recorded (c :: rest) e (w, calls) =
        runCommands h.recorded rest (c.body h.recorded e (w, calls)).1.2
          (c.body h.recorded e (w, calls)).2 := rfl
    rw [unfolded, ran, rest_ran, List.append_assoc]
    rfl

end Jukebox.Playback
