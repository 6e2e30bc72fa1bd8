import Jukebox.Config.Section
import Jukebox.Library.Media
import Jukebox.Library.View
import Jukebox.Playback.Host
import Jukebox.Playback.Playlist
/-!
# The playback engine

The engine owns a playlist and at most two sessions, an open file with its stream each: the current
one, and the previous one, which a finished track leaves behind until the output has played it out.
Without a current session the engine is stopped.

Every operation is one section: it runs as a whole, and other clients and the watcher see the
engine before or after it, never in between. Dropping a session unregisters its stream.
-/
namespace Jukebox.Playback

open Storage

/-- An open file with its stream, and the serial number of the entry it was opened for. -/
structure Session where
  stream : StreamId
  file : FileId
  serial : Nat
  deriving DecidableEq, Repr

structure Engine where
  settings : Config.Music
  playlist : Playlist
  current : Option Session
  previous : Option Session
  playing : Bool
  deriving DecidableEq, Repr

inductive State where
  | stopped | playing | paused
  deriving DecidableEq, Repr

inductive Direction where
  | forward | backward
  deriving DecidableEq, Repr

/-- One section of the engine in a world. -/
abbrev Section (ω α : Type) := StateT Engine (StateM ω) α

/-- The indices to try after an index, nearest first. -/
def Direction.candidates (d : Direction) (index count : Nat) : List Nat :=
  match d with
  | .forward => (List.range count).drop (index + 1)
  | .backward => if index ≤ count then (List.range index).reverse else []

namespace Engine

variable {ω : Type} (h : Host ω)

def new (settings : Config.Music) : Engine :=
  ⟨settings, .empty, none, none, false⟩

def state (e : Engine) : State :=
  match e.current with
  | none => .stopped
  | some _ => if e.playing then .playing else .paused

/-- Unregisters the stream of a session that is dropped. -/
def release : Option Session → StateM ω Unit
  | none => pure ()
  | some s => h.removeStream s.stream

/-- Puts a session, or none, into the current slot. What the slot held is dropped. -/
def putCurrent (s : Option Session) : Section ω Unit := do
  let e ← get
  set { e with current := s }
  release h e.current

/-- Puts a session, or none, into the previous slot. What the slot held is dropped. -/
def putPrevious (s : Option Session) : Section ω Unit := do
  let e ← get
  set { e with previous := s }
  release h e.previous

/-- Takes the session out of the current slot. -/
def takeCurrent : Section ω (Option Session) := do
  let e ← get
  set { e with current := none }
  pure e.current

/-- Drops both sessions and forgets the current index. -/
def stop : Section ω Unit := do
  modify fun e => { e with playing := false }
  putCurrent h none
  putPrevious h none
  modify fun e => { e with playlist := e.playlist.clearCurrent }

/-- Opens the file of an entry, registers it with the output and lets it play. -/
def openSession (entry : Entry) : StateM ω (Except Refusal Session) := do
  match ← h.openFile entry.path with
  | .error f => pure (.error (.resourceOpen entry.path.display f.message))
  | .ok (file, format) =>
    match ← h.addStream file format with
    | .error f => pure (.error (.resourceOpen entry.path.display f.message))
    | .ok stream =>
      h.playStream stream
      pure (.ok ⟨stream, file, entry.serial⟩)

/-- Makes an entry current. Callers empty the current slot first. -/
def start (index : Nat) : Section ω (Except Refusal Unit) := do
  let e ← get
  match e.playlist.entry? index with
  | none => pure (.error (e.playlist.outOfRange index))
  | some entry =>
    match ← openSession h entry with
    | .error r => pure (.error r)
    | .ok s =>
      putCurrent h (some s)
      modify fun e => { e with playing := true }
      match (← get).playlist.setCurrent (some index) with
      | .error r => pure (.error r)
      | .ok playlist =>
        modify fun e => { e with playlist }
        pure (.ok ())

/-- Starts the first of several entries that can be started, if one can. -/
def startFirst : List Nat → Section ω Unit
  | [] => pure ()
  | index :: rest => do
    match ← start h index with
    | .ok () => pure ()
    | .error _ => startFirst rest

/-- Leaves the current session: it moves to the previous slot to be played out, or is dropped. -/
def leaveCurrent (keep : Bool) : Section ω Unit := do
  putPrevious h none
  let superseded ← takeCurrent
  if keep then putPrevious h superseded else release h superseded
  modify fun e => { e with playing := false, playlist := e.playlist.clearCurrent }

/-- Moves to the nearest entry in a direction that can be started. Without one the engine stops;
without a current entry nothing happens. -/
def advance (direction : Direction) (keep : Bool) : Section ω Unit := do
  match (← get).playlist.current with
  | none => pure ()
  | some index =>
    leaveCurrent h keep
    startFirst h (direction.candidates index (← get).playlist.count)

/-- Drops the previous session once the output has played it out. -/
def reclaim : Section ω Unit := do
  match (← get).previous with
  | none => pure ()
  | some s => if ← h.isDrained s.stream then putPrevious h none else pure ()

/-- Whether there is a current file and it has come to an end. -/
def isFinished : Section ω Bool := do
  match (← get).current with
  | none => pure false
  | some s => return (← h.statusOf s.file) ≠ .playing

/-- One pass of the watcher. Tells whether playback moved on. -/
def tick : Section ω Bool := do
  reclaim h
  let finished ← isFinished h
  if finished then advance h .forward true
  pure finished

/-- Adds an entry at the end of the playlist. Returns its index. -/
def push (path : Path) (tags : Option Library.Tags) : Section ω Nat := do
  let e ← get
  set { e with playlist := e.playlist.push path tags }
  pure e.playlist.count

/-- Removes an entry. Playback stops first if it is the current one. -/
def remove (index : Nat) : Section ω (Except Refusal Unit) := do
  match (← get).playlist.check index with
  | .error r => pure (.error r)
  | .ok () =>
    if (← get).playlist.current = some index then stop h
    match (← get).playlist.remove index with
    | .error r => pure (.error r)
    | .ok (_, playlist) =>
      modify fun e => { e with playlist }
      pure (.ok ())

def flush : Section ω Unit := do
  stop h
  modify fun e => { e with playlist := e.playlist.clear }

def playTarget (e : Engine) : Option Nat → Except Refusal Nat
  | some index => (e.playlist.check index).map fun _ => index
  | none =>
    if e.playlist.count = 0 then .error .emptyPlaylist
    else
      let index := e.playlist.current.getD 0
      (e.playlist.check index).map fun _ => index

/-- Plays an entry: the one given, or the current one again, or the first. A bad index changes
nothing; a file that cannot be opened leaves the engine stopped. -/
def play (index : Option Nat) : Section ω (Except Refusal Unit) := do
  match (← get).playTarget index with
  | .error r => pure (.error r)
  | .ok index =>
    stop h
    start h index

/-- Pauses or resumes. Nothing happens when stopped. -/
def togglePause : Section ω State := do
  let e ← get
  match e.current with
  | none => pure ()
  | some s =>
    if e.playing then h.pauseStream s.stream else h.playStream s.stream
    set { e with playing := !e.playing }
  return (← get).state

def next : Section ω Unit :=
  advance h .forward false

def prev : Section ω Unit :=
  advance h .backward false

/-- Moves to a position in the current file, in seconds. -/
def seek (secs : UInt64) : Section ω (Except Refusal Unit) := do
  match (← get).current with
  | none => pure (.error .nothingPlaying)
  | some s =>
    match ← h.seek s.file secs with
    | .ok () => pure (.ok ())
    | .error f => pure (.error (.seek f.message))

/-- Replaces the settings. Entries keep the paths they were added with. -/
def setSettings (settings : Config.Music) : Section ω Unit :=
  modify fun e => { e with settings := settings }

def view (entry : Entry) : Library.FileView :=
  ⟨Library.displayName entry.path, entry.tags.map .ofTags⟩

/-- What is told of an entry, with cover art on demand. -/
def viewWith (picture : Bool) (entry : Entry) : Library.FileView :=
  if picture then ⟨Library.displayName entry.path, entry.tags.map .complete⟩ else view entry

def playlistView (e : Engine) : List Library.FileView :=
  e.playlist.entries.map view

def currentEntry? (e : Engine) : Option Entry :=
  e.playlist.current.bind e.playlist.entry?

def status (picture : Bool) : Section ω Library.Status := do
  let e ← get
  match e.current, e.currentEntry? with
  | some s, some entry =>
    let position ← h.positionOf s.file
    let length ← h.lengthOf s.file
    pure (.active (viewWith picture entry) position length)
  | _, _ => pure .stopped

/-- Drops the engine with whatever it holds. -/
def dispose : Section ω Unit := do
  putCurrent h none
  putPrevious h none

/-- The streams an engine holds, the current one first. -/
def streams (e : Engine) : Option StreamId × Option StreamId :=
  (e.current.map (·.stream), e.previous.map (·.stream))

end Engine

end Jukebox.Playback
