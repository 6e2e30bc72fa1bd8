import Jukebox.Audio.Stream
import Jukebox.Fault
import Jukebox.Library.Media
import Jukebox.Storage.Path
/-!
# What the player asks of its surroundings

The player opens and reads media files, looks at directories and registers streams with an output.
`Host` holds one operation for each such question, over a world `ω` that may answer each time as it
likes. `Host.recorded` is the same host with a record of every call and its answer, in order.
-/
namespace Jukebox.Playback

open Storage

export Audio (StreamId Format FileStatus)

structure FileId where
  number : Nat
  deriving DecidableEq, Repr

inductive Kind where
  | file | directory | other
  deriving DecidableEq, Repr

structure Host (ω : Type) where
  /-- Whether a path leads to a regular file. -/
  isFile : Path → StateM ω Bool
  /-- What a path leads to, if that can be found out. -/
  kindOf? : Path → StateM ω (Option Kind)
  /-- Names in a directory. -/
  readDirectory : Path → StateM ω (Except SystemError (List Name))
  /-- Tags of a media file with its cover art. -/
  readTags : Path → StateM ω (Except Fault Library.Tags)
  /-- Opens a media file. -/
  openFile : Path → StateM ω (Except Fault (FileId × Format))
  /-- State of an open file. -/
  statusOf : FileId → StateM ω FileStatus
  /-- Position in an open file, in seconds. -/
  positionOf : FileId → StateM ω UInt64
  /-- Length of an open file, in seconds. -/
  lengthOf : FileId → StateM ω UInt64
  /-- Moves to a position in an open file, in seconds. -/
  seek : FileId → UInt64 → StateM ω (Except Fault Unit)
  /-- Registers an open file with the output; its stream is not played yet. -/
  addStream : FileId → Format → StateM ω (Except Fault StreamId)
  /-- Lets the output pull from a stream. -/
  playStream : StreamId → StateM ω Unit
  /-- Stops the output from pulling. -/
  pauseStream : StreamId → StateM ω Unit
  /-- Unregisters a stream. -/
  removeStream : StreamId → StateM ω Unit
  /-- Whether the output has played out everything it pulled. -/
  isDrained : StreamId → StateM ω Bool

/-- A call of the player to its host, with the part of the answer that statements need. -/
inductive Call where
  | inspected (p : Path)
  | listed (p : Path)
  | readTags (p : Path)
  | opened (p : Path) (file : Option FileId)
  | askedStatus (file : FileId) (status : FileStatus)
  | sought (file : FileId)
  | added (stream : StreamId)
  | refused
  | played (stream : StreamId)
  | paused (stream : StreamId)
  | removed (stream : StreamId)
  | askedDrained (stream : StreamId) (drained : Bool)
  deriving DecidableEq, Repr

/-- Runs an operation on the first half of a state and appends its call to the second. -/
def record {ω α : Type} (op : StateM ω α) (call : α → List Call) : StateM (ω × List Call) α :=
  fun (w, calls) =>
    let (a, w) := op w
    (a, (w, calls ++ call a))

/-- The host with a record of its calls beside its world. -/
def Host.recorded {ω : Type} (h : Host ω) : Host (ω × List Call) where
  isFile p := record (h.isFile p) fun _ => [.inspected p]
  kindOf? p := record (h.kindOf? p) fun _ => [.inspected p]
  readDirectory p := record (h.readDirectory p) fun _ => [.listed p]
  readTags p := record (h.readTags p) fun _ => [.readTags p]
  openFile p := record (h.openFile p) fun
    | .ok (file, _) => [.opened p (some file)]
    | .error _ => [.opened p none]
  statusOf f := record (h.statusOf f) fun s => [.askedStatus f s]
  positionOf f := record (h.positionOf f) fun _ => []
  lengthOf f := record (h.lengthOf f) fun _ => []
  seek f secs := record (h.seek f secs) fun _ => [.sought f]
  addStream f format := record (h.addStream f format) fun
    | .ok s => [.added s]
    | .error _ => [.refused]
  playStream s := record (h.playStream s) fun _ => [.played s]
  pauseStream s := record (h.pauseStream s) fun _ => [.paused s]
  removeStream s := record (h.removeStream s) fun _ => [.removed s]
  isDrained s := record (h.isDrained s) fun d => [.askedDrained s d]

end Jukebox.Playback
