import Jukebox.Http.Response
import Jukebox.Fault
/-!
# Refusals

Why the player refuses an operation. Every refusal has a text and the HTTP status it is reported
with.
-/
namespace Jukebox.Playback

inductive Refusal where
  /-- No entry has this index. -/
  | indexOutOfRange (index count : Nat)
  /-- There is nothing to resume and nothing to start from. -/
  | emptyPlaylist
  /-- A file cannot be opened, or its stream not registered. -/
  | resourceOpen (path reason : String)
  /-- The operation needs a current file. -/
  | nothingPlaying
  /-- A relative path is absolute or leads upwards. -/
  | invalidPath (path : String)
  /-- A directory cannot be read. -/
  | listing (e : Storage.SystemError)
  /-- The decoder rejects a position. -/
  | seek (reason : String)
  deriving DecidableEq, Repr

namespace Refusal

def message : Refusal → String
  | .indexOutOfRange index count =>
    "Index " ++ toString index ++ " out of range (playlist has " ++ toString count ++ " entries)"
  | .emptyPlaylist => "Playlist is empty"
  | .resourceOpen path reason => "Cannot open " ++ path ++ ": " ++ reason
  | .nothingPlaying => "Nothing is playing"
  | .invalidPath path => "Invalid path: " ++ path
  | .listing e => "Cannot list directory: " ++ e.message
  | .seek reason => "Seek failed: " ++ reason

def status : Refusal → Nat
  | .resourceOpen _ _ => 406
  | .listing _ => 404
  | _ => 400

def response (r : Refusal) : Http.Response :=
  .text r.status r.message

end Refusal

end Jukebox.Playback
