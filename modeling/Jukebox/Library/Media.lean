import Jukebox.Storage.Path
/-!
# Media files

Clients name files relative to the music root. A relative path resolves if it is not absolute and
has no `..` among its components; the result is the root with the remaining names appended, so it
never leaves the root.

Tags are what a media file says about itself. Absent texts are absent; absent numbers are zero.
-/
namespace Jukebox.Library

open Storage

/-- The names that components append to a root; none if one of them could lead out of it. -/
def names? : List Component → Option (List Name)
  | [] => some []
  | .normal name :: rest => (names? rest).map (name :: ·)
  | .current :: rest => names? rest
  | .parent :: _ => none
  | .root :: _ => none

/-- The path that a relative path means below a root. -/
def resolve? (root relative : Path) : Option Path :=
  (names? relative.components).map root.pushAll

/-- The last name of a path as text, empty if it has none. -/
def displayName (p : Path) : String :=
  match p.fileName? with
  | some name => Text.lossy name
  | none => ""

def mediaExtensions : List String :=
  ["mp3", "m4a", "mp4", "aac", "ogg", "wav"]

/-- A byte with ASCII capitals turned small. -/
def lowercase (b : UInt8) : UInt8 :=
  if 65 ≤ b ∧ b ≤ 90 then b + 32 else b

/-- Whether a path has the extension of a media file, in any case. -/
def isMediaFile (p : Path) : Bool :=
  match p.extension? with
  | some ext => mediaExtensions.any fun m => Text.bytesOf m = ext.map lowercase
  | none => false

structure Picture where
  data : List UInt8
  mime : Option String
  deriving DecidableEq, Repr

structure Tags where
  title : Option String
  artist : Option String
  album : Option String
  comment : Option String
  genre : Option String
  track : UInt32
  year : UInt32
  picture : Option Picture
  deriving DecidableEq, Repr

def Tags.none : Tags :=
  ⟨.none, .none, .none, .none, .none, 0, 0, .none⟩

end Jukebox.Library
