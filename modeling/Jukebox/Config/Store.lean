import Jukebox.Fault
import Jukebox.Json.Printer
import Jukebox.Json.Reader
import Jukebox.Storage.FileSystem
/-!
# The configuration document

One JSON object holds the whole configuration, one section per owner. It is read from a file, kept
in memory and written back on demand only. Anything but a readable JSON object reads as an empty
document.

Saving makes the parent directories, writes a sibling file and renames it over the old one, so the
file holds the old text or the new one and nothing in between.
-/
namespace Jukebox.Config

open Storage

structure Store where
  path : Path
  document : Json.Members

namespace Store

def documentOf (content : List UInt8) : Json.Members :=
  match Json.Value.parseBytes? content with
  | some (.object members) => members
  | _ => []

def documentAt (fs : FileSystem) (path : Path) : Json.Members :=
  match fs.content path with
  | .ok content => documentOf content
  | .error _ => []

/-- A store bound to a path, with the document found there. -/
def openAt (fs : FileSystem) (path : Path) : Store :=
  ⟨path, documentAt fs path⟩

/-- The store with the document replaced by what its file holds now. -/
def load (s : Store) (fs : FileSystem) : Store :=
  openAt fs s.path

def section? (s : Store) (id : String) : Option Json.Value :=
  s.document.find? id

/-- The store with one section replaced, or removed when there is no value for it. -/
def setSection (s : Store) (id : String) (value : Option Json.Value) : Store :=
  { s with document := s.document.put id value }

/-- The text that saving writes. -/
def text (s : Store) : List UInt8 :=
  Text.bytesOf (Json.Value.object s.document).toPretty

inductive Action where
  | makeDirectories (p : Path)
  | writeFile (p : Path) (content : List UInt8)
  | renameFile (source target : Path)
  deriving DecidableEq, Repr

def Action.run : Action → Disk Unit
  | .makeDirectories p => Disk.makeDirectories p.components.length p
  | .writeFile p content => Disk.writeFile p content
  | .renameFile source target => Disk.renameFile source target

/-- Performs actions in order, up to the first that fails. -/
def runAll : List Action → Disk Unit
  | [] => pure ()
  | a :: rest => do
    a.run
    runAll rest

def temporarySuffix : Name :=
  Text.bytesOf ".tmp"

/-- The sibling file that is written first. -/
def temporaryPath (s : Store) (name : Name) : Path :=
  s.path.withFileName (name ++ temporarySuffix)

/-- The actions that save a document under a path whose last name is given. -/
def saveActions (s : Store) (name : Name) : List Action :=
  let parents :=
    match s.path.parent? with
    | some p => if p.bytes = [] then [] else [Action.makeDirectories p]
    | none => []
  parents ++
    [.writeFile (s.temporaryPath name) s.text, .renameFile (s.temporaryPath name) s.path]

def save (s : Store) : ExceptT Fault (StateM FileSystem) Unit :=
  match s.path.fileName? with
  | none => throw (.config (s.path.display ++ " does not name a file"))
  | some name => ExceptT.adapt Fault.io (runAll (s.saveActions name))

end Store

end Jukebox.Config
