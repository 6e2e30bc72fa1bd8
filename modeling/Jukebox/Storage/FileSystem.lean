import Jukebox.Storage.Path
import Jukebox.Fault
/-!
# File systems

A file system maps places to nodes. A place is the list of names from the root; the root itself is
always a directory. Paths are resolved as the system does it, name by name, through links and
parents, and every call fails with the error the system gives.

Calls that change the file system run in `Disk`, which keeps what was changed before an error.
-/
namespace Jukebox.Storage

/-- The names from the root down. -/
abbrev Place := List Name

inductive Node where
  | file (content : List UInt8)
  | directory
  | link (target : Path)
  /-- Neither a file nor a directory: a socket, a pipe or a device. -/
  | special
  deriving DecidableEq, Repr

/-- The nodes below the root, in the order in which they were made, and the place that relative
paths start from. -/
structure FileSystem where
  nodes : List (Place × Node)
  workingDirectory : Place
  deriving Repr

/-- Calls that may change the file system and may fail. -/
abbrev Disk (α : Type) := ExceptT SystemError (StateM FileSystem) α

inductive Purpose where
  /-- The node itself, even if it is a link. -/
  | itself
  /-- What a link there leads to. -/
  | target
  /-- A file to write, made if it is missing. -/
  | creation
  deriving DecidableEq, Repr

/-- Longest name, in bytes. -/
def maxName : Nat := 255

def maxPath : Nat := 4095

def maxLinks : Nat := 40

namespace FileSystem

def empty : FileSystem := ⟨[], []⟩

def node? (fs : FileSystem) (place : Place) : Option Node :=
  if place = [] then some .directory else fs.nodes.lookup place

/-- The file system with a node put at a place; a node that was there is replaced where it
stands. -/
def put (fs : FileSystem) (place : Place) (node : Node) : FileSystem :=
  if (fs.nodes.lookup place).isSome then
    { fs with nodes := fs.nodes.map fun (p, n) => if p = place then (p, node) else (p, n) }
  else { fs with nodes := fs.nodes ++ [(place, node)] }

def erase (fs : FileSystem) (place : Place) : FileSystem :=
  { fs with nodes := fs.nodes.filter fun (p, _) => p ≠ place }

def namesBelow (fs : FileSystem) (place : Place) : List Name :=
  fs.nodes.filterMap fun (p, _) =>
    match p.getLast? with
    | some name => if p = place ++ [name] then some name else none
    | none => none

/-- The names of a path in the order in which they are walked. A slash at the end asks for a
directory, as a final `.` does; it counts as an empty name. -/
def steps (p : Path) : List Name :=
  let names := (pieces p.bytes).filter (· ≠ [])
  if names ≠ [] ∧ p.bytes.getLast? = some slash then names ++ [[]] else names

/-- Walks names from a place. The result is the place that is reached and its node, or none when
only the last name is missing. A link at the very end is followed on demand. A name with a slash
after it cannot be a file to write, whatever is there. -/
def walk (fs : FileSystem) (purpose : Purpose) (links : Nat) (place : Place) :
    List Name → Except SystemError (Place × Option Node)
  | [] => .ok (place, fs.node? place)
  | name :: rest =>
    match fs.node? place with
    | some .directory =>
      if name = [] ∨ name = [dot] then walk fs purpose links place rest
      else if name = [dot, dot] then walk fs purpose links place.dropLast rest
      else if purpose = .creation ∧ rest = [[]] then .error .isDirectory
      else if maxName < name.length then .error .nameTooLong
      else
        let next := place ++ [name]
        match fs.node? next with
        | none => if rest = [] then .ok (next, none) else .error .noEntry
        | some (.link target) =>
          if rest = [] ∧ purpose = .itself then .ok (next, some (.link target))
          else
            match links with
            | 0 => .error .linkLoop
            | links + 1 =>
              walk fs purpose links (if target.isAbsolute then [] else place) (steps target ++ rest)
        | some _ => walk fs purpose links next rest
    | _ => .error .notDirectory
termination_by names => (links, names.length)

/-- Where a path leads. -/
def locate (fs : FileSystem) (purpose : Purpose) (p : Path) :
    Except SystemError (Place × Option Node) :=
  if p.bytes.contains 0 then .error .nulInName
  else if p.bytes = [] then .error .noEntry
  else if maxPath < p.bytes.length then .error .nameTooLong
  else fs.walk purpose maxLinks (if p.isAbsolute then [] else fs.workingDirectory) (steps p)

/-- The node that a path leads to, links followed. -/
def stat (fs : FileSystem) (p : Path) : Except SystemError Node :=
  match fs.locate .target p with
  | .ok (_, some node) => .ok node
  | .ok (_, none) => .error .noEntry
  | .error e => .error e

def isThere (fs : FileSystem) (p : Path) : Bool :=
  match fs.stat p with
  | .ok _ => true
  | .error _ => false

def isFile (fs : FileSystem) (p : Path) : Bool :=
  match fs.stat p with
  | .ok (.file _) => true
  | _ => false

def isDirectory (fs : FileSystem) (p : Path) : Bool :=
  match fs.stat p with
  | .ok .directory => true
  | _ => false

def content (fs : FileSystem) (p : Path) : Except SystemError (List UInt8) :=
  match fs.stat p with
  | .ok (.file content) => .ok content
  | .ok .directory => .error .isDirectory
  | .ok _ => .error .noEntry
  | .error e => .error e

def readDirectory (fs : FileSystem) (p : Path) : Except SystemError (List Name) :=
  match fs.locate .target p with
  | .ok (place, some .directory) => .ok (fs.namesBelow place)
  | .ok (_, some _) => .error .notDirectory
  | .ok (_, none) => .error .noEntry
  | .error e => .error e

/-- A path without the slashes at its end; making a directory does not mind them. -/
def withoutTrailing (p : Path) : Path :=
  let trimmed := (p.bytes.reverse.dropWhile (· = slash)).reverse
  if trimmed = [] then p else ⟨trimmed⟩

end FileSystem

namespace Disk

/-- The outcome of a question to the present file system. -/
def ask {α : Type} (question : FileSystem → Except SystemError α) : Disk α := do
  match question (← get) with
  | .ok a => pure a
  | .error e => throw e

def makeDirectory (p : Path) : Disk Unit := do
  match ← ask (·.locate .itself (FileSystem.withoutTrailing p)) with
  | (place, none) => modify (·.put place .directory)
  | (_, some _) => throw .alreadyThere

/-- Accepts a failure if a directory is there all the same. -/
def unlessDirectory (p : Path) (e : SystemError) : Disk Unit := do
  if (← get).isDirectory p then pure () else throw e

def ensureDirectory (p : Path) : Disk Unit :=
  tryCatch (makeDirectory p) (unlessDirectory p)

/-- Makes a directory and its parents; `fuel` bounds the number of parents. -/
def makeDirectories : Nat → Path → Disk Unit
  | 0, p => ensureDirectory p
  | fuel + 1, p =>
    if p.bytes = [] then pure ()
    else
      tryCatch (makeDirectory p) fun e =>
        if e = .noEntry then
          match p.parent? with
          | some parent => do
            makeDirectories fuel parent
            ensureDirectory p
          | none => throw e
        else unlessDirectory p e

/-- Writes a whole file, made if it is missing. -/
def writeFile (p : Path) (content : List UInt8) : Disk Unit := do
  match ← ask (·.locate .creation p) with
  | (place, none) => modify (·.put place (.file content))
  | (place, some (.file _)) => modify (·.put place (.file content))
  | (_, some .directory) => throw .isDirectory
  | (_, some _) => throw .noDevice

def makeNode (p : Path) (node : Node) : Disk Unit := do
  match ← ask (·.locate .itself p) with
  | (place, none) => modify (·.put place node)
  | (_, some _) => throw .alreadyThere

/-- Makes the directories that a path lies in. -/
def makeParents (p : Path) : Disk Unit :=
  match p.parent? with
  | some parent => makeDirectories parent.components.length parent
  | none => pure ()

/-- Moves a file to another path, over a file or link that is there. -/
def renameFile (source target : Path) : Disk Unit := do
  match ← ask (·.locate .itself source) with
  | (origin, some node) =>
    let names := (pieces target.bytes).filter (· ≠ [])
    match names.getLast? with
    | none => throw .busy
    | some last =>
      let (place, present) ← ask (·.locate .itself ⟨(FileSystem.withoutTrailing target).bytes⟩)
      if last = [dot] ∨ last = [dot, dot] then throw .busy
      else if node ≠ .directory ∧ target.bytes.getLast? = some slash then throw .notDirectory
      else if present = some .directory ∧ node ≠ .directory then throw .isDirectory
      else modify fun fs => (fs.erase origin).put place node
  | (_, none) => throw .noEntry

end Disk

end Jukebox.Storage
