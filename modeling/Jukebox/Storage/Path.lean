import Jukebox.Text.Utf8
/-!
# Paths

A path is a byte string. Its components are what lies between slashes: empty parts and `.` do not
count, except a `.` that starts a relative path. Two paths with the same components name the same
place, but a path keeps the bytes it was made of, and those are shown.
-/
namespace Jukebox.Storage

/-- One name in a path. It holds neither a slash nor a NUL byte when it is a name on disk. -/
abbrev Name := List UInt8

structure Path where
  bytes : List UInt8
  deriving DecidableEq, Repr

inductive Component where
  | root
  | current
  | parent
  | normal (name : Name)
  deriving DecidableEq, Repr

def slash : UInt8 := 47

def dot : UInt8 := 46

/-- The parts between slashes, empty ones included. -/
def pieces : List UInt8 → List Name
  | [] => [[]]
  | b :: rest =>
    if b = slash then [] :: pieces rest
    else
      match pieces rest with
      | [] => [[b]]
      | p :: more => (b :: p) :: more

/-- What a part means after the first one; empty parts and `.` mean nothing. -/
def Component.ofPiece? (p : Name) : Option Component :=
  if p = [] then none
  else if p = [dot] then none
  else if p = [dot, dot] then some .parent
  else some (.normal p)

namespace Path

def ofString (s : String) : Path :=
  ⟨Text.bytesOf s⟩

def display (p : Path) : String :=
  Text.lossy p.bytes

def isAbsolute (p : Path) : Bool :=
  p.bytes.head? = some slash

def components (p : Path) : List Component :=
  if p.isAbsolute then .root :: (pieces p.bytes).filterMap Component.ofPiece?
  else
    match pieces p.bytes with
    | [] => []
    | first :: rest =>
      (if first = [dot] then [.current] else (Component.ofPiece? first).toList) ++
        rest.filterMap Component.ofPiece?

def push (p : Path) (name : Name) : Path :=
  match p.bytes.getLast? with
  | none => ⟨name⟩
  | some b => if b = slash then ⟨p.bytes ++ name⟩ else ⟨p.bytes ++ slash :: name⟩

def pushAll (p : Path) (names : List Name) : Path :=
  names.foldl push p

def pieceOf : Component → Name
  | .root => []
  | .current => [dot]
  | .parent => [dot, dot]
  | .normal name => name

def ofComponents : List Component → Path
  | .root :: rest => rest.foldl (fun p c => p.push (pieceOf c)) ⟨[slash]⟩
  | cs => cs.foldl (fun p c => p.push (pieceOf c)) ⟨[]⟩

def fileName? (p : Path) : Option Name :=
  match p.components.getLast? with
  | some (.normal name) => some name
  | _ => none

/-- The path without its last component; the root and the empty path have no parent. -/
def parent? (p : Path) : Option Path :=
  match p.components.getLast? with
  | none => none
  | some .root => none
  | some _ => some (ofComponents p.components.dropLast)

def withFileName (p : Path) (name : Name) : Path :=
  match p.fileName? with
  | some _ => (p.parent?.getD ⟨[]⟩).push name
  | none => p.push name

/-- What follows the last dot of the last name, unless the dot is its first byte. -/
def extension? (p : Path) : Option (List UInt8) :=
  match p.fileName? with
  | none => none
  | some name =>
    let after := (name.reverse.takeWhile (· ≠ dot)).reverse
    let before := name.take (name.length - after.length - 1)
    if after.length < name.length ∧ before ≠ [] then some after else none

end Path

end Jukebox.Storage
