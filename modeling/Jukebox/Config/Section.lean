import Jukebox.Json.Value
import Jukebox.Storage.Path
/-!
# Sections with one setting

A section of one setting is an object that holds it under its name among any other members, or an
array of that one value. A section that is absent, null or malformed means the default, as one that
leaves the setting out does.
-/
namespace Jukebox.Config

open Storage

def setting? (name : String) : Json.Value → Option Json.Value
  | .object members => Json.Members.find? name members
  | .array [v] => some v
  | _ => none

structure Httpd where
  port : UInt16
  deriving DecidableEq, Repr

namespace Httpd

def key : String := "httpd"

def default : Httpd := ⟨8080⟩

def port? (v : Json.Value) : Option UInt16 :=
  match v.natural? with
  | some n => if n < 65536 then some (UInt16.ofNat n) else none
  | none => none

def ofSection (s : Option Json.Value) : Httpd :=
  match (s.bind (setting? "port")).bind port? with
  | some p => ⟨p⟩
  | none => default

def toSection (h : Httpd) : Json.Value :=
  .object [("port", .nat h.port.toNat)]

end Httpd

structure Music where
  root : Path
  deriving DecidableEq, Repr

namespace Music

def defaultRoot : String := "/var/aircat/files"

def default : Music := ⟨Path.ofString defaultRoot⟩

def path? (v : Json.Value) : Option Path :=
  v.text?.map Path.ofString

def ofSection (s : Option Json.Value) : Music :=
  match (s.bind (setting? "path")).bind path? with
  | some p => ⟨p⟩
  | none => default

def toSection (m : Music) : Json.Value :=
  .object [("path", .string m.root.display)]

end Music

end Jukebox.Config
