import Jukebox.Daemon.Requests
import Jukebox.Text.Segments
/-!
# The HTTP entrance

Every request passes here. `OPTIONS` is answered for any path, so that browsers may call from other
sites. `/health` is served directly. Everything else goes to the URL tables, under the path of the
target with its percent-encoding undone; the query takes no part.
-/
namespace Jukebox.Daemon

open Http (Reply Response)

structure Wire where
  status : Nat
  contentType : Option String
  body : String
  deriving DecidableEq, Repr

namespace Wire

def bare (status : Nat) : Wire := ⟨status, none, ""⟩

/-- A response of a handler. Without a body no type is announced. -/
def ofResponse (r : Response) : Wire :=
  match r.body with
  | some body => ⟨r.status, some r.contentType.header, body⟩
  | none => bare r.status

/-- The outcome of a handler; a broken handler is an internal error. -/
def ofReply : Reply → Wire
  | .answered r => ofResponse r
  | .crashed => bare 500

end Wire

def programName : String := "aircat"

def programVersion : String := "0.1.0"

def healthPath : String := "/health"

def healthJson : Json.Value :=
  .object
    [("status", .string "ok"), ("module", .string programName),
      ("version", .string programVersion)]

/-- The path in a request target: what follows the authority, up to the query or the fragment. A
target that is a bare authority has no path. -/
def targetPath (target : String) : String :=
  let cs := target.toList.takeWhile fun c => c ≠ '?' ∧ c ≠ '#'
  if cs.head? = some '/' then String.ofList cs
  else
    let afterScheme := cs.dropWhile (· ≠ ':')
    match afterScheme with
    | ':' :: '/' :: '/' :: rest =>
      let path := rest.dropWhile (· ≠ '/')
      if path = [] then "/" else String.ofList path
    | _ => if cs = ['*'] then "*" else ""

/-- Answers the health report: a document to `GET`, its head to `HEAD`. -/
def health (method : String) : Wire :=
  if method = "GET" then ⟨200, some Http.ContentType.json.header, healthJson.toText⟩
  else if method = "HEAD" then ⟨200, some Http.ContentType.json.header, ""⟩
  else .bare 405

variable {μ ω η : Type} (modules : Surroundings μ ω η)

/-- Answers a request to the URL tables, given its path as it was sent. -/
def serveTables (method path : String) (body : List UInt8) : StateM (Context μ ω η) Wire :=
  match Http.Method.ofName? method with
  | none => pure (.ofResponse .methodNotAllowed)
  | some m =>
    match Text.ofBytes? (Text.Percent.decode (Text.bytesOf path)) with
    | none => pure (.ofResponse (.text 400 "Bad URL"))
    | some path => do return .ofReply (← Context.answer modules m path body)

def serve (method target : String) (body : List UInt8) : StateM (Context μ ω η) Wire :=
  if method = "OPTIONS" then pure (.bare 200)
  else
    let path := targetPath target
    if path = healthPath then pure (health method) else serveTables modules method path body

end Jukebox.Daemon
