import Jukebox.Json.Printer
/-!
# Requests and responses of URL tables

A request has one of the four methods that URL tables can accept. Names are matched exactly, case
included; a request with any other method never reaches a table.

A response is a status with an optional body. Bodies are texts: short reasons, or JSON.
-/
namespace Jukebox.Http

inductive Method where
  | get | put | post | delete
  deriving DecidableEq, Repr

namespace Method

def all : List Method := [.get, .put, .post, .delete]

def name : Method → String
  | .get => "GET"
  | .put => "PUT"
  | .post => "POST"
  | .delete => "DELETE"

def ofName? (s : String) : Option Method :=
  all.find? fun m => m.name = s

/-- The bit that stands for the method in a set's code. -/
def bit : Method → Nat
  | .get => 1
  | .put => 2
  | .post => 4
  | .delete => 8

/-- Code of a set of methods: the sum of the bits of those in it. -/
def code (methods : List Method) : Nat :=
  all.foldl (fun n m => if methods.contains m then n + m.bit else n) 0

end Method

inductive ContentType where
  | plain | json
  deriving DecidableEq, Repr

def ContentType.header : ContentType → String
  | .plain => "text/plain; charset=utf-8"
  | .json => "application/json"

structure Response where
  status : Nat
  body : Option String
  contentType : ContentType
  deriving DecidableEq, Repr

namespace Response

def empty (status : Nat) : Response :=
  ⟨status, none, .plain⟩

def ok : Response :=
  empty 200

def text (status : Nat) (message : String) : Response :=
  ⟨status, some message, .plain⟩

def json (status : Nat) (v : Json.Value) : Response :=
  ⟨status, some v.toText, .json⟩

/-- A JSON body that may fail to be produced; the failure becomes an internal error. -/
def produced (status : Nat) : Except String Json.Value → Response
  | .ok v => json status v
  | .error reason => text 500 ("Serialization error: " ++ reason)

/-- No namespace or route of that path. -/
def notFound : Response :=
  text 404 "Not found"

/-- A route of that path, but not for that method. -/
def methodNotAllowed : Response :=
  text 405 "Method not allowed"

/-- A body that is no JSON where JSON is wanted. -/
def badJson : Response :=
  text 400 "Bad JSON body"

end Response

/-- A request as a handler sees it: what an extended route left of the path, and the parsed body
of a route that takes JSON. -/
structure Request where
  method : Method
  resource : String
  json : Option Json.Value

inductive Reply where
  | answered (r : Response)
  | crashed
  deriving DecidableEq, Repr

end Jukebox.Http
