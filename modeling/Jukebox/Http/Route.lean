import Jukebox.Http.Response
import Jukebox.Json.Reader
import Jukebox.Text.Segments
/-!
# Routes

A route is a path pattern without outer slashes, with the methods it accepts and whatever stands
for its handler. A plain route matches one path. An extended route matches every path below its
pattern, on segment boundaries only, and hands the rest on as the resource.
-/
namespace Jukebox.Http

structure Route (η : Type) where
  path : String
  extended : Bool
  takesJson : Bool
  methods : List Method
  handler : η

namespace Route

variable {η : Type}

/-- A route for a pattern, which may be given with outer slashes. -/
def make (pattern : String) (extended takesJson : Bool) (methods : List Method) (handler : η) :
    Route η :=
  ⟨Text.trimSlashes pattern, extended, takesJson, methods, handler⟩

def withHandler {θ : Type} (r : Route η) (handler : θ) : Route θ :=
  { r with handler := handler }

/-- Matching of a pattern without outer slashes against a path without leading slashes. -/
def matchTrimmed (extended : Bool) (pattern path : List Char) : Option (List Char) :=
  if ¬extended then
    if Text.trimRight path = pattern then some [] else none
  else if pattern = [] then some (Text.trimRight path)
  else
    match Text.dropStem? pattern path with
    | some [] => some []
    | some ('/' :: resource) => some resource
    | _ => none

def matches? (r : Route η) (path : String) : Option String :=
  (matchTrimmed r.extended r.path.toList (Text.trimLeft path.toList)).map String.ofList

/-- The JSON document of a body: none if the route takes none or the body is empty. The outer
option is none when there is a body that cannot be read. -/
def document? (r : Route η) (body : List UInt8) : Option (Option Json.Value) :=
  if r.takesJson ∧ body ≠ [] then (Json.Value.parseBytes? body).map some else some none

def flagCode (r : Route η) : Nat :=
  (if r.extended then 1 else 0) + (if r.takesJson then 2 else 0)

end Route

end Jukebox.Http
