import Jukebox.Http.Route
/-!
# Dispatching requests

Routes are registered under namespaces. The first segment of a path names the namespace; a path
that names none is looked up as a whole under the empty namespace. Within a namespace the first
route decides that matches the path and accepts the method.

`Dispatcher.dispatch` only decides; `Dispatcher.answer` also calls the chosen handler.
-/
namespace Jukebox.Http

structure Namespace (η : Type) where
  name : String
  routes : List (Route η)

structure Dispatcher (η : Type) where
  namespaces : List (Namespace η)

/-- What becomes of a request: an answer without any handler, or one handler to call. -/
inductive Decision (η : Type) where
  | respond (r : Response)
  | call (handler : η) (request : Request)

namespace Dispatcher

variable {η : Type}

def empty : Dispatcher η := ⟨[]⟩

/-- Appends routes to the namespace of that name, or opens a namespace at the end. -/
def extend (name : String) (routes : List (Route η)) : List (Namespace η) → List (Namespace η)
  | [] => [⟨name, routes⟩]
  | n :: rest =>
    if n.name = name then { n with routes := n.routes ++ routes } :: rest
    else n :: extend name routes rest

/-- Registers routes under a name, whose outer slashes do not count. -/
def addUrls (d : Dispatcher η) (namespaceName : String) (routes : List (Route η)) :
    Dispatcher η :=
  ⟨extend (Text.trimSlashes namespaceName) routes d.namespaces⟩

def names (d : Dispatcher η) : List String :=
  d.namespaces.map (·.name)

def routesOf? (d : Dispatcher η) (name : String) : Option (List (Route η)) :=
  (d.namespaces.find? fun n => n.name = name).map (·.routes)

/-- The routes to search for a path, and the path to match them against. -/
def target? (d : Dispatcher η) (path : String) : Option (List (Route η) × String) :=
  let trimmed := Text.trimLeft path.toList
  let (head, rest) := Text.cutFirst trimmed
  match d.routesOf? (String.ofList head) with
  | some routes => some (routes, String.ofList rest)
  | none => (d.routesOf? "").map fun routes => (routes, String.ofList trimmed)

/-- Searches routes in table order. `seen` tells whether a route matched already whose methods did
not. -/
def search (method : Method) (path : String) (body : List UInt8) :
    Bool → List (Route η) → Decision η
  | seen, [] => .respond (if seen then .methodNotAllowed else .notFound)
  | seen, r :: rest =>
    match r.matches? path with
    | none => search method path body seen rest
    | some resource =>
      if r.methods.contains method then
        match r.document? body with
        | some json => .call r.handler ⟨method, resource, json⟩
        | none => .respond .badJson
      else search method path body true rest

def dispatch (d : Dispatcher η) (method : Method) (path : String) (body : List UInt8) :
    Decision η :=
  match d.target? path with
  | some (routes, rest) => search method rest body false routes
  | none => .respond .notFound

/-- Answers a request, calling at most one handler. -/
def answer {m : Type → Type} [Monad m] (d : Dispatcher η) (call : η → Request → m Reply)
    (method : Method) (path : String) (body : List UInt8) : m Reply :=
  match d.dispatch method path body with
  | .respond r => pure (.answered r)
  | .call handler request => call handler request

end Dispatcher

end Jukebox.Http
