import Jukebox.Daemon.Core
import Jukebox.Http.Dispatcher
/-!
# Serving requests

The daemon serves the URL tables of its modules, each under the module's id, and its own table under
`config`. What is bound to a route is a `Target`.
-/
namespace Jukebox.Daemon

open Http (Reply Request Response Route)

inductive ConfigRequest where
  | resetDefaults | reload | save | sections
  deriving DecidableEq, Repr

def ConfigRequest.table : List (Route ConfigRequest) :=
  [ .make "default" false false [.put] .resetDefaults
  , .make "reload" false false [.put] .reload
  , .make "save" false false [.put] .save
  , .make "" true true [.get, .put] .sections ]

def configNamespace : String := "config"

/-- What answers a request: the daemon itself, or a handler of the module at a position. -/
inductive Target (η : Type) where
  | config (r : ConfigRequest)
  | module (position : Nat) (handler : η)

structure Context (μ ω η : Type) where
  core : Core μ ω
  dispatcher : Http.Dispatcher (Target η)

variable {μ ω η : Type} (modules : Surroundings μ ω η)

def ConfigRequest.handle (r : ConfigRequest) (q : Request) : Operation μ ω Response :=
  match r with
  | .resetDefaults => do
    Core.resetDefaults modules
    pure .ok
  | .reload => do
    Core.reload modules
    pure .ok
  | .save => do
    match ← Core.save modules with
    | .ok () => pure .ok
    | .error _ => pure (.text 500 "Cannot save configuration")
  | .sections =>
    if q.method = .get then do
      let sections ← Core.snapshot modules q.resource
      pure (.json 200 (.object sections))
    else
      match q.json with
      | some (.object body) => do
        Core.apply modules q.resource body
        pure .ok
      | _ => pure .badJson

def Target.handle (t : Target η) (q : Request) : Operation μ ω Reply :=
  match t with
  | .config r => do return .answered (← r.handle modules q)
  | .module position handler =>
    Core.onRegistry modules fun i r => r.handle i position handler q

namespace Context

/-- Opens the modules and binds the routes: those of the modules in load order, then the
daemon's own. -/
def build (descriptors : Storage.FileSystem → List (Module.Descriptor μ ω)) (store : Config.Store)
    (files : Storage.FileSystem) (world : ω) : Context μ ω η :=
  let core := Core.start descriptors store files world
  let (tables, core) := Core.onRegistry modules (fun i r => r.routes i) core
  let dispatcher := tables.foldl (fun d (id, routes) =>
    d.addUrls id (routes.map fun r => r.withHandler (.module r.handler.1 r.handler.2)))
    Http.Dispatcher.empty
  let own := ConfigRequest.table.map fun r => r.withHandler (.config r.handler)
  ⟨core, dispatcher.addUrls configNamespace own⟩

def onCore {α : Type} (op : Operation μ ω α) : StateM (Context μ ω η) α :=
  fun c =>
    let (a, core) := op c.core
    (a, { c with core := core })

def answer (method : Http.Method) (path : String) (body : List UInt8) :
    StateM (Context μ ω η) Reply :=
  fun c => onCore (c.dispatcher.answer (fun t q => t.handle modules q) method path body) c

end Context

end Jukebox.Daemon
