import Jukebox.Module.Interface
import Jukebox.Playback.Requests
import Jukebox.Playback.Watcher
/-!
# The player as a module

The player is offered to the daemon as a module with a URL table. Its section of the configuration
holds the music root. It is opened with a watcher beside it, and closing it shuts the player down.
-/
namespace Jukebox.Playback.Service

open Jukebox.Module (Descriptor Interface)

/-- The id of the module, under which its URL table is bound. -/
def id : String := "files"

def title : String := "File browser"

def summary : String :=
  "Browse through local and remote folder and play any music file."

variable {ω : Type} (h : Host ω)

/-- Answers a request. All its steps are taken without interruption. -/
def handle (r : Request) (q : Http.Request) : Module.Call Player ω Http.Reply :=
  fun p w =>
    let (response, (engine, w)) := (r.operation h q.resource).run (p.engine, w)
    ((.answered response, { p with engine }), w)

def interface : Interface Player ω Request where
  setConfig value := do
    Player.onEngine (Engine.setSettings (.ofSection value))
    return .ok ()
  getConfig := do return some (← get).engine.settings.toSection
  routes := pure Request.table
  handle := handle h
  close := do
    Player.shutdown h
    return .ok ()

/-- A player with the settings of its section and a watcher beside it. -/
def opened (value : Option Json.Value) : Player :=
  { Player.new (.ofSection value) with watched := true }

def descriptor : Descriptor Player ω where
  id := id
  name := title
  description := summary
  opening value := pure (.ok (opened value))

end Jukebox.Playback.Service
