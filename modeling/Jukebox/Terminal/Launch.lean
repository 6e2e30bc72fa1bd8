import Jukebox.Config.Location
import Jukebox.Daemon.Gateway
import Jukebox.Playback.Local
import Jukebox.Playback.Service
import Jukebox.Terminal.Arguments
/-!
# Starting and ending the program

The program reads the command line, chooses its configuration, opens its modules and listens. It
ends when it cannot listen or when it is told to; either way the modules are closed and the
configuration is saved. A port from the command line holds for one run and is not saved, and a
configuration that cannot be saved changes nothing about the end.

While it runs it announces its services on the network, by name. Publishing a name again replaces
its service. Services are listed in the order of their names.
-/
namespace Jukebox.Daemon

structure Service where
  name : String
  kind : String
  port : UInt16
  deriving DecidableEq, Repr

/-- The published services, in increasing order of their names. -/
abbrev Services := List Service

namespace Services

def publish (s : Service) : Services → Services
  | [] => [s]
  | t :: rest =>
    if s.name < t.name then s :: t :: rest
    else if s.name = t.name then s :: rest
    else t :: publish s rest

def unpublish (name : String) (services : Services) : Services :=
  services.filter fun s => s.name ≠ name

end Services

end Jukebox.Daemon

namespace Jukebox.Terminal

open Storage

structure Exit where
  code : UInt32
  output : String
  errors : String
  deriving DecidableEq, Repr

def Stop.exit (environment : Environment) : Stop → Exit
  | .help => ⟨0, helpText environment, ""⟩
  | .version => ⟨0, versionText, ""⟩
  | .misuse m => ⟨2, "", m.message⟩

def places (environment : Environment) (a : Arguments) : Config.Places where
  argument := a.config.map Path.ofString
  environment := environment "AIRCAT_CONFIG"
  configHome := (environment "XDG_CONFIG_HOME").map Path.ofString
  home := (environment "HOME").map Path.ofString

abbrev modules : Daemon.Surroundings Playback.Player Playback.Local Playback.Request :=
  fun fs => Playback.Service.interface (Playback.Local.host fs)

def serviceName : String := "AirCat"

def serviceKind : String := "_http._tcp"

structure Running where
  context : Daemon.Context Playback.Player Playback.Local Playback.Request
  services : Daemon.Services
  port : UInt16

namespace Running

/-- Chooses the configuration and opens the modules, on the device that the sound system finds. -/
def start (environment : Environment) (a : Arguments)
    (found : Except String (Audio.Format × String)) (fs : FileSystem) : Running :=
  let store := Config.Store.openAt fs ((places environment a).choose fs)
  let context :=
    Daemon.Context.build modules (fun _ => [Playback.Service.descriptor]) store fs (.start found)
  ⟨context, [], a.port.getD context.core.httpd.port⟩

def address (r : Running) : String :=
  "0.0.0.0:" ++ toString r.port

def announce (r : Running) : Running :=
  { r with services := r.services.publish ⟨serviceName, serviceKind, r.port⟩ }

def files (r : Running) : FileSystem :=
  r.context.core.files

def withFiles (r : Running) (files : FileSystem) : Running :=
  { r with context := { r.context with core := { r.context.core with files } } }

def answer (r : Running) (method target : String) (body : List UInt8) :
    Daemon.Wire × Running :=
  let (wire, context) := (Daemon.serve modules method target body).run r.context
  (wire, { r with context })

/-- Closes the modules and saves the configuration. -/
def close (r : Running) : Running :=
  let (_, core) := Daemon.Core.shutdown modules r.context.core
  { r with
    context := { r.context with core }
    services := r.services.unpublish serviceName }

def unboundExit (r : Running) (e : SystemError) : Exit :=
  ⟨1, "", "Error: Failed to bind to " ++ r.address ++ "\n\nCaused by:\n    " ++ e.message ++ "\n"⟩

def doneExit : Exit :=
  ⟨0, "", ""⟩

end Running

end Jukebox.Terminal
