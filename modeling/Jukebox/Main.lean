import Jukebox.Terminal.Launch
import Std.Async.Signal
import Std.Http.Server
/-!
# The program on a machine

Everything that touches the machine is here: arguments and environment are read, requests are taken
from the network, the configuration file is read and written, texts are printed. What is done with
all that the library decides.

Requests are answered on a view of the file system that holds the configuration file as it is when
the request arrives, and no media. An answer that changed the file is sent after the file is
written.
-/
namespace Jukebox.Program

open Storage Terminal

def variableNames : List String :=
  ["HOME", "XDG_CONFIG_HOME"] ++ Flag.all.filterMap (·.variableName?)

def readEnvironment : IO Environment := do
  let values ← variableNames.mapM fun name => return (name, ← IO.getEnv name)
  return fun name => (values.lookup name).join

/-- The number of an error. Calls to the network give it negated, as a word. -/
def numberOf (word : UInt32) : Nat :=
  min word.toNat (Text.Numeral.halfBound - word.toNat)

def systemError : IO.Error → SystemError
  | .alreadyExists _ n _ | .otherError n _ | .resourceBusy n _ | .resourceVanished n _
  | .unsupportedOperation n _ | .hardwareFault n _ | .unsatisfiedConstraints n _
  | .illegalOperation n _ | .protocolError n _ | .timeExpired n _ | .interrupted _ n _
  | .noFileOrDirectory _ n _ | .invalidArgument _ n _ | .permissionDenied _ n _
  | .resourceExhausted _ n _ | .inappropriateType _ n _ | .noSuchThing _ n _ => .code (numberOf n)
  | .unexpectedEof | .userError _ => .code 5

/-- What is found at a path, if it can be read or is a directory. -/
def nodeAt? (path : Path) : IO (Option Node) := do
  try
    return some (.file (← IO.FS.readBinFile path.display).toList)
  catch e =>
    return if systemError e = .isDirectory then some .directory else none

/-- A view of the file system that holds what is found at some paths. -/
def view (paths : List Path) : IO FileSystem :=
  paths.foldlM (fun files path => do
    match ← nodeAt? path with
    | none => return files
    | some node =>
      let place : Disk Unit := do
        Disk.makeParents path
        Disk.makeNode path node
      return (place.run.run files).2) FileSystem.empty

/-- Does to the machine what an action does to a file system. -/
def perform : Config.Store.Action → IO Unit
  | .makeDirectories p => IO.FS.createDirAll p.display
  | .writeFile p content => IO.FS.writeBinFile p.display ⟨content.toArray⟩
  | .renameFile source target => IO.FS.rename source.display target.display

def writeStore (store : Config.Store) : IO Unit :=
  match store.path.fileName? with
  | some name => (store.saveActions name).forM perform
  | none => pure ()

structure Site where
  running : Std.Mutex Running

/-- Answers a request on the configuration file as it is now, and writes the file if the request
changed it. -/
def Site.answer (site : Site) (method target : String) (body : List UInt8) :
    IO Daemon.Wire :=
  site.running.atomically do
    let r ← get
    let before ← view [r.context.core.store.path]
    let (wire, r) := (r.withFiles before).answer method target body
    set r
    let store := r.context.core.store
    unless (before.content store.path).toOption = (r.files.content store.path).toOption do
      writeStore store
    return wire

def statusOf (wire : Daemon.Wire) : Std.Http.Status :=
  (Std.Http.Status.ofCode none wire.status.toUInt16).getD .internalServerError

def send (wire : Daemon.Wire) : Std.Async.Async (Std.Http.Response Std.Http.Body.Full) :=
  let head := Std.Http.Response.new.status (statusOf wire)
  let head := match wire.contentType with
    | some type => (head.header? "Content-Type" type).getD head
    | none => head
  return head.body (← Std.Http.Body.Full.ofString wire.body)

instance : Std.Http.Server.Handler Site where
  ResponseBody := Std.Http.Body.Full
  onRequest site request := do
    let body : ByteArray ← request.body.readAll
    let wire ← site.answer (toString request.line.method) (toString request.line.uri) body.toList
    send wire

/-- Returns when the program is told to end. -/
def awaitEnd : Std.Async.Async Unit := do
  let terminate ← Std.Async.Signal.Waiter.mk .sigterm false
  let interrupt ← Std.Async.Signal.Waiter.mk .sigint false
  Std.Async.Selectable.one
    #[.case terminate.selector fun _ => pure (), .case interrupt.selector fun _ => pure ()]

def anyAddress (port : UInt16) : Std.Net.SocketAddress :=
  .v4 ⟨.ofParts 0 0 0 0, port⟩

/-- Listens, or gives the reason why that fails. -/
def listen (site : Site) (port : UInt16) :
    Std.Async.Async (Except SystemError Std.Http.Server) := do
  try return .ok (← Std.Http.Server.serve (anyAddress port) site)
  catch e => return .error (systemError e)

/-- Closes the modules and writes the configuration file; a failed write is passed over. -/
def finish (r : Running) : IO Unit := do
  try writeStore r.close.context.core.store
  catch _ => pure ()

def serve (r : Running) : Std.Async.Async Exit := do
  let site := Site.mk (← Std.Mutex.new r)
  match ← listen site r.port with
  | .error e =>
    finish r
    return r.unboundExit e
  | .ok server =>
    site.running.atomically (modify Running.announce)
    awaitEnd
    server.shutdownAndWait
    finish (← site.running.atomically get)
    return Running.doneExit

/-- The program has no sound system. -/
def noDevice : Except String (Audio.Format × String) :=
  .error "No default output device found"

def run (arguments : List String) : IO Exit := do
  let environment ← readEnvironment
  match Arguments.read environment arguments with
  | .error stop => return stop.exit environment
  | .ok a =>
    let files ← view (places environment a).candidates
    (serve (Running.start environment a noDevice files)).block

end Jukebox.Program

/-- Runs the program, prints what it wrote and gives its exit code. -/
def main (arguments : List String) : IO UInt32 := do
  let exit ← Jukebox.Program.run arguments
  IO.print exit.output
  IO.eprint exit.errors
  return exit.code
