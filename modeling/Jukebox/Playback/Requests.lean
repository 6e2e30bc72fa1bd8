import Jukebox.Http.Dispatcher
import Jukebox.Playback.Client
import Jukebox.Text.Numeral
/-!
# The player's URL table

Each route of the player stands for one request. `Request.operation` gives the operation of clients
that a request means and the response its result is reported with. Refusals about files are reported
in general words, so clients learn nothing of the file system.
-/
namespace Jukebox.Playback

open Http (Response Route)

inductive Request where
  | addEntry | playEntry | removeEntry | flush | playlist
  | play | pause | stop | prev | next | seek
  | status | list
  deriving DecidableEq, Repr

namespace Request

def table : List (Route Request) :=
  [ .make "playlist/add" true false [.put] .addEntry
  , .make "playlist/play" true false [.put] .playEntry
  , .make "playlist/remove" true false [.put] .removeEntry
  , .make "playlist/flush" false false [.put] .flush
  , .make "playlist" false false [.get] .playlist
  , .make "play" true false [.put] .play
  , .make "pause" false false [.put] .pause
  , .make "stop" false false [.put] .stop
  , .make "prev" false false [.put] .prev
  , .make "next" false false [.put] .next
  , .make "seek" true false [.put] .seek
  , .make "status" true false [.get] .status
  , .make "list" true false [.get] .list ]

/-- The index that a resource means; none given means the first entry. -/
def index? (resource : String) : Option Nat :=
  let t := Text.trimSlashes resource
  if t = "" then some 0 else Text.Numeral.parse? Text.Numeral.wordBound t

def position? (resource : String) : Option UInt64 :=
  (Text.Numeral.parse? Text.Numeral.wordBound (Text.trimSlashes resource)).map UInt64.ofNat

def wantsPicture (resource : String) : Bool :=
  resource.toList.take 3 = ['i', 'm', 'g']

def report {α : Type} : Except Refusal α → Response
  | .ok _ => .ok
  | .error r => r.response

def addRefused : Refusal → Response
  | .invalidPath p => (Refusal.invalidPath p).response
  | _ => .text 406 "File is not supported"

def reportPlay : Except PlayFailure Unit → Response
  | .ok () => .ok
  | .error (.notAdded r) => addRefused r
  | .error (.notPlayed (.resourceOpen _ _)) => .text 406 "Cannot play the file"
  | .error (.notPlayed r) => r.response

def reportSeek : Except Refusal Unit → Response
  | .ok () => .ok
  | .error .nothingPlaying => Refusal.nothingPlaying.response
  | .error _ => .text 400 "Bad position"

def reportList : Except Refusal Library.Listing → Response
  | .ok l => .json 200 l.toJson
  | .error (.invalidPath p) => (Refusal.invalidPath p).response
  | .error _ => .text 404 "Bad directory"

def playlistJson (views : List Library.FileView) : Json.Value :=
  .array (views.map (·.toJson))

variable {ω : Type} (h : Host ω)

/-- The operation that a request means, with its response. -/
def operation (r : Request) (resource : String) : Operation ω Response :=
  match r with
  | .addEntry =>
    (Operation.add h resource).map fun
      | .ok _ => .ok
      | .error e => addRefused e
  | .playEntry =>
    match index? resource with
    | none => .done (.text 400 "Bad index")
    | some i => (Operation.lone (Engine.play h (some i))).map report
  | .removeEntry =>
    match index? resource with
    | none => .done (.text 400 "Bad index")
    | some i => (Operation.lone (Engine.remove h i)).map report
  | .flush => (Operation.lone (Engine.flush h)).map fun _ => .ok
  | .playlist =>
    (Operation.lone (do return (← get).playlistView)).map fun views =>
      .json 200 (playlistJson views)
  | .play =>
    (Operation.playFile h (if resource = "" then none else some resource)).map reportPlay
  | .pause => (Operation.lone (Engine.togglePause h)).map fun _ => .ok
  | .stop => (Operation.lone (Engine.stop h)).map fun _ => .ok
  | .prev => (Operation.lone (Engine.prev h)).map fun _ => .ok
  | .next => (Operation.lone (Engine.next h)).map fun _ => .ok
  | .seek =>
    match position? resource with
    | none => .done (.text 400 "Bad position")
    | some secs => (Operation.lone (Engine.seek h secs)).map reportSeek
  | .status =>
    (Operation.lone (Engine.status h (wantsPicture resource))).map fun s => .json 200 s.toJson
  | .list => (Operation.list h resource).map reportList

end Request

end Jukebox.Playback
