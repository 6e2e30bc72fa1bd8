import Jukebox.Audio.Interpolator
import Jukebox.Audio.Output
import Jukebox.Library.Embedded
import Jukebox.Playback.Host
/-!
# The player's host on local files

Files are opened from the file system, decoded on demand and registered with an output. The files
that were opened are kept by their number; an output that pulls from a stream reads the file of that
number.
-/
namespace Jukebox.Playback

open Audio Storage

structure Local where
  files : Array (Decoder Float32)
  output : Output FileId Interpolator Float32

namespace Local

def start (found : Except String (Format × String)) : Local :=
  ⟨#[], .openDefault found⟩

def file? (w : Local) (id : FileId) : Option (Decoder Float32) :=
  w.files[id.number]?

def kindOf : Node → Kind
  | .file _ => .file
  | .directory => .directory
  | _ => .other

def onOutput (f : Output FileId Interpolator Float32 → Output FileId Interpolator Float32) :
    StateM Local Unit :=
  modify fun w => { w with output := f w.output }

def contentOf (fs : FileSystem) (path : Path) : Except SystemError (Array UInt8) :=
  (fs.content path).map (·.toArray)

def host (fs : FileSystem) : Host Local where
  isFile path := pure (fs.isFile path)
  kindOf? path := pure ((fs.stat path).toOption.map kindOf)
  readDirectory path := pure (fs.readDirectory path)
  readTags path := pure (Library.readTags path (contentOf fs path) true)
  openFile path := do
    match Library.openMedia path (contentOf fs path) with
    | .error f => return .error f
    | .ok d =>
      let id := FileId.mk (← get).files.size
      modify fun w => { w with files := w.files.push d }
      return .ok (id, d.recording.format)
  statusOf id := do return ((← get).file? id).elim .ended (·.status)
  positionOf id := do return ((← get).file? id).elim 0 fun d => UInt64.ofNat d.position
  lengthOf id := do return ((← get).file? id).elim 0 fun d => UInt64.ofNat d.recording.length
  seek id seconds := do
    match (← get).file? id with
    | none => return .error (.notFound "file")
    | some d =>
      let (outcome, d) := d.seek seconds.toNat
      modify fun w => { w with files := w.files.setIfInBounds id.number d }
      return outcome
  addStream id format := do
    match (← get).output.add (Interpolator.resampler Float32) format id with
    | .error f => return .error f
    | .ok (stream, output) =>
      modify fun w => { w with output }
      return .ok stream
  playStream stream := onOutput (·.play stream)
  pauseStream stream := onOutput (·.pause stream)
  removeStream stream := onOutput (·.remove stream)
  isDrained stream := do return (← get).output.isDrained stream

end Local

end Jukebox.Playback
