import Jukebox.Audio.Converter
/-!
# The mixer

The mixer sums every stream that plays into the buffer of a device. A stream at another rate goes
through a converter. A stream of one channel is copied to every channel of the device, a stream of
several is averaged on a device of one; otherwise channels map one to one and missing ones stay
silent.

A stream that runs dry is asked again in the next mix, so a file that was rewound resumes.
-/
namespace Jukebox.Audio

structure Stream (σ κ α : Type) where
  source : σ
  channels : Nat
  /-- There is none if the source runs at the rate of the device. -/
  converter : Option (Converter κ α)
  playing : Bool
  /-- The last refill brought nothing. -/
  exhausted : Bool
  /-- Samples at the rate of the device, in the layout of the source. -/
  buffer : Array α
  /-- The samples before it are mixed. -/
  offset : Nat
  deriving Repr

/-- Frames asked of a source at once. -/
def readFrames : Nat := 1024

/-- What a frame adds to one channel of a device. -/
def mapChannel {α : Type} [Sample α] (frame : Frame α) (channel width : Nat) : α :=
  if frame.size = 1 then frame.getD 0 Sample.silence
  else if width = 1 then Sample.mean frame
  else frame.getD channel Sample.silence

variable {σ κ α : Type}

namespace Stream

def new (source : σ) (channels : Nat) (converter : Option (Converter κ α)) : Stream σ κ α :=
  ⟨source, channels, converter, false, false, #[], 0⟩

/-- Whether everything that the source had is mixed. -/
def isDrained (s : Stream σ κ α) : Bool :=
  s.exhausted && decide (s.buffer.size ≤ s.offset)

variable [Sample α] (r : Resampler κ α) (read : Source σ α)

def refill (s : Stream σ κ α) : Stream σ κ α :=
  match s.converter with
  | some c =>
    let ((got, c), source) := c.pull r read s.source
    { s with
      source, converter := some c, buffer := got, offset := 0, exhausted := got.isEmpty }
  | none =>
    let wanted := readFrames * s.channels
    let (answer, source) := read wanted s.source
    let got := answer.taken wanted s.channels
    { s with source, buffer := got, offset := 0, exhausted := got.isEmpty }

/-- Takes the next frame out of the buffer, which is refilled if it is used up. -/
def nextFrame (s : Stream σ κ α) : Option (Frame α) × Stream σ κ α :=
  let s := if s.buffer.size ≤ s.offset then s.refill r read else s
  if s.buffer.isEmpty then (none, s)
  else
    (some (s.buffer.extract s.offset (s.offset + s.channels)),
      { s with offset := s.offset + s.channels })

/-- Takes up to a number of frames, and stops where the source has nothing more right now. -/
def draw (s : Stream σ κ α) (count : Nat) (drawn : Array (Frame α)) :
    Array (Frame α) × Stream σ κ α :=
  match count with
  | 0 => (drawn, s)
  | count + 1 =>
    match s.nextFrame r read with
    | (none, s) => (drawn, s)
    | (some frame, s) => draw s count (drawn.push frame)

end Stream

/-- Adds frames to the buffer of a device, each to one frame of the device. The last frame of the
device may be cut short. -/
def overlay [Sample α] (channels : Nat) (out : Array α) (fs : Array (Frame α)) : Array α :=
  out.mapIdx fun i x =>
    match fs[i / channels]? with
    | none => x
    | some frame =>
      let width := min channels (out.size - i / channels * channels)
      Sample.add x (mapChannel frame (i % channels) width)

structure Mixer (σ κ α : Type) where
  rate : Nat
  channels : Nat
  /-- Number of the next stream. -/
  next : Nat
  streams : List (StreamId × Stream σ κ α)
  deriving Repr

namespace Mixer

/-- A mixer without streams. A device has a rate and a channel at least. -/
def new (rate channels : Nat) : Mixer σ κ α :=
  ⟨max rate 1, max channels 1, 1, []⟩

def stream? (m : Mixer σ κ α) (id : StreamId) : Option (Stream σ κ α) :=
  (m.streams.find? (·.1 = id)).map (·.2)

def update (m : Mixer σ κ α) (id : StreamId) (f : Stream σ κ α → Stream σ κ α) : Mixer σ κ α :=
  { m with streams := m.streams.map fun (i, s) => if i = id then (i, f s) else (i, s) }

/-- Registers a stream that does not play yet. A failure uses up no number. -/
def add (r : Resampler κ α) (m : Mixer σ κ α) (format : Format) (source : σ) :
    Except Fault (StreamId × Mixer σ κ α) := do
  let channels := max format.channels 1
  let converter ←
    if format.rate = m.rate then pure none
    else some <$> Converter.new r format.rate m.rate channels
  return (⟨m.next⟩,
    { m with
      next := m.next + 1
      streams := m.streams ++ [(⟨m.next⟩, .new source channels converter)] })

def setPlaying (m : Mixer σ κ α) (id : StreamId) (playing : Bool) : Mixer σ κ α :=
  m.update id fun s => { s with playing }

def remove (m : Mixer σ κ α) (id : StreamId) : Mixer σ κ α :=
  { m with streams := m.streams.filter (·.1 ≠ id) }

/-- Whether everything of a stream is mixed. A stream that is not registered counts as mixed. -/
def isDrained (m : Mixer σ κ α) (id : StreamId) : Bool :=
  (m.stream? id).all (·.isDrained)

def size (m : Mixer σ κ α) : Nat :=
  m.streams.length

variable [Sample α] (r : Resampler κ α) (read : Source σ α)

def mixStreams (channels : Nat) (out : Array α) :
    List (StreamId × Stream σ κ α) → Array α × List (StreamId × Stream σ κ α)
  | [] => (out, [])
  | (id, s) :: rest =>
    if s.playing then
      let (fs, s) := s.draw r read ((out.size + channels - 1) / channels) #[]
      let (out, rest) := mixStreams channels (overlay channels out fs) rest
      (out, (id, s) :: rest)
    else
      let (out, rest) := mixStreams channels out rest
      (out, (id, s) :: rest)

/-- Overwrites a buffer of the device with the mix of the streams that play. -/
def fill (m : Mixer σ κ α) (out : Array α) : Array α × Mixer σ κ α :=
  let (out, streams) := mixStreams r read m.channels (out.map fun _ => Sample.silence) m.streams
  (out, { m with streams })

/-- The mix of the streams that play in a new buffer of a number of samples. -/
def mix (m : Mixer σ κ α) (count : Nat) : Array α × Mixer σ κ α :=
  m.fill r read (Array.replicate count Sample.silence)

end Mixer

end Jukebox.Audio
