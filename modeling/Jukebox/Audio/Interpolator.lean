import Jukebox.Audio.Converter
/-!
# The pace of a windowed-sinc interpolator

An interpolator with a filter of 256 taps that takes chunks of 1024 frames. It keeps the time of the
next output frame in source frames, measured from the start of the chunk at hand, and gives out
frames while that time is covered by the filter. Here the frames are counted and timed; they hold
silence.
-/
namespace Jukebox.Audio

/-- State of the interpolator: the step of time from one output frame to the next, and the time of
the last output frame. -/
structure Interpolator where
  channels : Nat
  ratio : Float
  last : Float

namespace Interpolator

def chunkFrames : Nat := 1024

def taps : Nat := 256

/-- Time of the last output frame before the first chunk. -/
def start : Float := -(Float.ofNat (taps / 2))

/-- Source frames from one output frame to the next. -/
def step (k : Interpolator) : Float :=
  1 / k.ratio

/-- Counts the output frames up to an end, and where the last one lies. -/
def advance (step finish : Float) : Nat → Nat → Float → Nat × Float
  | 0, count, time => (count, time)
  | fuel + 1, count, time =>
    if time < finish then advance step finish fuel (count + 1) (time + step)
    else (count, time)

/-- Gives out the frames that one more chunk allows. -/
def convert (α : Type) [Sample α] (k : Interpolator) : Array (Frame α) × Interpolator :=
  let finish := Float.ofNat (chunkFrames - (taps + 1)) - Float.ceil k.step
  let fuel := (Float.ceil ((finish - k.last) / k.step)).toUInt64.toNat + 2
  let (count, time) := advance k.step finish fuel 0 k.last
  (Array.replicate count (Array.replicate k.channels Sample.silence),
    { k with last := time - Float.ofNat chunkFrames })

def resampler (α : Type) [Sample α] : Resampler Interpolator α where
  create input output channels :=
    if output = 0 then .error "Invalid resample_ratio provided: 0. resample_ratio must be > 0"
    else .ok ⟨channels, Float.ofNat output / Float.ofNat input, start⟩
  needed _ := chunkFrames
  process k _ :=
    let (fs, k) := k.convert α
    (some fs, k)
  processPartial k _ :=
    let (fs, k) := k.convert α
    (some fs, k)
  reset k := { k with last := start }
  delay k := (Float.ofNat taps * k.ratio / 2).toUInt64.toNat

end Interpolator

end Jukebox.Audio
