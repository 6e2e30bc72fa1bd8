import Jukebox.Audio.Stream
/-!
# Rate conversion

A converter pulls frames from a source, hands them to a resampler in chunks of fixed size and gives
out the frames that come back. The resampler answers late by its delay, so the first frames after a
start are dropped, and the tail is cut to the length that the frames handed in amount to.

When the source is dry, the rest and one empty chunk push the tail out of the resampler, which then
starts afresh. Until the source delivers again, a pull gives nothing.

The length that frames amount to is calculated in double precision. `Precision.round` is what a step
of such a calculation does to a result that is not negative and far from the least and the greatest
double: it keeps 53 significant bits, and of two numbers that are equally near the one whose last
bit is zero. The arithmetic is exact, so that one can reason about the results.
-/
namespace Jukebox.Audio.Precision

/-- The whole number nearest to a number, the even one of two. -/
def nearest (x : Rat) : Int :=
  let below := x.floor
  if x - below < 1 / 2 ∨ (x - below = 1 / 2 ∧ below % 2 = 0) then below else below + 1

/-- The exponent of the first bit of a positive number. -/
def leading (x : Rat) : Int :=
  let e : Int := (x.num.toNat.log2 : Int) - x.den.log2
  if x < 2 ^ e then e - 1 else e

/-- What the last of 53 bits counts. -/
def lastBit (x : Rat) : Rat :=
  2 ^ (leading x - 52)

/-- The double nearest to a number. -/
def round (x : Rat) : Rat :=
  if x ≤ 0 then 0 else nearest (x / lastBit x) * lastBit x

end Jukebox.Audio.Precision

namespace Jukebox.Audio

/-- One sample of each channel. -/
abbrev Frame (α : Type) := Array α

def frames {α : Type} (channels : Nat) (samples : Array α) : Array (Frame α) :=
  (Array.range (samples.size / channels)).map fun i =>
    samples.extract (i * channels) (i * channels + channels)

def interleave {α : Type} (fs : Array (Frame α)) : Array α :=
  fs.foldl (· ++ ·) #[]

/-- A resampler with its state `κ`, for one pair of rates and a number of channels. -/
structure Resampler (κ α : Type) where
  /-- A resampler from one rate to another, or why there is none. -/
  create : (input output channels : Nat) → Except String κ
  /-- Frames that the next chunk must have. -/
  needed : κ → Nat
  /-- Takes a full chunk. -/
  process : κ → Array (Frame α) → Option (Array (Frame α)) × κ
  /-- Takes a chunk that may be short, or nothing, and fills it up with silence. -/
  processPartial : κ → Option (Array (Frame α)) → Option (Array (Frame α)) × κ
  /-- Starts afresh. -/
  reset : κ → κ
  /-- Frames by which the output is late. -/
  delay : κ → Nat

def greatestCount : Nat := UInt64.size - 1

/-- The number of frames that a number of source frames amounts to at the other rate, calculated in
double precision and rounded up. Without a source rate some frames amount to any number. -/
def convertedLength (input output count : Nat) : Nat :=
  if input = 0 then if output = 0 ∨ count = 0 then 0 else greatestCount
  else
    let ratio := Precision.round ((output : Rat) / input)
    min (Precision.round (Precision.round count * ratio)).ceil.toNat greatestCount

structure Converter (κ α : Type) where
  resampler : κ
  input : Nat
  output : Nat
  channels : Nat
  /-- Samples that wait for a full chunk. -/
  pending : Array α
  /-- Leading frames still to drop. -/
  skip : Nat
  /-- Source frames handed in since the last start. -/
  framesIn : Nat
  /-- Frames given out since the last start. -/
  framesOut : Nat
  /-- The tail is out, and the source has been dry since. -/
  flushed : Bool
  deriving Repr

namespace Converter

variable {κ σ α : Type}

def new (r : Resampler κ α) (input output channels : Nat) : Except Fault (Converter κ α) :=
  match r.create input output channels with
  | .error reason => .error (.output ("Failed to create resampler: " ++ reason))
  | .ok k => .ok ⟨k, input, output, channels, #[], r.delay k, 0, 0, false⟩

/-- Gives out frames of the resampler, less those to drop and those past the length. -/
def emit (c : Converter κ α) (fs : Array (Frame α)) : Array α × Converter κ α :=
  let limit := convertedLength c.input c.output c.framesIn
  let kept := fs.extract c.skip (c.skip + (limit - c.framesOut))
  (interleave kept,
    { c with skip := c.skip - fs.size, framesOut := c.framesOut + kept.size })

def emitAnswer (c : Converter κ α) (answer : Option (Array (Frame α)) × κ) :
    Array α × Converter κ α :=
  match answer with
  | (some fs, k) => { c with resampler := k }.emit fs
  | (none, k) => (#[], { c with resampler := k })

section

variable [Sample α] (read : Source σ α)

/-- Reads until a chunk is full or the source gives no whole frame. -/
def fill (channels wanted : Nat) (pending : Array α) (s : σ) : Array α × σ :=
  if _full : pending.size < wanted then
    let (r, s) := read (wanted - pending.size) s
    let got := r.taken (wanted - pending.size) channels
    if _dry : got.size = 0 then (pending, s)
    else fill channels wanted (pending ++ got) s
  else (pending, s)
termination_by wanted - pending.size
decreasing_by
  simp +zetaDelta only [Array.size_append] at *
  omega

end

variable (r : Resampler κ α)

def convertChunk (c : Converter κ α) (wanted : Nat) : Array α × Converter κ α :=
  let chunk := frames c.channels (c.pending.extract 0 wanted)
  let c := { c with
    pending := c.pending.extract wanted c.pending.size
    framesIn := c.framesIn + wanted / c.channels
    flushed := false }
  c.emitAnswer (r.process c.resampler chunk)

/-- Pushes the rest and the tail out of the resampler and starts afresh. -/
def flush (c : Converter κ α) : Array α × Converter κ α :=
  let rest := frames c.channels c.pending
  let handed := if c.pending.isEmpty then none else some rest
  let c := { c with pending := #[], framesIn := c.framesIn + rest.size }
  let (head, c) := c.emitAnswer (r.processPartial c.resampler handed)
  let (tail, c) := c.emitAnswer (r.processPartial c.resampler none)
  let k := r.reset c.resampler
  (head ++ tail,
    { c with resampler := k, skip := r.delay k, framesIn := 0, framesOut := 0, flushed := true })

def pull [Sample α] (read : Source σ α) (c : Converter κ α) (s : σ) :
    (Array α × Converter κ α) × σ :=
  let wanted := r.needed c.resampler * c.channels
  let (pending, s) := fill read c.channels wanted c.pending s
  let c := { c with pending }
  if wanted ≤ pending.size then (c.convertChunk r wanted, s)
  else if c.flushed then ((#[], c), s)
  else (c.flush r, s)

end Converter

end Jukebox.Audio
