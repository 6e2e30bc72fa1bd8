import Jukebox.Fault
/-!
# Streams of samples

The words that files, converters, the mixer and the output share: numbers of streams, the shape of
a stream, samples that can be mixed, and what a read of a source brings.

A tape is a source that holds its samples. It may give them in pieces and may claim another count
than it gave, as a source at fault does.
-/
namespace Jukebox.Audio

structure StreamId where
  number : Nat
  deriving DecidableEq, Repr

def StreamId.label (s : StreamId) : String :=
  "stream#" ++ toString s.number

structure Format where
  rate : Nat
  channels : Nat
  deriving DecidableEq, Repr

inductive FileStatus where
  | playing | ended | failed
  deriving DecidableEq, Repr

class Sample (α : Type) where
  silence : α
  add : α → α → α
  /-- The mean of the samples of a frame. -/
  mean : Array α → α

instance : Sample Float32 where
  silence := 0
  add := (· + ·)
  mean frame := frame.foldl (· + ·) 0 / Float32.ofNat frame.size

/-- The largest part of a count of samples that is made of whole frames. -/
def wholeFrames (channels count : Nat) : Nat :=
  count - count % channels

/-- What a source did when it was asked for samples: it put some at the front of the buffer it was
given, and claimed a count. -/
structure Reading (α : Type) where
  samples : Array α
  count : Nat
  deriving Repr

namespace Reading

variable {α : Type} [Sample α]

/-- The buffer after the read. Where the source put nothing there is silence. -/
def buffer (r : Reading α) (wanted : Nat) : Array α :=
  let put := r.samples.extract 0 wanted
  put ++ Array.replicate (wanted - put.size) Sample.silence

/-- The samples that count as read: no more than were asked for, and whole frames only. -/
def taken (r : Reading α) (wanted channels : Nat) : Array α :=
  (r.buffer wanted).extract 0 (wholeFrames channels (min r.count wanted))

end Reading

/-- A source of samples with its state. It is told how many samples are wanted. -/
abbrev Source (σ α : Type) := Nat → σ → Reading α × σ

structure Tape (α : Type) where
  samples : Array α
  /-- Most samples of one read. -/
  most : Option Nat
  /-- What is added to the count of samples given. -/
  excess : Int
  deriving Repr

namespace Tape

variable {α : Type}

/-- Gives the next samples. An empty tape claims nothing. -/
def read : Source (Tape α) α := fun wanted t =>
  if t.samples.isEmpty then (⟨#[], 0⟩, t)
  else
    let given := t.samples.extract 0 (min wanted (t.most.getD wanted))
    (⟨given, (given.size + t.excess).toNat⟩,
      { t with samples := t.samples.extract given.size t.samples.size })

def append (t : Tape α) (more : Array α) : Tape α :=
  { t with samples := t.samples ++ more }

end Tape

end Jukebox.Audio
