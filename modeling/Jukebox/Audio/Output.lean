import Jukebox.Audio.Mixer
/-!
# The output

An output is a mixer, with a device that pulls from it or without one. An output without a device
takes streams but never plays them out. Whether there is a device is told from outside.
-/
namespace Jukebox.Audio

structure Output (σ κ α : Type) where
  mixer : Mixer σ κ α
  deviceName : Option String
  deriving Repr

namespace Output

variable {σ κ α : Type}

/-- Rate and layout of an output without a device. -/
def preferred : Format := ⟨44100, 2⟩

def null : Output σ κ α :=
  ⟨.new preferred.rate preferred.channels, none⟩

/-- Opens the default device. What the sound system finds is the layout and the name of a device that
plays, or why there is none. -/
def openDevice (found : Except String (Format × String)) : Except Fault (Output σ κ α) :=
  match found with
  | .ok (format, name) => .ok ⟨.new format.rate format.channels, some name⟩
  | .error reason => .error (.output reason)

/-- The output on the default device, or the one without a device. -/
def openDefault (found : Except String (Format × String)) : Output σ κ α :=
  match openDevice found with
  | .ok out => out
  | .error _ => null

/-- Registers a stream that does not play yet. A stream without a rate or without channels is
refused. -/
def add (r : Resampler κ α) (out : Output σ κ α) (format : Format) (source : σ) :
    Except Fault (StreamId × Output σ κ α) := do
  if format.rate = 0 ∨ format.channels = 0 then
    throw (.output ("Unsupported stream format: " ++ toString format.rate ++ " Hz, " ++
      toString format.channels ++ " channels"))
  let (id, mixer) ← out.mixer.add r format source
  return (id, { out with mixer })

def play (out : Output σ κ α) (id : StreamId) : Output σ κ α :=
  { out with mixer := out.mixer.setPlaying id true }

def pause (out : Output σ κ α) (id : StreamId) : Output σ κ α :=
  { out with mixer := out.mixer.setPlaying id false }

def remove (out : Output σ κ α) (id : StreamId) : Output σ κ α :=
  { out with mixer := out.mixer.remove id }

def isDrained (out : Output σ κ α) (id : StreamId) : Bool :=
  out.mixer.isDrained id

def size (out : Output σ κ α) : Nat :=
  out.mixer.size

def mix [Sample α] (r : Resampler κ α) (read : Source σ α) (out : Output σ κ α) (count : Nat) :
    Array α × Output σ κ α :=
  let (samples, mixer) := out.mixer.mix r read count
  (samples, { out with mixer })

end Output

end Jukebox.Audio
