import Jukebox.Audio.Stream
import Jukebox.Storage.Path
/-!
# Decoding a file on demand

A recording is what a file reader makes of a file: packets in order, each of one track, and places
where there is no packet to be had. A decoder takes the packets of its track one at a time, when the
samples of the last one are used up. A packet that cannot be decoded is passed over; one that the
codec gives up on, a place that cannot be read, and the end of the file are the end of the recording
until a seek.
-/
namespace Jukebox.Audio

inductive Content (α : Type) where
  | samples (s : Array α)
  /-- The packet is damaged. The next one may be well. -/
  | damaged
  /-- The codec gives up. -/
  | fatal
  deriving Repr

structure Packet (α : Type) where
  track : Nat
  frames : Nat
  content : Content α
  deriving Repr

/-- What a reader meets on its way through a file. -/
inductive Piece (α : Type) where
  | packet (p : Packet α)
  /-- A place that the reader cannot make sense of. Behind it, it may find its way again. -/
  | unreadable
  /-- A packet of so many frames that the end of the file cuts short. -/
  | cutShort (frames : Nat)
  deriving Repr

structure Cursor (α : Type) where
  frame : Nat
  rest : List (Piece α)

structure Recording (α : Type) where
  format : Format
  /-- Length in seconds, or zero if it is not known. -/
  length : Nat
  /-- The track that is played. -/
  track : Nat
  pieces : List (Piece α)
  /-- Takes the reader from where it stands to the packet that holds a frame. A seek that fails says
  why, and may leave the reader in another place. -/
  seek : Nat → Cursor α → Except String Unit × Cursor α

structure Decoder (α : Type) where
  path : Storage.Path
  recording : Recording α
  cursor : Cursor α
  /-- Samples of the last packet. -/
  pending : Array α
  /-- The samples before it are given out. -/
  offset : Nat
  /-- Frames given out, counted from the start of the file. -/
  framesRead : Nat
  status : FileStatus

variable {α : Type}

inductive Advance (α : Type) where
  | samples (s : Array α) (next : Cursor α)
  | stopped (status : FileStatus) (next : Cursor α)

/-- Reads on to the next packet of a track that gives samples. -/
def advance (track frame : Nat) : List (Piece α) → Advance α
  | [] => .stopped .ended ⟨frame, []⟩
  | .unreadable :: rest => .stopped .failed ⟨frame, rest⟩
  | .cutShort frames :: rest => .stopped .ended ⟨frame + frames, rest⟩
  | .packet p :: rest =>
    let next := frame + p.frames
    if p.track = track then
      match p.content with
      | .samples s => .samples s ⟨next, rest⟩
      | .damaged => advance track next rest
      | .fatal => .stopped .failed ⟨next, rest⟩
    else advance track next rest

theorem length_lt_of_advance {track frame : Nat} {ps : List (Piece α)} {next : Cursor α}
    {s : Array α} (h : advance track frame ps = .samples s next) :
    next.rest.length < ps.length := by
  induction ps generalizing frame with
  | nil => simp [advance] at h
  | cons p ps ih =>
    cases p with
    | unreadable => simp [advance] at h
    | cutShort frames => simp [advance] at h
    | packet p =>
      rw [advance] at h
      split at h
      · split at h
        · injection h with _ h
          simp [← h]
        · exact Nat.lt_succ_of_lt (ih h)
        · cases h
      · exact Nat.lt_succ_of_lt (ih h)

namespace Decoder

def start (path : Storage.Path) (r : Recording α) : Decoder α :=
  ⟨path, r, ⟨0, r.pieces⟩, #[], 0, 0, .playing⟩

def takePending (d : Decoder α) (wanted : Nat) : Array α × Decoder α :=
  let got := d.pending.extract d.offset (d.offset + wanted)
  (got, { d with offset := d.offset + got.size })

/-- Gives out samples until enough are collected or there are no more. -/
def collect (d : Decoder α) (wanted : Nat) (collected : Array α) : Array α × Decoder α :=
  let (got, taken) := d.takePending (wanted - collected.size)
  let collected := collected ++ got
  if wanted ≤ collected.size ∨ d.status ≠ .playing then (collected, taken)
  else
    match _ahead : advance d.recording.track d.cursor.frame d.cursor.rest with
    | .stopped status cursor => (collected, { taken with status, cursor })
    | .samples s cursor =>
      collect { taken with pending := s, offset := 0, cursor } wanted collected
termination_by d.cursor.rest.length
decreasing_by exact length_lt_of_advance _ahead

/-- Gives out the next samples. Fewer than were wanted are all there are. -/
def read (d : Decoder α) (wanted : Nat) : Array α × Decoder α :=
  let (samples, d) := d.collect wanted #[]
  (samples, { d with
    framesRead := d.framesRead + samples.size / max d.recording.format.channels 1 })

def position (d : Decoder α) : Nat :=
  d.framesRead / max d.recording.format.rate 1

/-- Goes to a position in seconds. The position counts from there, while reading goes on at the
start of the packet that holds it. A seek beyond the length changes nothing; one that the reader
fails at leaves the samples at hand, the position and the status, and may move the reader. -/
def seek (d : Decoder α) (seconds : Nat) : Except Fault Unit × Decoder α :=
  if 0 < d.recording.length ∧ d.recording.length < seconds then
    (.error (.invalidInput ("Position " ++ toString seconds ++ "s beyond length " ++
      toString d.recording.length ++ "s")), d)
  else
    let target := seconds * d.recording.format.rate
    match d.recording.seek target d.cursor with
    | (.error reason, cursor) => (.error (.media ("Seek failed: " ++ reason)), { d with cursor })
    | (.ok _, cursor) =>
      (.ok (), { d with
        cursor
        pending := #[]
        offset := 0
        framesRead := target
        status := .playing })

def source : Source (Decoder α) α := fun wanted d =>
  let (samples, d) := d.read wanted
  (⟨samples, samples.size⟩, d)

end Decoder

end Jukebox.Audio
