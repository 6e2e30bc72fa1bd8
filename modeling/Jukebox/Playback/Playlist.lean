import Jukebox.Library.Media
import Jukebox.Playback.Refusal
import Jukebox.Storage.Path
/-!
# Playlists

An ordered list of entries with the index of the current one. Indices are positions: removing an
entry moves every later one down, and the current index moves with its entry. An entry keeps the
serial number it was given when it was added, by which it can be told from any other entry, also
from one of the same file.
-/
namespace Jukebox.Playback

structure Entry where
  path : Storage.Path
  tags : Option Library.Tags
  serial : Nat
  deriving DecidableEq, Repr

/-- A playlist. `issued` counts the serial numbers given so far. -/
structure Playlist where
  entries : List Entry
  current : Option Nat
  issued : Nat
  deriving DecidableEq, Repr

namespace Playlist

def empty : Playlist := ⟨[], none, 0⟩

def count (p : Playlist) : Nat := p.entries.length

def entry? (p : Playlist) (index : Nat) : Option Entry := p.entries[index]?

/-- The refusal of an index that no entry has. -/
def outOfRange (p : Playlist) (index : Nat) : Refusal :=
  .indexOutOfRange index p.count

def check (p : Playlist) (index : Nat) : Except Refusal Unit :=
  if index < p.count then .ok () else .error (p.outOfRange index)

def setCurrent (p : Playlist) (index : Option Nat) : Except Refusal Playlist :=
  match index with
  | none => .ok { p with current := none }
  | some i => (p.check i).map fun _ => { p with current := some i }

def clearCurrent (p : Playlist) : Playlist :=
  { p with current := none }

/-- The playlist with an entry added at the end, where its index is the old count. -/
def push (p : Playlist) (path : Storage.Path) (tags : Option Library.Tags) : Playlist :=
  { p with entries := p.entries ++ [⟨path, tags, p.issued⟩], issued := p.issued + 1 }

/-- The current index after an entry was removed. -/
def currentAfter (removed : Nat) : Option Nat → Option Nat
  | none => none
  | some c => if c = removed then none else if removed < c then some (c - 1) else some c

def erase (p : Playlist) (index : Nat) : Playlist :=
  { p with entries := p.entries.eraseIdx index, current := currentAfter index p.current }

/-- Removes the entry at an index and returns it. -/
def remove (p : Playlist) (index : Nat) : Except Refusal (Entry × Playlist) :=
  match p.entry? index with
  | some e => .ok (e, p.erase index)
  | none => .error (p.outOfRange index)

/-- The playlist without entries. Serial numbers go on. -/
def clear (p : Playlist) : Playlist :=
  { p with entries := [], current := none }

/-- The current index is the index of an entry. -/
def CurrentValid (p : Playlist) : Prop :=
  ∀ i, p.current = some i → i < p.count

/-- Serial numbers are in increasing order, hence different, and below the next one. -/
def SerialsValid (p : Playlist) : Prop :=
  (p.entries.Pairwise fun a b => a.serial < b.serial) ∧ ∀ e ∈ p.entries, e.serial < p.issued

end Playlist

end Jukebox.Playback
