import Jukebox.Proofs.Playback.Run
/-!
# What commands do to the entries

Only additions, removals and flushes change the entries of a playlist. Whatever else a section does,
playback moves from entry to entry and leaves them as they are.
-/
namespace Jukebox.Playback

def Command.edit (p : Playlist) : Command → Playlist
  | .add path tags => p.push path tags
  | .remove index => p.erase index
  | .flush => p.clear
  | _ => p

structure Playlist.SameEntries (p q : Playlist) : Prop where
  entries : p.entries = q.entries
  issued : p.issued = q.issued

namespace Playlist.SameEntries

variable {p q r : Playlist}

theorem refl (p : Playlist) : SameEntries p p := ⟨rfl, rfl⟩

theorem trans (first : SameEntries p q) (second : SameEntries q r) : SameEntries p r :=
  ⟨first.entries.trans second.entries, first.issued.trans second.issued⟩

theorem entry_eq (same : SameEntries p q) (i : Nat) : p.entry? i = q.entry? i := by
  unfold entry?
  rw [same.entries]

end Playlist.SameEntries

namespace Engine

open Playlist (SameEntries)

variable {e e' : Engine} {made : List Call}

theorem Starts.entries {index : Nat} {r : Except Refusal Unit} (start : e.Starts index r e' made) :
    SameEntries e'.playlist e.playlist := by
  cases start <;> exact ⟨rfl, rfl⟩

theorem Scans.entries {indices : List Nat} (scan : e.Scans indices e' made) :
    SameEntries e'.playlist e.playlist := by
  induction scan with
  | exhausted => exact .refl _
  | passed start _ ih => exact ih
  | found start => exact start.entries

theorem Advances.entries {d : Direction} {keep : Bool} (advance : e.Advances d keep e' made) :
    SameEntries e'.playlist e.playlist := by
  cases advance with
  | idle no => exact .refl _
  | moved here scan => exact scan.entries.trans ⟨rfl, rfl⟩

theorem Reclaims.entries (reclaim : e.Reclaims e' made) : SameEntries e'.playlist e.playlist := by
  cases reclaim <;> exact ⟨rfl, rfl⟩

theorem Ticks.entries {moved : Bool} (tick : e.Ticks moved e' made) :
    SameEntries e'.playlist e.playlist := by
  cases tick with
  | idle reclaim no => exact reclaim.entries
  | playing reclaim there => exact reclaim.entries
  | finished reclaim there ended advance => exact advance.entries.trans reclaim.entries

end Engine

/-- Every command changes the entries as it says, and no more. -/
theorem Effect.entries {e e' : Engine} {c : Command} {r : Except Refusal Unit} {made : List Call}
    (effect : Effect e c r e' made) : Playlist.SameEntries e'.playlist (c.edit e.playlist) := by
  cases effect with
  | add path tags => exact ⟨rfl, rfl⟩
  | remove removes =>
    cases removes with
    | absent outside => exact ⟨(List.eraseIdx_of_length_le outside).symm, rfl⟩
    | current inside here => exact ⟨rfl, rfl⟩
    | other inside elsewhere => exact ⟨rfl, rfl⟩
  | flush => exact ⟨rfl, rfl⟩
  | play plays =>
    cases plays with
    | refused no => exact ⟨rfl, rfl⟩
    | tried target start => exact start.entries.trans ⟨rfl, rfl⟩
  | togglePause toggles => cases toggles <;> exact ⟨rfl, rfl⟩
  | stop => exact ⟨rfl, rfl⟩
  | next advances => exact advances.entries
  | prev advances => exact advances.entries
  | seekNothing secs no => exact ⟨rfl, rfl⟩
  | seek secs r there => exact ⟨rfl, rfl⟩
  | setSettings settings => exact ⟨rfl, rfl⟩
  | tick ticks => exact ticks.entries
  | status picture => exact ⟨rfl, rfl⟩
  | look => exact ⟨rfl, rfl⟩

end Jukebox.Playback
