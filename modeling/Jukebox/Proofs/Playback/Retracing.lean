import Jukebox.Proofs.Playback.Edits
import Jukebox.Proofs.Playback.Neighbours
/-!
# There and back

The scans of `next` and `prev` are two computations: one runs up to the end of the playlist, the
other down to its first entry. Where each file either opens or does not, both stop at the nearest
entry that opens. Nothing between an entry and its nearest openable neighbour opens, and this is so
from either side. So the way back ends where the way there began, since the entry there was opened
before.
-/
namespace Jukebox.Playback

open Storage (Path)

def Direction.opposite : Direction → Direction
  | .forward => .backward
  | .backward => .forward

/-- Every try has the outcome that its file is given. -/
def Consistent (opens : Path → Bool) (calls : List Call) : Prop :=
  ∀ a ∈ tries calls, opens a.1 = a.2

/-- Two playlists with the same entries differ in nothing else if their current indices agree. -/
theorem Playlist.SameEntries.eq_of_current {p q : Playlist} (same : SameEntries p q)
    (index : p.current = q.current) : p = q := by
  obtain ⟨entries, current, issued⟩ := p
  obtain ⟨rfl, rfl⟩ := same
  cases index
  rfl

section Nearest

variable {p : Nat → Bool} {i j count : Nat}

/-- The first hit on the way up lies above, with no other one between. -/
theorem Direction.find?_forward :
    (Direction.forward.ahead i count).find? p = some j ↔
      p j = true ∧ (i < j ∧ j < count) ∧ ∀ k, i < k → k < j → p k = false := by
  rw [ahead, List.Ico, List.find?_range'_eq_some]
  simp only [List.mem_range'_1, Bool.not_eq_true', Nat.succ_le_iff]
  refine and_congr_right fun _ => and_congr_left fun _ => and_congr_right fun _ => ?_
  omega

/-- The first hit on the way down lies below, with no other one between. -/
theorem Direction.find?_backward :
    (Direction.backward.ahead i count).find? p = some j ↔
      p j = true ∧ j < i ∧ ∀ k, j < k → k < i → p k = false := by
  rw [ahead]
  induction i with
  | zero => exact ⟨nofun, fun found => absurd found.2.1 (Nat.not_lt_zero j)⟩
  | succ n ih =>
    rw [List.range_succ, List.reverse_concat]
    cases hit : p n with
    | true =>
      rw [List.find?_cons_of_pos hit]
      refine ⟨?_, fun ⟨_, below, between⟩ => congrArg some ?_⟩
      · rintro ⟨⟩
        exact ⟨hit, Nat.lt_succ_self j, fun k above under => absurd under (Nat.not_lt.mpr above)⟩
      · by_contra apart
        have last : p n = false := between n (by omega) (Nat.lt_succ_self n)
        rw [hit] at last
        cases last
    | false =>
      rw [List.find?_cons_of_neg (by rw [hit]; exact Bool.false_ne_true), ih]
      refine and_congr_right fun at_j => ?_
      have apart : j ≠ n := by
        rintro rfl
        rw [hit] at at_j
        cases at_j
      constructor
      · rintro ⟨below, between⟩
        refine ⟨Nat.lt_succ_of_lt below, fun k above under => ?_⟩
        rcases Nat.lt_succ_iff_lt_or_eq.mp under with within | rfl
        · exact between k above within
        · exact hit
      · rintro ⟨below, between⟩
        exact ⟨by omega, fun k above under => between k above (Nat.lt_succ_of_lt under)⟩

/-- The nearest hit of the nearest hit is where one started. -/
theorem Direction.find?_back (d : Direction) (inside : i < count) (hit : p i = true)
    (found : (d.ahead i count).find? p = some j) :
    (d.opposite.ahead j count).find? p = some i := by
  cases d with
  | forward =>
    obtain ⟨-, ⟨above, -⟩, between⟩ := find?_forward.mp found
    exact find?_backward.mpr ⟨hit, above, between⟩
  | backward =>
    obtain ⟨-, below, between⟩ := find?_backward.mp found
    exact find?_forward.mpr ⟨hit, ⟨below, inside⟩, between⟩

end Nearest

section Answered

variable {opens : Path → Bool} {entries : List Entry} {indices : List Nat} {e' : Engine}
  {calls made : List Call}

/-- Calls before do not take a try away. -/
theorem mem_tries_append {a : Path × Bool} (tried : a ∈ tries made) :
    a ∈ tries (calls ++ made) := by
  induction calls with
  | nil => exact tried
  | cons c rest ih =>
    cases c
    case opened p file => exact List.mem_cons_of_mem _ ih
    all_goals exact ih

/-- The file of a session was tried and opened. -/
theorem OpenedFor.answered {entry : Entry} {s : Session} (opened : OpenedFor calls entry s)
    (consistent : Consistent opens calls) : opens entry.path = true := by
  obtain ⟨before, after, rfl⟩ := opened
  rw [List.append_assoc] at consistent
  exact consistent (entry.path, true) (mem_tries_append List.mem_cons_self)

/-- What was tried in vain does not open. -/
theorem shut_of_misses (answered : ∀ a ∈ misses entries indices, opens a.1 = a.2) :
    ∀ k ∈ indices, openable opens entries k = false := by
  intro k there
  cases here : entries[k]? with
  | none => rw [openable, here]; rfl
  | some entry =>
    rw [openable_of_entry here]
    refine answered (entry.path, false) (List.mem_filterMap.mpr ⟨k, there, ?_⟩)
    rw [trial?, here]
    rfl

/-- Tries in an order come to the first entry that opens, or to none. -/
theorem Explored.nearest (explored : Explored entries indices e' made)
    (consistent : Consistent opens made) :
    e'.playlist.current = indices.find? (openable opens entries) := by
  cases explored with
  | @found before after j entry s split here tried added opened same index current plays =>
    have answered := consistent
    rw [Consistent, tried] at answered
    have shut := shut_of_misses fun a there => answered a (List.mem_append_left _ there)
    have none_before : before.find? (openable opens entries) = none :=
      List.find?_eq_none.mpr fun k there => by simp [shut k there]
    have hit : openable opens entries j = true :=
      (openable_of_entry here).trans (OpenedFor.answered opened consistent)
    rw [index, split, List.find?_append, none_before, List.find?_cons_of_pos hit]
    rfl
  | exhausted tried added index current halted =>
    rw [Consistent, tried] at consistent
    rw [index, eq_comm, List.find?_eq_none]
    exact fun k there => by simp [shut_of_misses consistent k there]

/-- What is left behind where an entry was found. -/
theorem Explored.at_entry {i : Nat} (explored : Explored entries indices e' made)
    (index : e'.playlist.current = some i) :
    e'.state = .playing ∧
      ∃ s entry, e'.current = some s ∧ entries[i]? = some entry ∧ s.serial = entry.serial := by
  cases explored with
  | found split here tried added opened same landed current plays =>
    cases landed.symm.trans index
    exact ⟨plays, _, _, current, here, same⟩
  | exhausted tried added no current halted =>
    rw [index] at no
    cases no

end Answered

variable {ω : Type} {h : Host ω} {settings : Config.Music} {opens : Path → Bool}
  {e e' e'' : Engine} {turns : List Turn} {t t' : Turn} {d : Direction} {i : Nat}

/-- The entry that a run leaves current opens. -/
theorem Coherent.opens_current {calls : List Call} (coh : Coherent calls e)
    (consistent : Consistent opens calls) (index : e.playlist.current = some i) :
    openable opens e.playlist.entries i = true := by
  obtain ⟨s, entry, current, here, same, opened⟩ := coh.linked i index
  exact (openable_of_entry here).trans (OpenedFor.answered opened consistent)

/-- Moving on leaves the entries and comes to the nearest one that opens. -/
theorem Effect.nearest (effect : Effect e t.command t.result e' t.calls)
    (moves : t.Moves d false) (consistent : Consistent opens t.calls)
    (index : e.playlist.current = some i) (inside : i < e.playlist.count) :
    Playlist.SameEntries e'.playlist e.playlist ∧
      e'.playlist.current =
        (d.ahead i e.playlist.count).find? (openable opens e.playlist.entries) := by
  obtain ⟨_, explored, _⟩ := effect.explored moves index inside
  refine ⟨?_, explored.nearest consistent⟩
  have entries := effect.entries
  cases moves with
  | next named => rwa [named] at entries
  | prev named => rwa [named] at entries

/-- In every state that a new engine can reach: if `next` comes to an entry, then `prev` comes back
to where it left from, and the other way round. Whatever lies between and does not open is passed
over on both ways. The playlist is as it was, the session is again one for the same entry, and it
plays. Each file opens always or never, as every try on record shows. -/
theorem Run.retraces (run : Run h (.new settings) turns e) (there : Takes h e t e')
    (back : Takes h e' t' e'') (goes : t.Moves d false) (returns : t'.Moves d.opposite false)
    (consistent : ∀ calls ∈ [callsOf turns, t.calls, t'.calls], Consistent opens calls)
    (index : e.playlist.current = some i) (lands : e'.state ≠ .stopped) :
    (∃ j ∈ d.ahead i e.playlist.count, e'.playlist.current = some j) ∧
    e''.playlist = e.playlist ∧
    e''.current.map Session.serial = e.current.map Session.serial ∧
    e''.state = .playing ∧ e''.previous = none := by
  have coh := run.coherent
  have coh' := (run.turn there).coherent
  have inside := coh.current_valid i index
  have open_there := coh.opens_current (consistent _ (by simp)) index
  obtain ⟨same, nearest⟩ := there.effect.nearest goes (consistent _ (by simp)) index inside
  obtain ⟨j, landed⟩ := coh'.index_iff.mpr (Engine.state_ne_stopped_iff.mp lands)
  have inside' := coh'.current_valid j landed
  obtain ⟨same', nearest'⟩ := back.effect.nearest returns (consistent _ (by simp)) landed inside'
  have found := nearest.symm.trans landed
  have count : e'.playlist.count = e.playlist.count := congrArg List.length same.entries
  -- seen from the entry that was found, the nearest one that opens is the old one
  have returned : e''.playlist.current = some i := by
    rw [nearest', same.entries, count]
    exact d.find?_back inside open_there found
  obtain ⟨_, explored, previous⟩ := back.effect.explored returns landed inside'
  obtain ⟨plays, s, entry, current, here, serial⟩ := explored.at_entry returned
  obtain ⟨s₀, entry₀, current₀, here₀, serial₀, _⟩ := coh.linked i index
  have one_entry : entry = entry₀ := by
    rw [same.entries] at here
    exact Option.some.inj (here.symm.trans here₀)
  have restored := (same'.trans same).eq_of_current (returned.trans index.symm)
  refine ⟨⟨j, List.mem_of_find?_eq_some found, landed⟩, restored, ?_, plays, previous⟩
  rw [current, current₀, Option.map_some, Option.map_some, serial, one_entry, serial₀]

section Gap

/-- The first of three entries is played; the second does not open. -/
def gapPlayed : List Turn × Engine :=
  rehearse [(.add (.ofString "a.mp3") none, creaking 0 .playing),
    (.add (.ofString "b.mp3") none, creaking 0 .playing),
    (.add (.ofString "c.mp3") none, creaking 0 .playing),
    (.play (some 0), creaking 0 .playing)]

def gapCrossed : Turn × Engine := act .rehearsed .next (creaking 1 .playing) gapPlayed.2

def gapReturned : Turn × Engine := act .rehearsed .prev (creaking 2 .playing) gapCrossed.2

def gapCrossedAgain : Turn × Engine := act .rehearsed .next (creaking 3 .playing) gapReturned.2

theorem gap_retraces :
    gapPlayed.2.playlist.current = some 0 ∧ gapCrossed.2.playlist.current = some 2 ∧
    gapReturned.2.playlist = gapPlayed.2.playlist ∧ gapReturned.2.state = .playing ∧
    gapCrossedAgain.2.playlist = gapCrossed.2.playlist ∧ gapCrossedAgain.2.state = .playing := by
  have played : Run .rehearsed (.new .default) gapPlayed.1 gapPlayed.2 := rehearse_run _
  have crosses : Takes .rehearsed gapPlayed.2 gapCrossed.1 gapCrossed.2 := act_takes ..
  have returns : Takes .rehearsed gapCrossed.2 gapReturned.1 gapReturned.2 := act_takes ..
  have again : Takes .rehearsed gapReturned.2 gapCrossedAgain.1 gapCrossedAgain.2 := act_takes ..
  have consistent : ∀ calls ∈ [callsOf gapPlayed.1, gapCrossed.1.calls, gapReturned.1.calls],
      Consistent (· ≠ .ofString "b.mp3") calls := by
    unfold Consistent
    decide +kernel
  have consistent_again : ∀ calls ∈ [callsOf (gapPlayed.1 ++ [gapCrossed.1]), gapReturned.1.calls,
      gapCrossedAgain.1.calls], Consistent (· ≠ .ofString "b.mp3") calls := by
    unfold Consistent
    decide +kernel
  have first : gapPlayed.2.playlist.current = some 0 := by decide +kernel
  have third : gapCrossed.2.playlist.current = some 2 := by decide +kernel
  obtain ⟨_, there, _, playing, _⟩ := Run.retraces played crosses returns (.next rfl) (.prev rfl)
    consistent first (by decide +kernel)
  obtain ⟨_, back, _, playing', _⟩ := Run.retraces (played.turn crosses) returns again (.prev rfl)
    (.next rfl) consistent_again third (by decide +kernel)
  exact ⟨first, third, there, playing, back, playing'⟩

end Gap

end Jukebox.Playback
