import Jukebox.Playback.Playlist
/-!
# Positions and serial numbers

How additions and removals move entries, and why a serial number names one entry for as long as the
playlist lives.
-/
namespace Jukebox.Playback.Playlist

open Storage

variable {p : Playlist}

/-- The index of an entry is accepted. -/
theorem check_of_lt {i : Nat} (inside : i < p.count) : p.check i = .ok () :=
  if_pos inside

theorem check_of_le {i : Nat} (outside : p.count ≤ i) : p.check i = .error (p.outOfRange i) :=
  if_neg (Nat.not_lt.mpr outside)

theorem lt_of_check {i : Nat} (passed : p.check i = .ok ()) : i < p.count := by
  apply Nat.lt_of_not_le
  intro outside
  rw [check_of_le outside] at passed
  cases passed

theorem setCurrent_of_lt {i : Nat} (inside : i < p.count) :
    p.setCurrent (some i) = .ok { p with current := some i } := by
  rw [setCurrent, check_of_lt inside]
  rfl

/-- An entry that is there can be removed. -/
theorem remove_of_lt {i : Nat} (inside : i < p.count) :
    ∃ a, p.remove i = .ok (a, p.erase i) := by
  have there : p.entry? i = some p.entries[i] := List.getElem?_eq_getElem inside
  exact ⟨_, by rw [remove, there]⟩

theorem lt_count_of_entry {i : Nat} {a : Entry} (here : p.entry? i = some a) : i < p.count := by
  obtain ⟨inside, _⟩ := List.getElem?_eq_some_iff.mp here
  exact inside

theorem mem_of_entry {i : Nat} {a : Entry} (here : p.entry? i = some a) : a ∈ p.entries :=
  List.mem_of_getElem? here

/-- An added entry leaves the others where they are. -/
theorem entry?_push {path : Path} {tags : Option Library.Tags} {i : Nat} {a : Entry}
    (here : p.entry? i = some a) : Playlist.entry? (p.push path tags) i = some a := by
  unfold entry? push
  rw [List.getElem?_append_left (lt_count_of_entry here)]
  exact here

/-- An added entry stands at the old count. -/
theorem entry?_push_count (path : Path) (tags : Option Library.Tags) :
    Playlist.entry? (p.push path tags) p.count = some ⟨path, tags, p.issued⟩ := by
  unfold entry? push count
  exact List.getElem?_concat_length

/-- What stands in the longer playlist stood there before, or is the added entry. -/
theorem entry?_of_push {path : Path} {tags : Option Library.Tags} {i : Nat} {a : Entry}
    (there : Playlist.entry? (p.push path tags) i = some a) :
    p.entry? i = some a ∨ a = ⟨path, tags, p.issued⟩ := by
  unfold entry? push at there
  by_cases old : i < p.entries.length
  · rw [List.getElem?_append_left old] at there
    exact Or.inl there
  · rw [List.getElem?_append_right (Nat.not_lt.mp old)] at there
    exact Or.inr (List.mem_singleton.mp (List.mem_of_getElem? there))

theorem entry?_erase (i j : Nat) :
    Playlist.entry? (p.erase i) j = if j < i then p.entry? j else p.entry? (j + 1) := by
  unfold entry? erase
  exact List.getElem?_eraseIdx

theorem currentAfter_self (c : Nat) : currentAfter c (some c) = none :=
  if_pos rfl

theorem currentAfter_before {c i : Nat} (before : c < i) : currentAfter i (some c) = some c := by
  rw [currentAfter, if_neg (Nat.ne_of_lt before), if_neg (Nat.lt_asymm before)]

theorem currentAfter_behind {c i : Nat} (behind : i < c) :
    currentAfter i (some c) = some (c - 1) := by
  rw [currentAfter, if_neg (Nat.ne_of_gt behind), if_pos behind]

/-- The current index moves with its entry when another one is removed. -/
theorem entry?_currentAfter {i c : Nat} {a : Entry} (other : c ≠ i) (here : p.entry? c = some a) :
    ∃ c', currentAfter i (some c) = some c' ∧ Playlist.entry? (p.erase i) c' = some a := by
  by_cases before : c < i
  · refine ⟨c, currentAfter_before before, ?_⟩
    rw [entry?_erase, if_pos before, here]
  · have behind : i < c := by omega
    refine ⟨c - 1, currentAfter_behind behind, ?_⟩
    rw [entry?_erase, if_neg (by omega), show c - 1 + 1 = c by omega, here]

namespace SerialsValid

theorem empty : SerialsValid .empty := ⟨.nil, by intro a there; cases there⟩

theorem push (valid : p.SerialsValid) (path : Path) (tags : Option Library.Tags) :
    (p.push path tags).SerialsValid := by
  refine ⟨List.pairwise_append.mpr ⟨valid.1, List.pairwise_singleton _ _, ?_⟩, ?_⟩
  · intro a there b new
    obtain rfl := List.mem_singleton.mp new
    exact valid.2 a there
  · intro a there
    rcases List.mem_append.mp there with old | new
    · exact Nat.lt_succ_of_lt (valid.2 a old)
    · obtain rfl := List.mem_singleton.mp new
      exact Nat.lt_succ_self p.issued

theorem erase (valid : p.SerialsValid) (i : Nat) : (p.erase i).SerialsValid :=
  ⟨valid.1.sublist (List.eraseIdx_sublist _ i),
    fun a there => valid.2 a (List.mem_of_mem_eraseIdx there)⟩

theorem clear : p.clear.SerialsValid := ⟨.nil, by intro a there; cases there⟩

/-- Two entries with one serial number are one entry. -/
theorem unique (valid : p.SerialsValid) {i j : Nat} {a b : Entry} (first : p.entry? i = some a)
    (second : p.entry? j = some b) (same : a.serial = b.serial) : i = j := by
  obtain ⟨inside, rfl⟩ := List.getElem?_eq_some_iff.mp first
  obtain ⟨inside', rfl⟩ := List.getElem?_eq_some_iff.mp second
  have ordered := List.pairwise_iff_getElem.mp valid.1
  rcases Nat.lt_trichotomy i j with before | eq | behind
  · have := ordered i j inside inside' before
    omega
  · exact eq
  · have := ordered j i inside' inside behind
    omega

end SerialsValid

end Jukebox.Playback.Playlist
