import Jukebox.Proofs.Playback.Coherence
/-!
# Removing entries

A removal moves the later entries down and the current index with its entry, and it stops playback
if the entry is the current one. So it matters neither to the entries, nor to the index, nor to the
streams in which order two entries are removed, if the index of the later one is counted anew; an
entry that is not current is removed without the host being asked anything.
-/
namespace Jukebox.Playback

namespace Playlist

/-- Two entries leave a list in either order. -/
theorem eraseIdx_comm {α : Type} (l : List α) {i j : Nat} (before : i < j) :
    (l.eraseIdx i).eraseIdx (j - 1) = (l.eraseIdx j).eraseIdx i := by
  refine List.ext_getElem? fun k => ?_
  simp only [List.getElem?_eraseIdx]
  -- `k` lies before both entries, between them, or behind both
  by_cases low : k < i
  · rw [if_pos (by omega : k < j - 1), if_pos low, if_pos low, if_pos (by omega : k < j)]
  by_cases high : k < j - 1
  · rw [if_pos high, if_neg low, if_neg low, if_pos (by omega : k + 1 < j)]
  · rw [if_neg high, if_neg (by omega : ¬k + 1 < i), if_neg low, if_neg (by omega : ¬k + 1 < j)]

/-- The current index is the same after both removals. It may lie before both entries, between them
or behind both, or be that of either one. -/
theorem currentAfter_comm {i j : Nat} (before : i < j) (current : Option Nat) :
    currentAfter (j - 1) (currentAfter i current) = currentAfter i (currentAfter j current) := by
  cases current with
  | none => rfl
  | some c =>
    rcases Nat.lt_trichotomy c i with first | rfl | behind
    · have far : c < j := Nat.lt_trans first before
      rw [currentAfter_before first, currentAfter_before far, currentAfter_before first,
        currentAfter_before (by omega)]
    · rw [currentAfter_self, currentAfter_before before, currentAfter_self]
      rfl
    rcases Nat.lt_trichotomy c j with between | rfl | last
    · rw [currentAfter_behind behind, currentAfter_before between, currentAfter_behind behind,
        currentAfter_before (by omega)]
    · rw [currentAfter_behind behind, currentAfter_self, currentAfter_self]
      rfl
    · rw [currentAfter_behind behind, currentAfter_behind last, currentAfter_behind (by omega),
        currentAfter_behind (by omega)]

theorem erase_comm (p : Playlist) {i j : Nat} (before : i < j) :
    Playlist.erase (p.erase i) (j - 1) = Playlist.erase (p.erase j) i := by
  simp only [erase, eraseIdx_comm p.entries before, currentAfter_comm before p.current]

/-- After an earlier entry was removed, a later one is current at its new index if it was before. -/
theorem currentAfter_eq_pred {i j : Nat} (before : i < j) {current : Option Nat} :
    currentAfter i current = some (j - 1) ↔ current = some j := by
  cases current with
  | none => exact ⟨nofun, nofun⟩
  | some c =>
    rcases Nat.lt_trichotomy c i with first | rfl | behind
    · rw [currentAfter_before first, Option.some_inj, Option.some_inj]
      omega
    · rw [currentAfter_self, Option.some_inj]
      exact ⟨nofun, fun same => absurd same (Nat.ne_of_lt before)⟩
    · rw [currentAfter_behind behind, Option.some_inj, Option.some_inj]
      omega

/-- After a later entry was removed, an earlier one is current if it was before. -/
theorem currentAfter_eq_same {i j : Nat} (before : i < j) {current : Option Nat} :
    currentAfter j current = some i ↔ current = some i := by
  cases current with
  | none => exact ⟨nofun, nofun⟩
  | some c =>
    rcases Nat.lt_trichotomy c j with first | rfl | behind
    · rw [currentAfter_before first]
    · rw [currentAfter_self, Option.some_inj]
      exact ⟨nofun, fun same => absurd same (Nat.ne_of_gt before)⟩
    · rw [currentAfter_behind behind, Option.some_inj, Option.some_inj]
      omega

theorem count_erase {p : Playlist} {i : Nat} (inside : i < p.count) :
    Playlist.count (p.erase i) = p.count - 1 := by
  unfold count erase
  exact List.length_eraseIdx_of_lt inside

/-- The current entry is the same after another one was removed. -/
theorem current_entry_erase {p : Playlist} {i : Nat} (elsewhere : p.current ≠ some i) :
    (p.erase i).current.bind (Playlist.entry? (p.erase i)) = p.current.bind p.entry? := by
  have moved : (p.erase i).current = currentAfter i p.current := rfl
  rw [moved]
  cases current : p.current with
  | none => rfl
  | some c =>
    have apart : c ≠ i := fun same => elsewhere (current.trans (congrArg some same))
    rcases Nat.lt_or_gt_of_ne apart with before | behind
    · rw [currentAfter_before before, Option.bind_some, Option.bind_some, entry?_erase,
        if_pos before]
    · rw [currentAfter_behind behind, Option.bind_some, Option.bind_some, entry?_erase,
        if_neg (by omega), show c - 1 + 1 = c by omega]

end Playlist

namespace Engine

variable {ω : Type} {e : Engine} {i j : Nat}

/-- What is left of an engine when an entry that is not current was removed: the entry is gone, the
current entry is the same, and so are both sessions and the flag. -/
structure Spared (e : Engine) (i : Nat) (e' : Engine) : Prop where
  entries : e'.playlist.entries = e.playlist.entries.eraseIdx i
  entry : e'.currentEntry? = e.currentEntry?
  current : e'.current = e.current
  previous : e'.previous = e.previous
  playing : e'.playing = e.playing
  state : e'.state = e.state
  streams : e'.streams = e.streams

theorem remove_current (h : Host ω) (w : ω) (inside : i < e.playlist.count)
    (here : e.playlist.current = some i) :
    remove h i e w = ((.ok (), e.stopped.erased i), (stop h e w).2) := by
  obtain ⟨a, removed⟩ := Playlist.remove_of_lt (p := e.stopped.playlist) inside
  rw [remove, get_bind_apply, Playlist.check_of_lt inside]
  dsimp only
  rw [get_bind_apply, if_pos here, bind_apply, get_bind_apply,
    show (stop h e w).1.2 = e.stopped from rfl, removed]
  rfl

theorem remove_other (h : Host ω) (w : ω) (inside : i < e.playlist.count)
    (elsewhere : e.playlist.current ≠ some i) :
    remove h i e w = ((.ok (), e.erased i), w) := by
  obtain ⟨a, removed⟩ := Playlist.remove_of_lt inside
  rw [remove, get_bind_apply, Playlist.check_of_lt inside]
  dsimp only
  rw [get_bind_apply, if_neg elsewhere, get_bind_apply, removed]
  rfl

theorem spared_erased (elsewhere : e.playlist.current ≠ some i) : Spared e i (e.erased i) where
  entries := rfl
  entry := Playlist.current_entry_erase elsewhere
  current := rfl
  previous := rfl
  playing := rfl
  state := rfl
  streams := rfl

/-- What is told of an engine depends on its current session and entry. -/
theorem Spared.status {e' : Engine} (spared : Spared e i e') (h : Host ω) (picture : Bool) (w : ω) :
    (Engine.status h picture e' w).1.1 = (Engine.status h picture e w).1.1 := by
  rw [status_eq, status_eq, spared.current, spared.entry]

theorem erased_comm (e : Engine) (before : i < j) :
    (e.erased i).erased (j - 1) = (e.erased j).erased i :=
  congrArg (fun p => { e with playlist := p }) (Playlist.erase_comm e.playlist before)

/-- Two entries are still there when the other one was removed. -/
theorem inside_erased (before : i < j) (inside : j < e.playlist.count) :
    j - 1 < (e.erased i).playlist.count ∧ i < (e.erased j).playlist.count := by
  have fewer := Playlist.count_erase (Nat.lt_trans before inside)
  have enough := Playlist.count_erase inside
  dsimp only [erased]
  omega

/-- Removes an entry and then another one, and tells what came of either. -/
def removeBoth (h : Host ω) (first second : Nat) :
    Section ω (Except Refusal Unit × Except Refusal Unit) := do
  let one ← remove h first
  let other ← remove h second
  pure (one, other)

theorem removeBoth_eq {h : Host ω} {w w₁ w₂ : ω} {e₁ e₂ : Engine} {r r' : Except Refusal Unit}
    (first : remove h i e w = ((r, e₁), w₁)) (second : remove h j e₁ w₁ = ((r', e₂), w₂)) :
    removeBoth h i j e w = (((r, r'), e₂), w₂) := by
  have unfolded : removeBoth h i j e w =
      let one := remove h i e w
      let other := remove h j one.1.2 one.2
      (((one.1.1, other.1.1), other.1.2), other.2) := rfl
  rw [unfolded, first]
  dsimp only
  rw [second]

/-- If one of two entries is current, playback is stopped before the first or before the second of
them is removed, and in either order once. -/
theorem removeBoth_current (h : Host ω) (w : ω) (before : i < j) (inside : j < e.playlist.count)
    (one : e.playlist.current = some i ∨ e.playlist.current = some j) :
    removeBoth h i (j - 1) e w =
        (((.ok (), .ok ()), (e.stopped.erased i).erased (j - 1)), (stop h e w).2) ∧
      removeBoth h j i e w =
        (((.ok (), .ok ()), (e.stopped.erased i).erased (j - 1)), (stop h e w).2) := by
  have inside' : i < e.playlist.count := Nat.lt_trans before inside
  obtain ⟨fewer, enough⟩ := inside_erased before inside
  rcases one with here | here
  · have elsewhere : e.playlist.current ≠ some j := by
      rw [here, ne_eq, Option.some_inj]
      omega
    have still : (e.erased j).playlist.current = some i :=
      (Playlist.currentAfter_eq_same before).mpr here
    constructor
    · exact removeBoth_eq (remove_current h w inside' here) (remove_other h _ fewer nofun)
    · rw [erased_comm e.stopped before]
      exact removeBoth_eq (remove_other h w inside elsewhere) (remove_current h w enough still)
  · have elsewhere : e.playlist.current ≠ some i := by
      rw [here, ne_eq, Option.some_inj]
      omega
    have moved : (e.erased i).playlist.current = some (j - 1) :=
      (Playlist.currentAfter_eq_pred before).mpr here
    constructor
    · exact removeBoth_eq (remove_other h w inside' elsewhere) (remove_current h w fewer moved)
    · rw [erased_comm e.stopped before]
      exact removeBoth_eq (remove_current h w inside here) (remove_other h _ enough nofun)

/-- If neither is, the host is not asked anything. -/
theorem removeBoth_other (h : Host ω) (w : ω) (before : i < j) (inside : j < e.playlist.count)
    (first : e.playlist.current ≠ some i) (second : e.playlist.current ≠ some j) :
    removeBoth h i (j - 1) e w = (((.ok (), .ok ()), (e.erased i).erased (j - 1)), w) ∧
      removeBoth h j i e w = (((.ok (), .ok ()), (e.erased i).erased (j - 1)), w) := by
  have inside' : i < e.playlist.count := Nat.lt_trans before inside
  obtain ⟨fewer, enough⟩ := inside_erased before inside
  have moved : (e.erased i).playlist.current ≠ some (j - 1) := fun there =>
    second ((Playlist.currentAfter_eq_pred before).mp there)
  have still : (e.erased j).playlist.current ≠ some i := fun there =>
    first ((Playlist.currentAfter_eq_same before).mp there)
  constructor
  · exact removeBoth_eq (remove_other h w inside' first) (remove_other h w fewer moved)
  · rw [erased_comm e before]
    exact removeBoth_eq (remove_other h w inside second) (remove_other h w enough still)

/-- In every state of an engine, and whatever the host does: two entries can be removed in either
order, with the same engine, world and calls in the end. An entry that is not current is removed
without any call, and what is told of the current one stays the same. Removing the current entry is
stopping and then removing it. -/
theorem removals_commute (h : Host ω) (e : Engine) (w : ω) :
    (∀ i j, i < j → j < e.playlist.count → ∃ e' w' made, ∀ calls,
      removeBoth h.recorded i (j - 1) e (w, calls) =
        (((.ok (), .ok ()), e'), (w', calls ++ made)) ∧
      removeBoth h.recorded j i e (w, calls) =
        (((.ok (), .ok ()), e'), (w', calls ++ made))) ∧
    ∀ k, k < e.playlist.count →
      (e.playlist.current ≠ some k → ∃ e', Spared e k e' ∧
        (∀ calls, remove h.recorded k e (w, calls) = ((.ok (), e'), (w, calls))) ∧
        ∀ picture, (status h picture e' w).1.1 = (status h picture e w).1.1) ∧
      (e.playlist.current = some k → ∃ e' w' made, Spared e.stopped k e' ∧ ∀ calls,
        stop h.recorded e (w, calls) = (((), e.stopped), (w', calls ++ made)) ∧
        remove h.recorded k e.stopped (w', calls ++ made) =
          ((.ok (), e'), (w', calls ++ made)) ∧
        remove h.recorded k e (w, calls) = ((.ok (), e'), (w', calls ++ made))) := by
  obtain ⟨⟨⟩, _, w', made, stops, rfl, -⟩ := stop_performs h e w
  have stopped_in (calls : List Call) : (stop h.recorded e (w, calls)).2 = (w', calls ++ made) := by
    rw [stops calls]
  refine ⟨fun i j before inside => ?_, fun k inside => ⟨fun elsewhere => ?_, fun here => ?_⟩⟩
  · by_cases one : e.playlist.current = some i ∨ e.playlist.current = some j
    · refine ⟨(e.stopped.erased i).erased (j - 1), w', made, fun calls => ?_⟩
      rw [← stopped_in calls]
      exact removeBoth_current h.recorded (w, calls) before inside one
    · obtain ⟨first, second⟩ := not_or.mp one
      refine ⟨(e.erased i).erased (j - 1), w, [], fun calls => ?_⟩
      rw [List.append_nil]
      exact removeBoth_other h.recorded (w, calls) before inside first second
  · exact ⟨e.erased k, spared_erased elsewhere,
      fun calls => remove_other h.recorded (w, calls) inside elsewhere,
      fun picture => (spared_erased elsewhere).status h picture w⟩
  · have nowhere : e.stopped.playlist.current ≠ some k := nofun
    refine ⟨e.stopped.erased k, w', made, spared_erased nowhere, fun calls => ?_⟩
    refine ⟨stops calls, remove_other h.recorded _ inside nowhere, ?_⟩
    rw [← stopped_in calls]
    exact remove_current h.recorded (w, calls) inside here

def secondPlayed : List (Command × Rehearsal) :=
  [(.add ⟨[97]⟩ none, ⟨0, 0, [], .playing, false⟩),
    (.add ⟨[98]⟩ none, ⟨0, 0, [], .playing, false⟩),
    (.add ⟨[99]⟩ none, ⟨0, 0, [], .playing, false⟩),
    (.play (some 1), ⟨0, 0, [], .playing, false⟩)]

theorem secondPlayed_removals_commute :
    (rehearse secondPlayed).2.playlist.count = 3 ∧
    (rehearse secondPlayed).2.playlist.current = some 1 ∧
    (∃ e' w' made, ∀ calls,
      removeBoth Host.rehearsed.recorded 0 0 (rehearse secondPlayed).2
        (⟨1, 1, [], .playing, false⟩, calls) =
          (((.ok (), .ok ()), e'), (w', calls ++ made)) ∧
      removeBoth Host.rehearsed.recorded 1 0 (rehearse secondPlayed).2
        (⟨1, 1, [], .playing, false⟩, calls) =
          (((.ok (), .ok ()), e'), (w', calls ++ made))) ∧
    (∃ e', Spared (rehearse secondPlayed).2 0 e') ∧
    ∃ e', Spared (rehearse secondPlayed).2.stopped 1 e' := by
  have count : (rehearse secondPlayed).2.playlist.count = 3 := by decide +kernel
  have current : (rehearse secondPlayed).2.playlist.current = some 1 := by decide +kernel
  obtain ⟨both, single⟩ :=
    removals_commute .rehearsed (rehearse secondPlayed).2 ⟨1, 1, [], .playing, false⟩
  obtain ⟨e', spared, -⟩ := (single 0 (by omega)).1 (by rw [current]; decide)
  obtain ⟨e'', _, _, spared', -⟩ := (single 1 (by omega)).2 current
  exact ⟨count, current, both 0 1 (by decide) (by omega), ⟨e', spared⟩, e'', spared'⟩

end Engine

end Jukebox.Playback
