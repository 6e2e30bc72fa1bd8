import Jukebox.Proofs.Library.Resolving
import Jukebox.Proofs.Playback.Rehearsal
/-!
# Index, session and entry agree

The current index, the current session and the playing flag are changed one by one. `Coherent` says
how they hang together between two sections: there is an index where there is a session, the session
carries the serial number of the entry at the index, and it was that entry whose file was opened for
it. Every section keeps this, so what is told of the current file is told of the right one.
-/
namespace Jukebox.Playback

open Storage

/-- The file of an entry was opened for a session and its stream registered and played, at once. -/
def OpenedFor (calls : List Call) (entry : Entry) (s : Session) : Prop :=
  [.opened entry.path (some s.file), .added s.stream, .played s.stream] <:+: calls

theorem OpenedFor.append {calls : List Call} {entry : Entry} {s : Session}
    (opened : OpenedFor calls entry s) (made : List Call) : OpenedFor (calls ++ made) entry s :=
  opened.trans (List.prefix_append calls made).isInfix

/-- The session of an index: the entry there was opened for it. -/
def Linked (calls : List Call) (e : Engine) (i : Nat) : Prop :=
  ∃ s entry, e.current = some s ∧ e.playlist.entry? i = some entry ∧
    entry.serial = s.serial ∧ OpenedFor calls entry s

structure Coherent (calls : List Call) (e : Engine) : Prop where
  serials : e.playlist.SerialsValid
  linked : ∀ i, e.playlist.current = some i → Linked calls e i
  unlinked : e.playlist.current = none → e.current = none
  playing : e.playing = true → ∃ s, e.current = some s

namespace Coherent

variable {calls made : List Call} {e e' : Engine}

theorem new (settings : Config.Music) : Coherent [] (.new settings) where
  serials := .empty
  linked i here := by cases here
  unlinked _ := rfl
  playing on := by cases on

theorem current_valid (coh : Coherent calls e) : e.playlist.CurrentValid := by
  intro i here
  obtain ⟨_, _, _, at_index, _⟩ := coh.linked i here
  exact Playlist.lt_count_of_entry at_index

/-- More calls do not disturb an engine that stays the same. -/
theorem append (coh : Coherent calls e) (made : List Call) : Coherent (calls ++ made) e where
  serials := coh.serials
  linked i here := by
    obtain ⟨s, entry, there, at_index, same, opened⟩ := coh.linked i here
    exact ⟨s, entry, there, at_index, same, opened.append made⟩
  unlinked := coh.unlinked
  playing := coh.playing

/-- The previous slot does not matter. -/
theorem put_previous (coh : Coherent calls e) (s : Option Session) :
    Coherent calls { e with previous := s } :=
  ⟨coh.serials, coh.linked, coh.unlinked, coh.playing⟩

/-- The flag may be raised where there is a session. -/
theorem put_playing (coh : Coherent calls e) {on : Bool}
    (held : on = true → ∃ s, e.current = some s) : Coherent calls { e with playing := on } :=
  ⟨coh.serials, coh.linked, coh.unlinked, held⟩

theorem put_settings (coh : Coherent calls e) (settings : Config.Music) :
    Coherent calls { e with settings := settings } :=
  ⟨coh.serials, coh.linked, coh.unlinked, coh.playing⟩

/-- Without index and session nothing is playing and only serial numbers matter. -/
theorem of_stopped (serials : e.playlist.SerialsValid) (index : e.playlist.current = none)
    (session : e.current = none) (off : e.playing = false) : Coherent calls e where
  serials := serials
  linked i here := by rw [index] at here; cases here
  unlinked _ := session
  playing on := by rw [off] at on; cases on

theorem stopped (coh : Coherent calls e) : Coherent calls e.stopped :=
  .of_stopped coh.serials rfl rfl rfl

theorem left (coh : Coherent calls e) (keep : Bool) : Coherent calls (e.left keep) :=
  .of_stopped coh.serials rfl rfl rfl

theorem flushed : Coherent calls e.flushed :=
  .of_stopped .clear rfl rfl rfl

theorem pushed (coh : Coherent calls e) (path : Path) (tags : Option Library.Tags) :
    Coherent calls { e with playlist := e.playlist.push path tags } where
  serials := coh.serials.push path tags
  linked i here := by
    obtain ⟨s, entry, there, at_index, same, opened⟩ := coh.linked i here
    exact ⟨s, entry, there, Playlist.entry?_push at_index, same, opened⟩
  unlinked := coh.unlinked
  playing := coh.playing

/-- Removing an entry that is not current moves the current index along with its entry. -/
theorem erased (coh : Coherent calls e) {index : Nat} (other : e.playlist.current ≠ some index) :
    Coherent calls (e.erased index) := by
  cases current : e.playlist.current with
  | none =>
    have none_after : (e.erased index).playlist.current = none := by
      simp [Engine.erased, Playlist.erase, current, Playlist.currentAfter]
    refine ⟨coh.serials.erase index, fun i here => ?_, fun _ => coh.unlinked current, coh.playing⟩
    rw [none_after] at here
    cases here
  | some c =>
    obtain ⟨s, entry, there, at_index, same, opened⟩ := coh.linked c current
    have apart : c ≠ index := fun eq => other (eq ▸ current)
    obtain ⟨c', moved, at_moved⟩ := Playlist.entry?_currentAfter apart at_index
    have current_after : (e.erased index).playlist.current = some c' := by
      rw [← moved, ← current]
      rfl
    refine ⟨coh.serials.erase index, fun i here => ?_, fun no => ?_, coh.playing⟩
    · obtain rfl := Option.some.inj (current_after.symm.trans here)
      exact ⟨s, entry, there, at_moved, same, opened⟩
    · rw [current_after] at no
      cases no

end Coherent

namespace Engine

variable {e e' : Engine} {calls made : List Call}

theorem Starts.coherent {index : Nat} {r : Except Refusal Unit} (start : e.Starts index r e' made)
    (coh : Coherent calls e) : Coherent (calls ++ made) e' := by
  cases start with
  | absent no => exact coh.append _
  | unopened here reason => exact coh.append _
  | refused here file reason => exact coh.append _
  | @started entry here file stream =>
    refine ⟨coh.serials, fun i at_index => ?_, fun no => ?_, fun _ => ⟨_, rfl⟩⟩
    · obtain rfl := Option.some.inj at_index
      exact ⟨_, entry, rfl, here, rfl, ⟨calls, dropped e.current, by simp⟩⟩
    · cases no

theorem Scans.coherent {indices : List Nat} (scan : e.Scans indices e' made)
    (coh : Coherent calls e) : Coherent (calls ++ made) e' := by
  induction scan generalizing calls with
  | exhausted => exact coh.append []
  | passed start _ ih =>
    rw [← List.append_assoc]
    exact ih (start.coherent coh)
  | found start => exact start.coherent coh

theorem Advances.coherent {d : Direction} {keep : Bool} (advance : e.Advances d keep e' made)
    (coh : Coherent calls e) : Coherent (calls ++ made) e' := by
  cases advance with
  | idle no => exact coh.append []
  | moved here scan =>
    rw [← List.append_assoc]
    exact scan.coherent ((coh.left keep).append _)

theorem Reclaims.coherent (reclaim : e.Reclaims e' made) (coh : Coherent calls e) :
    Coherent (calls ++ made) e' := by
  cases reclaim with
  | empty no => exact coh.append []
  | waiting there => exact coh.append _
  | drained there => exact (coh.put_previous none).append _

theorem Ticks.coherent {moved : Bool} (tick : e.Ticks moved e' made) (coh : Coherent calls e) :
    Coherent (calls ++ made) e' := by
  cases tick with
  | idle reclaim no => exact reclaim.coherent coh
  | playing reclaim there =>
    rw [← List.append_assoc]
    exact (reclaim.coherent coh).append _
  | finished reclaim there ended advance =>
    rw [← List.append_assoc, List.append_cons]
    exact advance.coherent ((reclaim.coherent coh).append _)

theorem Removes.coherent {index : Nat} {r : Except Refusal Unit}
    (remove : e.Removes index r e' made) (coh : Coherent calls e) :
    Coherent (calls ++ made) e' := by
  cases remove with
  | absent outside => exact coh.append []
  | current inside here => exact (coh.stopped.erased (by rintro ⟨⟩)).append _
  | other inside elsewhere => exact (coh.erased elsewhere).append []

theorem Plays.coherent {index : Option Nat} {r : Except Refusal Unit}
    (play : e.Plays index r e' made) (coh : Coherent calls e) : Coherent (calls ++ made) e' := by
  cases play with
  | refused no => exact coh.append []
  | tried target start =>
    rw [← List.append_assoc]
    exact start.coherent (coh.stopped.append _)

theorem Toggles.coherent (toggle : e.Toggles e' made) (coh : Coherent calls e) :
    Coherent (calls ++ made) e' := by
  cases toggle with
  | idle no => exact coh.append []
  | paused there on => exact (coh.put_playing (by rintro ⟨⟩)).append _
  | resumed there off => exact (coh.put_playing fun _ => ⟨_, there⟩).append _

end Engine

/-- Every section keeps index, session and entry in agreement. -/
theorem Effect.coherent {e e' : Engine} {c : Command} {r : Except Refusal Unit}
    {calls made : List Call} (effect : Effect e c r e' made) (coh : Coherent calls e) :
    Coherent (calls ++ made) e' := by
  cases effect with
  | add path tags => exact (coh.pushed path tags).append []
  | remove removes => exact removes.coherent coh
  | flush => exact Coherent.flushed
  | play plays => exact plays.coherent coh
  | togglePause toggles => exact toggles.coherent coh
  | stop => exact coh.stopped.append _
  | next advances => exact advances.coherent coh
  | prev advances => exact advances.coherent coh
  | seekNothing secs no => exact coh.append []
  | seek secs r there => exact coh.append _
  | setSettings settings => exact (coh.put_settings settings).append []
  | tick ticks => exact ticks.coherent coh
  | status picture => exact coh.append []
  | look => exact coh.append []

theorem Run.coherent_after {ω : Type} {h : Host ω} {e e' : Engine} {calls : List Call}
    {turns : List Turn} (run : Run h e turns e') (coh : Coherent calls e) :
    Coherent (calls ++ callsOf turns) e' := by
  induction run with
  | start => exact coh.append []
  | turn _ takes ih =>
    rw [callsOf_append, callsOf_singleton, ← List.append_assoc]
    exact takes.effect.coherent ih

theorem Run.coherent {ω : Type} {h : Host ω} {settings : Config.Music} {e : Engine}
    {turns : List Turn} (run : Run h (.new settings) turns e) : Coherent (callsOf turns) e :=
  run.coherent_after (.new settings)

namespace Engine

variable {ω : Type} {e : Engine}

theorem state_ne_stopped_iff : e.state ≠ .stopped ↔ ∃ s, e.current = some s := by
  rcases e with ⟨settings, playlist, _ | s, previous, _ | _⟩ <;> simp [state]

theorem stream_iff : (∃ i, e.streams.1 = some i) ↔ ∃ s, e.current = some s := by
  rcases e with ⟨settings, playlist, _ | s, previous, playing⟩ <;> simp [streams]

/-- The status tells of the session with what its open file says. -/
theorem status_eq (h : Host ω) (picture : Bool) (e : Engine) (w : ω) :
    (status h picture e w).1.1 = match e.current, e.currentEntry? with
      | some s, some entry => .active (viewWith picture entry) (h.positionOf s.file w).1
          (h.lengthOf s.file (h.positionOf s.file w).2).1
      | _, _ => .stopped := by
  have unfolded : status h picture e w =
      (match e.current, e.currentEntry? with
      | some s, some entry => do
        let position ← h.positionOf s.file
        let length ← h.lengthOf s.file
        pure (.active (viewWith picture entry) position length)
      | _, _ => pure .stopped : Section ω Library.Status) e w := rfl
  rw [unfolded]
  cases e.current <;> cases e.currentEntry? <;> rfl

theorem viewWith_file (picture : Bool) (entry : Entry) :
    (viewWith picture entry).file = Library.displayName entry.path := by
  cases picture <;> rfl

end Engine

/-- The status tells of a file exactly when there is a session. -/
theorem Coherent.active_iff {ω : Type} {calls : List Call} {e : Engine} (coh : Coherent calls e)
    (h : Host ω) (picture : Bool) (w : ω) :
    (∃ view position length, (Engine.status h picture e w).1.1 = .active view position length) ↔
      ∃ s, e.current = some s := by
  rw [Engine.status_eq]
  cases index : e.playlist.current with
  | none =>
    rw [coh.unlinked index]
    simp [Library.Status.stopped]
  | some i =>
    obtain ⟨s, entry, there, here, _, _⟩ := coh.linked i index
    have told : e.currentEntry? = some entry := by rw [Engine.currentEntry?, index]; exact here
    rw [there, told]
    simp

/-- The current index is set exactly when there is a session. -/
theorem Coherent.index_iff {calls : List Call} {e : Engine} (coh : Coherent calls e) :
    (∃ i, e.playlist.current = some i) ↔ ∃ s, e.current = some s := by
  cases index : e.playlist.current with
  | none => simp [coh.unlinked index]
  | some i =>
    obtain ⟨s, _, there, _⟩ := coh.linked i index
    simp [there]

/-- In every state that a new engine can reach, index, session, state, streams and status agree on
whether there is a current file, and on which: the session carries the serial number of the entry at
the current index and of no other, that entry's file was opened for it, and its name is told. -/
theorem Run.current_entry {ω : Type} {h : Host ω} {settings : Config.Music} {e : Engine}
    {turns : List Turn} (run : Run h (.new settings) turns e) :
    e.playlist.SerialsValid ∧
    ((∃ i, e.playlist.current = some i) ↔ ∃ s, e.current = some s) ∧
    (e.playing = true → ∃ s, e.current = some s) ∧
    (∀ i s, e.playlist.current = some i → e.current = some s →
      i < e.playlist.count ∧
      ∃ entry, e.playlist.entry? i = some entry ∧ entry.serial = s.serial ∧
        (∀ j other, e.playlist.entry? j = some other → other.serial = s.serial → j = i) ∧
        OpenedFor (callsOf turns) entry s ∧
        ∀ picture w, ∃ view position length,
          (Engine.status h picture e w).1.1 = .active view position length ∧
            view.file = Library.displayName entry.path ∧
            (∀ name, entry.path.fileName? = some name → view.file = Text.lossy name) ∧
            ∀ (dir : Path) (title : String), NormalName (Text.bytesOf title) →
              entry.path = dir.push (Text.bytesOf title) → view.file = title) ∧
    ∀ picture w,
      ((∃ view position length,
          (Engine.status h picture e w).1.1 = .active view position length) ↔
        e.state ≠ .stopped) ∧
      (e.state ≠ .stopped ↔ ∃ i, e.playlist.current = some i) ∧
      (e.state ≠ .stopped ↔ ∃ stream, e.streams.1 = some stream) := by
  have coh := run.coherent
  refine ⟨coh.serials, coh.index_iff, coh.playing, fun i s index there => ?_, fun picture w => ?_⟩
  · obtain ⟨t, entry, session, here, same, opened⟩ := coh.linked i index
    obtain rfl := Option.some.inj (session.symm.trans there)
    refine ⟨Playlist.lt_count_of_entry here, entry, here, same, ?_, opened, fun picture w => ?_⟩
    · intro j other at_other alike
      exact coh.serials.unique at_other here (alike.trans same.symm)
    · have told : e.currentEntry? = some entry := by rw [Engine.currentEntry?, index]; exact here
      have file := Engine.viewWith_file picture entry
      rw [Engine.status_eq, there, told]
      refine ⟨_, _, _, rfl, file, fun name named => ?_, fun dir title normal path => ?_⟩
      · rw [file, Library.displayName_of_fileName? named]
      · rw [file, path, Library.displayName_push dir normal]
  · rw [coh.active_iff, coh.index_iff, Engine.stream_iff, Engine.state_ne_stopped_iff]
    exact ⟨Iff.rfl, Iff.rfl, Iff.rfl⟩

/-- The file `m/a` is added twice, its second entry is played, and the first one is removed. -/
def twiceAdded : List (Command × Rehearsal) :=
  [(.add ⟨[109, 47, 97]⟩ none, ⟨0, 0, [], .playing, false⟩),
    (.add ⟨[109, 47, 97]⟩ none, ⟨0, 0, [], .playing, false⟩),
    (.play (some 1), ⟨0, 0, [], .playing, false⟩),
    (.remove 0, ⟨1, 1, [], .playing, false⟩)]

theorem twiceAdded_current_entry :
    (rehearse twiceAdded).2.playlist.current = some 0 ∧
    (rehearse twiceAdded).2.current = some ⟨⟨0⟩, ⟨0⟩, 1⟩ ∧
    0 < (rehearse twiceAdded).2.playlist.count ∧
    (∃ entry, Playlist.entry? (rehearse twiceAdded).2.playlist 0 = some entry ∧
      entry.serial = 1 ∧ OpenedFor (callsOf (rehearse twiceAdded).1) entry ⟨⟨0⟩, ⟨0⟩, 1⟩) ∧
    ∀ picture w, ∃ view position length,
      (Engine.status .rehearsed picture (rehearse twiceAdded).2 w).1.1 =
        .active view position length ∧ view.file = "a" := by
  have index : (rehearse twiceAdded).2.playlist.current = some 0 := by decide +kernel
  have session : (rehearse twiceAdded).2.current = some ⟨⟨0⟩, ⟨0⟩, 1⟩ := by decide +kernel
  obtain ⟨inside, entry, here, same, -, opened, told⟩ :=
    (Run.current_entry (rehearse_run twiceAdded)).2.2.2.1 0 _ index session
  have added : (rehearse twiceAdded).2.playlist.entry? 0 = some ⟨⟨[109, 47, 97]⟩, none, 1⟩ := by
    decide +kernel
  obtain rfl := Option.some.inj (here.symm.trans added)
  refine ⟨index, session, inside, ⟨_, here, same, opened⟩, fun picture w => ?_⟩
  obtain ⟨view, position, length, active, -, -, named⟩ := told picture w
  refine ⟨view, position, length, active, named ⟨[109]⟩ "a" ?_ (by decide)⟩
  exact ⟨by decide, by decide, by decide, by decide⟩

end Jukebox.Playback
