import Mathlib.Data.List.Count
import Jukebox.Proofs.Playback.Refusals
/-!
# What playing comes to

A request to play can fail twice before anything is done, and twice after playback was stopped for
it: the file may not open, and the output may refuse its stream. Which of these happens is up to the
host, in the world that stopping left. `standing` are the streams that a record of calls leaves
registered, counted number by number, so that nothing is assumed about the numbers the output gives.
-/
namespace Jukebox.Playback

open Storage (Path)

/-- Streams that were registered, less those that were unregistered. -/
def standing (calls : List Call) : List StreamId :=
  (addedIn calls).diff (removedIn calls)

/-- Calls that unregister every stream there is, and do nothing else. -/
structure Clears (before made : List Call) : Prop where
  only : ∀ c ∈ made, ∃ s, c = .removed s
  every : ∀ s ∈ standing before, .removed s ∈ made
  nothing : standing (before ++ made) = []

/-- A file opens in a world, and the output registers it. -/
def Host.Offers {ω : Type} (h : Host ω) (path : Path) (w : ω) (file : FileId)
    (stream : StreamId) : Prop :=
  ∃ format w₁ w₂, h.openFile path w = (.ok (file, format), w₁) ∧
    h.addStream file format w₁ = (.ok stream, w₂)

/-- A file does not open in a world, or the output refuses it; with the reason that is given and
the calls that are made. -/
inductive Host.Denies {ω : Type} (h : Host ω) (path : Path) (w : ω) : String → List Call → Prop
  | closed {fault : Fault} {w₁ : ω} (no : h.openFile path w = (.error fault, w₁)) :
      Denies h path w fault.message [.opened path none]
  | refused {file : FileId} {format : Audio.Format} {fault : Fault} {w₁ w₂ : ω}
      (opens : h.openFile path w = (.ok (file, format), w₁))
      (no : h.addStream file format w₁ = (.error fault, w₂)) :
      Denies h path w fault.message [.opened path (some file), .refused]

structure Sounds (e : Engine) (index : Nat) (s : Session) (e' : Engine) : Prop where
  state : e'.state = .playing
  current : e'.current = some s
  previous : e'.previous = none
  index : e'.playlist.current = some index
  entries : e'.playlist.entries = e.playlist.entries
  settings : e'.settings = e.settings

theorem Exchanged.standing_perm {calls : List Call} {held : List StreamId}
    (all : Exchanged [] calls held) : (standing calls).Perm held := by
  refine List.perm_iff_count.mpr fun s => ?_
  have counts := all s
  rw [List.count_nil] at counts
  rw [standing, List.count_diff]
  omega

/-- Emptying a slot does nothing but unregister. -/
theorem removed_of_dropped {c : Call} {s : Option Session} (there : c ∈ dropped s) :
    ∃ stream, c = .removed stream := by
  cases s with
  | none => cases there
  | some s => exact ⟨s.stream, List.mem_singleton.mp there⟩

/-- One or the other. -/
theorem Host.offers_or_denies {ω : Type} (h : Host ω) (path : Path) (w : ω) :
    (∃ file stream, h.Offers path w file stream) ∨ ∃ reason made, h.Denies path w reason made := by
  rcases opens : h.openFile path w with ⟨fault | ⟨file, format⟩, w₁⟩
  · exact Or.inr ⟨_, _, .closed opens⟩
  rcases adds : h.addStream file format w₁ with ⟨fault | stream, w₂⟩
  · exact Or.inr ⟨_, _, .refused opens adds⟩
  · exact Or.inl ⟨file, stream, format, w₁, w₂, opens, adds⟩

namespace Engine

variable {ω : Type} {h : Host ω} {e : Engine} {w : ω} {entry : Entry}

/-- Opening a session, answer by answer. -/
theorem openSession_eq (h : Host ω) (entry : Entry) (w : ω) :
    openSession h entry w = match h.openFile entry.path w with
      | (.error f, w₁) => (.error (.resourceOpen entry.path.display f.message), w₁)
      | (.ok (file, format), w₁) => match h.addStream file format w₁ with
        | (.error f, w₂) => (.error (.resourceOpen entry.path.display f.message), w₂)
        | (.ok stream, w₂) => (.ok ⟨stream, file, entry.serial⟩, (h.playStream stream w₂).2) := by
  unfold openSession
  simp only [bind, StateT.bind]
  rcases h.openFile entry.path w with ⟨fault | ⟨file, format⟩, w₁⟩
  · rfl
  · simp only [StateT.bind]
    rcases h.addStream file format w₁ with ⟨fault | stream, w₂⟩ <;> rfl

theorem openSession_offered {file : FileId} {stream : StreamId}
    (offers : h.Offers entry.path w file stream) : ∃ w', ∀ calls,
      openSession h.recorded entry (w, calls) = (.ok ⟨stream, file, entry.serial⟩,
        (w', calls ++ [.opened entry.path (some file), .added stream, .played stream])) := by
  obtain ⟨format, w₁, w₂, opens, adds⟩ := offers
  refine ⟨(h.playStream stream w₂).2, fun calls => ?_⟩
  simp only [openSession_eq, Host.recorded, record, opens, adds, List.append_assoc]
  rfl

theorem openSession_denied {reason : String} {made : List Call}
    (denies : h.Denies entry.path w reason made) : ∃ w', ∀ calls,
      openSession h.recorded entry (w, calls) =
        (.error (.resourceOpen entry.path.display reason), (w', calls ++ made)) := by
  cases denies with
  | @closed _ w₁ no =>
    refine ⟨w₁, fun calls => ?_⟩
    simp only [openSession_eq, Host.recorded, record, no]
  | @refused _ _ _ _ w₂ opens no =>
    refine ⟨w₂, fun calls => ?_⟩
    simp only [openSession_eq, Host.recorded, record, opens, no, List.append_assoc]
    rfl

/-- Nothing is dropped when a session is put into an empty slot. -/
theorem putCurrent_empty (h : Host ω) (s : Option Session) (empty : e.current = none) (w : ω) :
    putCurrent h s e w = ((⟨⟩, { e with current := s }), w) := by
  rw [putCurrent, get_bind_apply, empty]
  rfl

/-- An entry is started if its session can be opened. -/
theorem start_eq (h : Host ω) {index : Nat} (here : e.playlist.entry? index = some entry)
    (empty : e.current = none) (w : ω) :
    start h index e w = match openSession h entry w with
      | (.error r, w') => ((.error r, e), w')
      | (.ok s, w') => ((.ok (), e.landed index s), w') := by
  have marked := Playlist.setCurrent_of_lt (Playlist.lt_count_of_entry here)
  rw [start, get_bind_apply, here]
  dsimp only
  rw [lift_bind_apply]
  rcases openSession h entry w with ⟨r | s, w'⟩
  · rfl
  · dsimp only
    rw [bind_apply, putCurrent_empty h _ empty, modify_bind_apply, get_bind_apply]
    dsimp only
    rw [marked]
    rfl

/-- An entry that is there is opened once playback is stopped. -/
theorem play_target (h : Host ω) {wanted : Option Nat} {index : Nat} {w w₁ : ω}
    (target : e.playTarget wanted = .ok index) (here : e.playlist.entry? index = some entry)
    (stops : stop h e w = (((), e.stopped), w₁)) :
    play h wanted e w = match openSession h entry w₁ with
      | (.error r, w') => ((.error r, e.stopped), w')
      | (.ok s, w') => ((.ok (), e.stopped.landed index s), w') := by
  have still : e.stopped.playlist.entry? index = some entry := here
  rw [play_eq, target]
  dsimp only
  rw [stops]
  exact start_eq h still rfl w₁

/-- The entry that is played: the one given, or the current one, or the first. -/
theorem playTarget_wanted {wanted : Option Nat} (valid : e.playlist.CurrentValid)
    (some_entry : 0 < e.playlist.count) (inside : ∀ i, wanted = some i → i < e.playlist.count) :
    e.playTarget wanted = .ok (wanted.getD (e.playlist.current.getD 0)) := by
  cases wanted with
  | none => exact playTarget_resumed valid some_entry
  | some i => exact playTarget_given (inside i rfl)

end Engine

section

variable {ω : Type} {h : Host ω} {settings : Config.Music} {turns : List Turn} {e : Engine}

/-- The streams that a run leaves registered are those that the engine holds. -/
theorem Run.standing_perm (run : Run h (.new settings) turns e) :
    (standing (callsOf turns)).Perm e.held :=
  run.balanced.standing_perm

/-- Stopping unregisters every stream. -/
theorem Run.stopping_clears (run : Run h (.new settings) turns e) :
    Clears (callsOf turns) (dropped e.current ++ dropped e.previous) where
  only c there := by
    rcases List.mem_append.mp there with current | previous
    · exact removed_of_dropped current
    · exact removed_of_dropped previous
  every s there := by
    have held := run.standing_perm.mem_iff.mp there
    rw [← mem_removedIn, removedIn_append, removedIn_dropped, removedIn_dropped]
    exact held
  nothing := (run.balanced.trans e.stopped_calm.exchanged).standing_perm.eq_nil

/-- An entry that can be opened is played, and its stream is the only one. -/
theorem Run.plays_offered (run : Run h (.new settings) turns e) {wanted : Option Nat}
    {index : Nat} {entry : Entry} {file : FileId} {stream : StreamId} {w w₁ : ω}
    (target : e.playTarget wanted = .ok index) (here : e.playlist.entry? index = some entry)
    {removals : List Call} (stops : ∀ calls, Engine.stop h.recorded e (w, calls) =
      (((), e.stopped), (w₁, calls ++ removals)))
    (offers : h.Offers entry.path w₁ file stream) : ∃ e' w' made,
      made = [.opened entry.path (some file), .added stream, .played stream] ∧
      (∀ calls, Engine.play h.recorded wanted e (w, calls) =
        ((.ok (), e'), (w', calls ++ removals ++ made))) ∧
      Sounds e index ⟨stream, file, entry.serial⟩ e' ∧
      standing (callsOf turns ++ removals ++ made) = [stream] ∧
      lastOrder stream (callsOf turns ++ removals ++ made) = some true := by
  obtain ⟨w', opened⟩ := Engine.openSession_offered offers
  have ran (calls : List Call) : Engine.play h.recorded wanted e (w, calls) =
      ((.ok (), e.stopped.landed index ⟨stream, file, entry.serial⟩), (w', calls ++ removals ++
        [.opened entry.path (some file), .added stream, .played stream])) := by
    rw [Engine.play_target h.recorded target here (stops calls), opened]
  -- as one more turn of the run, it leaves registered what the engine holds then
  have takes : Takes h e ⟨.play wanted, .ok (), removals ++
      [.opened entry.path (some file), .added stream, .played stream]⟩ _ := ⟨w, w', ran []⟩
  have after := run.turn takes
  have held := after.standing_perm
  have ordered := after.obeyed _ rfl
  rw [callsOf_append, callsOf_singleton, ← List.append_assoc] at held ordered
  exact ⟨_, w', _, rfl, ran, ⟨rfl, rfl, rfl, rfl, rfl, rfl⟩, held.eq_singleton, ordered⟩

/-- For one that cannot be opened the engine is left stopped, and no stream is. -/
theorem Run.halts_denied (run : Run h (.new settings) turns e) {wanted : Option Nat}
    {index : Nat} {entry : Entry} {reason : String} {made : List Call} {w w₁ : ω}
    (target : e.playTarget wanted = .ok index) (here : e.playlist.entry? index = some entry)
    {removals : List Call} (stops : ∀ calls, Engine.stop h.recorded e (w, calls) =
      (((), e.stopped), (w₁, calls ++ removals)))
    (denies : h.Denies entry.path w₁ reason made) : ∃ e' w',
      (∀ calls, Engine.play h.recorded wanted e (w, calls) =
        ((.error (.resourceOpen entry.path.display reason), e'),
          (w', calls ++ removals ++ made))) ∧
      Halted e [] e' ∧ standing (callsOf turns ++ removals ++ made) = [] := by
  obtain ⟨w', tried⟩ := Engine.openSession_denied denies
  have ran (calls : List Call) : Engine.play h.recorded wanted e (w, calls) =
      ((.error (.resourceOpen entry.path.display reason), e.stopped),
        (w', calls ++ removals ++ made)) := by
    rw [Engine.play_target h.recorded target here (stops calls), tried]
  have takes : Takes h e ⟨.play wanted, .error (.resourceOpen entry.path.display reason),
      removals ++ made⟩ _ := ⟨w, w', ran []⟩
  have held := (run.turn takes).standing_perm
  rw [callsOf_append, callsOf_singleton, ← List.append_assoc] at held
  refine ⟨_, w', ran, ⟨rfl, rfl, rfl, rfl, rfl, ?_, rfl⟩, held.eq_nil⟩
  exact (List.append_nil _).symm

/-- What comes of a request to play, in every state that a new engine can reach and whatever the
host answers. An index that no entry has, or an empty playlist, is refused: the engine and the world
are the same and no call is made. Otherwise all streams are unregistered first, and then the entry
is opened that was asked for, or the current one, or the first. If its file opens and its stream is
registered, that is the one stream there is; it plays, and the entry is current. If either fails,
the engine is stopped and no stream is left. The entries stay. One of the two is the case. -/
theorem Run.play_contract (run : Run h (.new settings) turns e) (wanted : Option Nat) (w : ω) :
    (∀ i, wanted = some i → e.playlist.count ≤ i → ∀ calls,
      Engine.play h.recorded wanted e (w, calls) =
        ((.error (.indexOutOfRange i e.playlist.count), e), (w, calls))) ∧
    (wanted = none → e.playlist.count = 0 → ∀ calls,
      Engine.play h.recorded wanted e (w, calls) = ((.error .emptyPlaylist, e), (w, calls))) ∧
    (0 < e.playlist.count → (∀ i, wanted = some i → i < e.playlist.count) →
      ∃ entry w₁ removals,
        e.playlist.entry? (wanted.getD (e.playlist.current.getD 0)) = some entry ∧
        (∀ calls, Engine.stop h.recorded e (w, calls) =
          (((), e.stopped), (w₁, calls ++ removals))) ∧
        Clears (callsOf turns) removals ∧
        (∀ file stream, h.Offers entry.path w₁ file stream → ∃ e' w' made,
          made = [.opened entry.path (some file), .added stream, .played stream] ∧
          (∀ calls, Engine.play h.recorded wanted e (w, calls) =
            ((.ok (), e'), (w', calls ++ removals ++ made))) ∧
          Sounds e (wanted.getD (e.playlist.current.getD 0)) ⟨stream, file, entry.serial⟩ e' ∧
          standing (callsOf turns ++ removals ++ made) = [stream] ∧
          lastOrder stream (callsOf turns ++ removals ++ made) = some true) ∧
        (∀ reason made, h.Denies entry.path w₁ reason made → ∃ e' w',
          (∀ calls, Engine.play h.recorded wanted e (w, calls) =
            ((.error (.resourceOpen entry.path.display reason), e'),
              (w', calls ++ removals ++ made))) ∧
          Halted e [] e' ∧ standing (callsOf turns ++ removals ++ made) = []) ∧
        ((∃ file stream, h.Offers entry.path w₁ file stream) ∨
          ∃ reason made, h.Denies entry.path w₁ reason made)) := by
  refine ⟨fun i given outside calls => ?_, fun resumed empty calls => ?_,
    fun some_entry inside => ?_⟩
  · rw [Engine.play_eq, given, Engine.playTarget_outside outside]
    rfl
  · rw [Engine.play_eq, resumed, Engine.playTarget_empty empty]
  · have target := Engine.playTarget_wanted run.coherent.current_valid some_entry inside
    have here := List.getElem?_eq_getElem (Engine.playTarget_lt target)
    obtain ⟨⟨⟩, _, w₁, removals, stops, rfl, rfl⟩ := Engine.stop_performs h e w
    exact ⟨_, w₁, _, here, stops, run.stopping_clears,
      fun file stream offers => run.plays_offered target here stops offers,
      fun reason made denies => run.halts_denied target here stops denies,
      Host.offers_or_denies h _ w₁⟩

end

/-- A world in which the second track does not open. -/
def secondBroken : Rehearsal := ⟨1, 1, [⟨[98]⟩], .playing, false⟩

/-- While the first of three tracks is paused: a fourth is refused, the third is played, and for the
second playback is stopped. -/
theorem trackPaused_play_contract :
    Run .rehearsed (.new .default) trackPaused.1 trackPaused.2 ∧
    Engine.play Host.rehearsed.recorded (some 3) trackPaused.2 (secondBroken, []) =
      ((.error (.indexOutOfRange 3 3), trackPaused.2), (secondBroken, [])) ∧
    Engine.play Host.rehearsed.recorded none (.new .default) (secondBroken, []) =
      ((.error .emptyPlaylist, .new .default), (secondBroken, [])) ∧
    (∃ e' w' removals made, Clears (callsOf trackPaused.1) removals ∧
      Engine.play Host.rehearsed.recorded (some 2) trackPaused.2 (secondBroken, []) =
        ((.ok (), e'), (w', [] ++ removals ++ made)) ∧
      Sounds trackPaused.2 2 ⟨⟨1⟩, ⟨1⟩, 2⟩ e' ∧
      standing (callsOf trackPaused.1 ++ removals ++ made) = [⟨1⟩]) ∧
    ∃ e' w' removals made, Clears (callsOf trackPaused.1) removals ∧
      Engine.play Host.rehearsed.recorded (some 1) trackPaused.2 (secondBroken, []) =
        ((.error (.resourceOpen (Path.display ⟨[98]⟩) (Fault.media "broken").message), e'),
          (w', [] ++ removals ++ made)) ∧
      Halted trackPaused.2 [] e' ∧ standing (callsOf trackPaused.1 ++ removals ++ made) = [] := by
  have run : Run .rehearsed (.new .default) trackPaused.1 trackPaused.2 := rehearse_run _
  have count : trackPaused.2.playlist.count = 3 := by decide +kernel
  have quiet : (Engine.stop Host.rehearsed.recorded trackPaused.2 (secondBroken, [])).2.1 =
      secondBroken := by decide +kernel
  obtain ⟨outside, -, -⟩ := Run.play_contract run (some 3) secondBroken
  obtain ⟨-, empty, -⟩ := Run.play_contract (.start : Run .rehearsed (.new .default) [] _) none
    secondBroken
  obtain ⟨-, -, third⟩ := Run.play_contract run (some 2) secondBroken
  obtain ⟨-, -, second⟩ := Run.play_contract run (some 1) secondBroken
  rw [count] at outside
  refine ⟨run, outside 3 rfl (Nat.le_refl 3) [], empty rfl rfl [], ?_, ?_⟩
  · obtain ⟨entry, w₁, removals, here, stops, clears, offered, -, -⟩ :=
      third (by omega) (by rintro _ ⟨⟩; omega)
    obtain rfl : w₁ = secondBroken := by rw [stops []] at quiet; exact quiet
    obtain rfl : entry = ⟨⟨[99]⟩, none, 2⟩ := by
      refine Option.some.inj (here.symm.trans ?_)
      decide +kernel
    obtain ⟨e', w', made, -, ran, sounds, one, -⟩ := offered ⟨1⟩ ⟨1⟩ ⟨_, _, _, rfl, rfl⟩
    exact ⟨e', w', removals, made, clears, ran [], sounds, one⟩
  · obtain ⟨entry, w₁, removals, here, stops, clears, -, denied, -⟩ :=
      second (by omega) (by rintro _ ⟨⟩; omega)
    obtain rfl : w₁ = secondBroken := by rw [stops []] at quiet; exact quiet
    obtain rfl : entry = ⟨⟨[98]⟩, none, 1⟩ := by
      refine Option.some.inj (here.symm.trans ?_)
      decide +kernel
    have denies : Host.rehearsed.Denies ⟨[98]⟩ secondBroken (Fault.media "broken").message
        [.opened ⟨[98]⟩ none] := .closed rfl
    obtain ⟨e', w', ran, halted, none_left⟩ := denied _ _ denies
    exact ⟨e', w', removals, _, clears, ran [], halted, none_left⟩

end Jukebox.Playback
