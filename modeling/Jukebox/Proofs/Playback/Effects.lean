import Jukebox.Proofs.Playback.Entries
import Jukebox.Proofs.Playback.Section
/-!
# What the sections do

For each section of the engine, the engines it can leave and the calls it can make, over all answers
of the host. Sections that try several entries are told as relations that follow the tries one by
one; the others as the one engine and the calls that result. Later arguments use these and leave the
sections closed.
-/
namespace Jukebox.Playback

open Storage

/-- Calls made when a slot is emptied. -/
def dropped : Option Session → List Call
  | none => []
  | some s => [.removed s.stream]

@[simp] theorem dropped_none : dropped none = [] := rfl

@[simp] theorem dropped_some (s : Session) : dropped (some s) = [.removed s.stream] := rfl

namespace Engine

def stopped (e : Engine) : Engine :=
  { e with
    playing := false
    current := none
    previous := none
    playlist := e.playlist.clearCurrent }

/-- The engine after an entry was started in an empty slot. -/
def landed (e : Engine) (index : Nat) (s : Session) : Engine :=
  { e with
    current := some s
    playing := true
    playlist := { e.playlist with current := some index } }

def left (e : Engine) (keep : Bool) : Engine :=
  { e with
    playing := false
    current := none
    previous := if keep then e.current else none
    playlist := e.playlist.clearCurrent }

def erased (e : Engine) (index : Nat) : Engine :=
  { e with playlist := e.playlist.erase index }

/-- The engine after it was stopped and its playlist emptied. -/
def flushed (e : Engine) : Engine :=
  { e.stopped with playlist := e.playlist.clear }

/-- Calls made when the current session is left. -/
def leaving (e : Engine) (keep : Bool) : List Call :=
  dropped e.previous ++ if keep then [] else dropped e.current

/-- Starting an entry. The file may not open and the stream may be refused. -/
inductive Starts (e : Engine) (index : Nat) : Except Refusal Unit → Engine → List Call → Prop
  | absent (no : e.playlist.entry? index = none) :
      Starts e index (.error (e.playlist.outOfRange index)) e []
  | unopened {entry : Entry} (here : e.playlist.entry? index = some entry) (reason : String) :
      Starts e index (.error (.resourceOpen entry.path.display reason)) e [.opened entry.path none]
  | refused {entry : Entry} (here : e.playlist.entry? index = some entry) (file : FileId)
      (reason : String) :
      Starts e index (.error (.resourceOpen entry.path.display reason)) e
        [.opened entry.path (some file), .refused]
  | started {entry : Entry} (here : e.playlist.entry? index = some entry) (file : FileId)
      (stream : StreamId) :
      Starts e index (.ok ()) (e.landed index ⟨stream, file, entry.serial⟩)
        ([.opened entry.path (some file), .added stream, .played stream] ++ dropped e.current)

inductive Scans (e : Engine) : List Nat → Engine → List Call → Prop
  | exhausted : Scans e [] e []
  | passed {index : Nat} {rest : List Nat} {r : Refusal} {e' : Engine} {made more : List Call} :
      Starts e index (.error r) e made → Scans e rest e' more →
      Scans e (index :: rest) e' (made ++ more)
  | found {index : Nat} {rest : List Nat} {e' : Engine} {made : List Call} :
      Starts e index (.ok ()) e' made → Scans e (index :: rest) e' made

inductive Advances (d : Direction) (keep : Bool) (e : Engine) : Engine → List Call → Prop
  | idle (no : e.playlist.current = none) : Advances d keep e e []
  | moved {index : Nat} {e' : Engine} {made : List Call}
      (here : e.playlist.current = some index)
      (scan : Scans (e.left keep) (d.candidates index e.playlist.count) e' made) :
      Advances d keep e e' (e.leaving keep ++ made)

/-- Asking for the previous session and dropping it once it is played out. -/
inductive Reclaims (e : Engine) : Engine → List Call → Prop
  | empty (no : e.previous = none) : Reclaims e e []
  | waiting {s : Session} (there : e.previous = some s) :
      Reclaims e e [.askedDrained s.stream false]
  | drained {s : Session} (there : e.previous = some s) :
      Reclaims e { e with previous := none } [.askedDrained s.stream true, .removed s.stream]

inductive Ticks (e : Engine) : Bool → Engine → List Call → Prop
  | idle {e' : Engine} {made : List Call} (reclaim : Reclaims e e' made) (no : e.current = none) :
      Ticks e false e' made
  | playing {e' : Engine} {made : List Call} {s : Session} (reclaim : Reclaims e e' made)
      (there : e.current = some s) :
      Ticks e false e' (made ++ [.askedStatus s.file .playing])
  | finished {e' e'' : Engine} {made more : List Call} {s : Session} {status : FileStatus}
      (reclaim : Reclaims e e' made) (there : e.current = some s) (ended : status ≠ .playing)
      (advance : Advances .forward true e' e'' more) :
      Ticks e true e'' (made ++ .askedStatus s.file status :: more)

inductive Removes (e : Engine) (index : Nat) : Except Refusal Unit → Engine → List Call → Prop
  | absent (outside : e.playlist.count ≤ index) :
      Removes e index (.error (e.playlist.outOfRange index)) e []
  | current (inside : index < e.playlist.count) (here : e.playlist.current = some index) :
      Removes e index (.ok ()) (e.stopped.erased index) (dropped e.current ++ dropped e.previous)
  | other (inside : index < e.playlist.count) (elsewhere : e.playlist.current ≠ some index) :
      Removes e index (.ok ()) (e.erased index) []

inductive Plays (e : Engine) (index : Option Nat) :
    Except Refusal Unit → Engine → List Call → Prop
  | refused {r : Refusal} (no : e.playTarget index = .error r) : Plays e index (.error r) e []
  | tried {i : Nat} {r : Except Refusal Unit} {e' : Engine} {made : List Call}
      (target : e.playTarget index = .ok i) (start : Starts e.stopped i r e' made) :
      Plays e index r e' (dropped e.current ++ dropped e.previous ++ made)

inductive Toggles (e : Engine) : Engine → List Call → Prop
  | idle (no : e.current = none) : Toggles e e []
  | paused {s : Session} (there : e.current = some s) (on : e.playing = true) :
      Toggles e { e with playing := false } [.paused s.stream]
  | resumed {s : Session} (there : e.current = some s) (off : e.playing = false) :
      Toggles e { e with playing := true } [.played s.stream]

/-- A failed try leaves the engine as it was. -/
theorem Starts.failed {e e' : Engine} {index : Nat} {r : Refusal} {made : List Call}
    (start : Starts e index (.error r) e' made) : e' = e := by
  cases start <;> rfl

/-- Reclaiming the previous session leaves the current one alone. -/
theorem Reclaims.current {e e' : Engine} {made : List Call} (reclaim : Reclaims e e' made) :
    e'.current = e.current := by
  cases reclaim <;> rfl

/-- A given index is the one that is played. -/
theorem playTarget_given {e : Engine} {index : Nat} (inside : index < e.playlist.count) :
    e.playTarget (some index) = .ok index := by
  rw [playTarget, Playlist.check_of_lt inside]
  rfl

/-- A given index that no entry has is refused. -/
theorem playTarget_outside {e : Engine} {index : Nat} (outside : e.playlist.count ≤ index) :
    e.playTarget (some index) = .error (e.playlist.outOfRange index) := by
  rw [playTarget, Playlist.check_of_le outside]
  rfl

/-- An empty playlist has nothing to play. -/
theorem playTarget_empty {e : Engine} (empty : e.playlist.count = 0) :
    e.playTarget none = .error .emptyPlaylist :=
  if_pos empty

/-- Without a given index the current entry is played, or the first one. -/
theorem playTarget_resumed {e : Engine} (valid : e.playlist.CurrentValid)
    (some_entry : 0 < e.playlist.count) :
    e.playTarget none = .ok (e.playlist.current.getD 0) := by
  have inside : e.playlist.current.getD 0 < e.playlist.count := by
    cases current : e.playlist.current with
    | none => exact some_entry
    | some i => exact valid i current
  unfold playTarget
  simp only [if_neg (Nat.ne_of_gt some_entry), Playlist.check_of_lt inside]
  rfl

/-- An index that passed the check is the index of an entry. -/
theorem checked {p : Playlist} {i j : Nat} (passed : (p.check j).map (fun _ => j) = .ok i) :
    i = j ∧ i < p.count := by
  cases check : p.check j with
  | ok =>
    rw [check] at passed
    cases passed
    exact ⟨rfl, Playlist.lt_of_check check⟩
  | error r =>
    rw [check] at passed
    cases passed

/-- What is played is the index of an entry. -/
theorem playTarget_lt {e : Engine} {index : Option Nat} {i : Nat}
    (target : e.playTarget index = .ok i) : i < e.playlist.count := by
  unfold playTarget at target
  cases index with
  | some index => exact (checked target).2
  | none =>
    by_cases empty : e.playlist.count = 0
    · rw [if_pos empty] at target
      cases target
    · rw [if_neg empty] at target
      exact (checked target).2

theorem playTarget_eq {e : Engine} {index i : Nat} (target : e.playTarget (some index) = .ok i) :
    i = index :=
  (checked target).1

variable {ω : Type} (h : Host ω) (e : Engine)

theorem openFile_performs (p : Path) :
    Performs (liftM (h.recorded.openFile p) : Recorded ω _) e fun r e' made =>
      e' = e ∧ ((∃ f, r = .error f ∧ made = [.opened p none]) ∨
        ∃ file format, r = .ok (file, format) ∧ made = [.opened p (some file)]) := by
  simp only [Host.recorded]
  refine Performs.imp (Performs.call (h.openFile p) _) ?_
  rintro (f | ⟨file, format⟩) _ _ ⟨rfl, rfl⟩
  · exact ⟨rfl, Or.inl ⟨f, rfl, rfl⟩⟩
  · exact ⟨rfl, Or.inr ⟨file, format, rfl, rfl⟩⟩

theorem addStream_performs (file : FileId) (format : Format) :
    Performs (liftM (h.recorded.addStream file format) : Recorded ω _) e fun r e' made =>
      e' = e ∧ ((∃ f, r = .error f ∧ made = [.refused]) ∨
        ∃ stream, r = .ok stream ∧ made = [.added stream]) := by
  simp only [Host.recorded]
  refine Performs.imp (Performs.call (h.addStream file format) _) ?_
  rintro (f | stream) _ _ ⟨rfl, rfl⟩
  · exact ⟨rfl, Or.inl ⟨f, rfl, rfl⟩⟩
  · exact ⟨rfl, Or.inr ⟨stream, rfl, rfl⟩⟩

theorem playStream_performs (s : StreamId) :
    Performs (liftM (h.recorded.playStream s) : Recorded ω _) e fun _ e' made =>
      e' = e ∧ made = [.played s] :=
  Performs.call (h.playStream s) fun _ => [.played s]

theorem pauseStream_performs (s : StreamId) :
    Performs (liftM (h.recorded.pauseStream s) : Recorded ω _) e fun _ e' made =>
      e' = e ∧ made = [.paused s] :=
  Performs.call (h.pauseStream s) fun _ => [.paused s]

theorem isDrained_performs (s : StreamId) :
    Performs (liftM (h.recorded.isDrained s) : Recorded ω _) e fun d e' made =>
      e' = e ∧ made = [.askedDrained s d] :=
  Performs.call (h.isDrained s) fun d => [.askedDrained s d]

theorem statusOf_performs (file : FileId) :
    Performs (liftM (h.recorded.statusOf file) : Recorded ω _) e fun status e' made =>
      e' = e ∧ made = [.askedStatus file status] :=
  Performs.call (h.statusOf file) fun status => [.askedStatus file status]

theorem seek_call_performs (file : FileId) (secs : UInt64) :
    Performs (liftM (h.recorded.seek file secs) : Recorded ω _) e fun _ e' made =>
      e' = e ∧ made = [.sought file] :=
  Performs.call (h.seek file secs) fun _ => [.sought file]

theorem release_performs (s : Option Session) :
    Performs (liftM (release h.recorded s) : Recorded ω Unit) e fun _ e' made =>
      e' = e ∧ made = dropped s := by
  cases s with
  | none => exact Performs.result ⟨rfl, rfl⟩
  | some s => exact Performs.call (h.removeStream s.stream) fun _ => [.removed s.stream]

theorem putCurrent_performs (s : Option Session) :
    Performs (putCurrent h.recorded s) e fun _ e' made =>
      e' = { e with current := s } ∧ made = dropped e.current :=
  Performs.get_bind (Performs.set_bind (release_performs h _ e.current))

theorem putPrevious_performs (s : Option Session) :
    Performs (putPrevious h.recorded s) e fun _ e' made =>
      e' = { e with previous := s } ∧ made = dropped e.previous :=
  Performs.get_bind (Performs.set_bind (release_performs h _ e.previous))

theorem takeCurrent_performs :
    Performs (takeCurrent : Recorded ω (Option Session)) e fun s e' made =>
      s = e.current ∧ e' = { e with current := none } ∧ made = [] :=
  Performs.get_bind (Performs.set_bind (Performs.result ⟨rfl, rfl, rfl⟩))

theorem stop_performs :
    Performs (stop h.recorded) e fun _ e' made =>
      e' = e.stopped ∧ made = dropped e.current ++ dropped e.previous := by
  refine Performs.modify_bind ((putCurrent_performs h _ none).step fun _ => ?_)
  refine (putPrevious_performs h _ none).step fun _ => ?_
  exact Performs.modify_last ⟨rfl, by simp⟩

theorem dispose_performs :
    Performs (dispose h.recorded) e fun _ e' made =>
      e' = { e with current := none, previous := none } ∧
        made = dropped e.current ++ dropped e.previous := by
  refine (putCurrent_performs h e none).step fun _ => ?_
  refine (putPrevious_performs h _ none).imp ?_
  rintro _ _ _ ⟨rfl, rfl⟩
  exact ⟨rfl, rfl⟩

theorem leaveCurrent_performs (keep : Bool) :
    Performs (leaveCurrent h.recorded keep) e fun _ e' made =>
      e' = e.left keep ∧ made = e.leaving keep := by
  refine (putPrevious_performs h e none).step fun _ => ?_
  refine (takeCurrent_performs _).bind ?_
  rintro _ _ _ ⟨rfl, rfl, rfl⟩
  cases keep with
  | true =>
    refine (putPrevious_performs h _ _).step fun _ => ?_
    exact Performs.modify_last ⟨rfl, by simp [leaving]⟩
  | false =>
    refine (release_performs h _ _).step fun _ => ?_
    exact Performs.modify_last ⟨rfl, by simp [leaving]⟩

/-- Opening a session asks for the file first and for a stream only if the file opens. -/
theorem openSession_performs (entry : Entry) :
    Performs (liftM (openSession h.recorded entry) : Recorded ω (Except Refusal Session)) e
      fun r e' made => e' = e ∧
        ((∃ reason, r = .error (.resourceOpen entry.path.display reason) ∧
            made = [.opened entry.path none]) ∨
          (∃ reason file, r = .error (.resourceOpen entry.path.display reason) ∧
            made = [.opened entry.path (some file), .refused]) ∨
          ∃ file stream, r = .ok ⟨stream, file, entry.serial⟩ ∧
            made = [.opened entry.path (some file), .added stream, .played stream]) := by
  refine Performs.lift_bind ((openFile_performs h e entry.path).bind ?_)
  rintro _ _ _ ⟨rfl, ⟨f, rfl, rfl⟩ | ⟨file, format, rfl, rfl⟩⟩
  · exact Performs.result ⟨rfl, Or.inl ⟨f.message, rfl, rfl⟩⟩
  refine Performs.lift_bind ((addStream_performs h _ file format).bind ?_)
  rintro _ _ _ ⟨rfl, ⟨f, rfl, rfl⟩ | ⟨stream, rfl, rfl⟩⟩
  · exact Performs.result ⟨rfl, Or.inr (Or.inl ⟨f.message, file, rfl, rfl⟩)⟩
  refine Performs.lift_bind ((playStream_performs h _ stream).step fun _ => ?_)
  exact Performs.result ⟨rfl, Or.inr (Or.inr ⟨file, stream, rfl, rfl⟩)⟩

theorem start_performs (index : Nat) :
    Performs (start h.recorded index) e (Starts e index) := by
  refine Performs.get_bind ?_
  cases there : e.playlist.entry? index with
  | none => exact Performs.result (.absent there)
  | some entry =>
    refine (openSession_performs h e entry).bind ?_
    rintro r _ _ ⟨rfl, ⟨reason, rfl, rfl⟩ | ⟨reason, file, rfl, rfl⟩ | ⟨file, stream, rfl, rfl⟩⟩
    · exact Performs.result (.unopened there reason)
    · exact Performs.result (.refused there file reason)
    · refine (putCurrent_performs h _ _).step fun _ => ?_
      refine Performs.modify_bind (Performs.get_bind ?_)
      rw [Playlist.setCurrent_of_lt (Playlist.lt_count_of_entry there)]
      refine Performs.modify_bind (Performs.result ?_)
      rw [List.append_nil]
      exact Starts.started there file stream

theorem startFirst_performs (indices : List Nat) :
    Performs (startFirst h.recorded indices) e fun _ e' made => Scans e indices e' made := by
  induction indices generalizing e with
  | nil => exact Performs.result .exhausted
  | cons index rest ih =>
    refine (start_performs h e index).bind ?_
    rintro (r | ⟨⟩) e₁ made start
    · obtain rfl := start.failed
      exact (ih e₁).imp fun _ _ _ scan => .passed start scan
    · refine Performs.result ?_
      rw [List.append_nil]
      exact .found start

theorem advance_performs (d : Direction) (keep : Bool) :
    Performs (advance h.recorded d keep) e fun _ e' made => Advances d keep e e' made := by
  refine Performs.get_bind ?_
  cases here : e.playlist.current with
  | none => exact Performs.result (.idle here)
  | some index =>
    refine (leaveCurrent_performs h e keep).step fun _ => ?_
    refine Performs.get_bind ?_
    exact (startFirst_performs h _ _).imp fun _ _ _ scan => .moved here scan

theorem reclaim_performs :
    Performs (reclaim h.recorded) e fun _ e' made => Reclaims e e' made := by
  refine Performs.get_bind ?_
  cases there : e.previous with
  | none => exact Performs.result (.empty there)
  | some s =>
    refine (isDrained_performs h e s.stream).bind ?_
    rintro (_ | _) _ _ ⟨rfl, rfl⟩
    · exact Performs.result (.waiting there)
    · refine (putPrevious_performs h _ none).imp ?_
      rintro _ _ _ ⟨rfl, rfl⟩
      rw [there]
      exact .drained there

theorem isFinished_performs :
    Performs (isFinished h.recorded) e fun finished e' made => e' = e ∧
      ((e.current = none ∧ finished = false ∧ made = []) ∨
        ∃ s status, e.current = some s ∧ finished = decide (status ≠ .playing) ∧
          made = [.askedStatus s.file status]) := by
  refine Performs.get_bind ?_
  cases there : e.current with
  | none => exact Performs.result ⟨rfl, Or.inl ⟨rfl, rfl, rfl⟩⟩
  | some s =>
    refine (statusOf_performs h e s.file).bind ?_
    rintro status _ _ ⟨rfl, rfl⟩
    exact Performs.result ⟨rfl, Or.inr ⟨s, status, rfl, rfl, rfl⟩⟩

theorem tick_performs : Performs (tick h.recorded) e (Ticks e) := by
  refine (reclaim_performs h e).bind ?_
  rintro _ e₁ made reclaim
  refine (isFinished_performs h e₁).bind ?_
  rintro _ _ _ ⟨rfl, ⟨no, rfl, rfl⟩ | ⟨s, status, there, rfl, rfl⟩⟩
  · refine Performs.result ?_
    rw [List.append_nil, List.append_nil]
    exact .idle reclaim (reclaim.current ▸ no)
  · by_cases ended : status = .playing
    · subst ended
      refine Performs.result ?_
      rw [List.append_nil]
      exact .playing reclaim (reclaim.current ▸ there)
    · rw [decide_eq_true ended]
      refine (advance_performs h _ .forward true).bind ?_
      rintro _ e₂ more advance
      refine Performs.result ?_
      rw [List.append_nil]
      exact .finished reclaim (reclaim.current ▸ there) ended advance

theorem push_performs (path : Path) (tags : Option Library.Tags) :
    Performs (push path tags : Recorded ω Nat) e fun index e' made =>
      index = e.playlist.count ∧ e' = { e with playlist := e.playlist.push path tags } ∧
        made = [] :=
  Performs.get_bind (Performs.set_bind (Performs.result ⟨rfl, rfl, rfl⟩))

theorem remove_performs (index : Nat) :
    Performs (remove h.recorded index) e (Removes e index) := by
  refine Performs.get_bind ?_
  by_cases inside : index < e.playlist.count
  · rw [Playlist.check_of_lt inside]
    refine Performs.get_bind ?_
    by_cases here : e.playlist.current = some index
    · rw [if_pos here]
      refine (stop_performs h e).step fun _ => ?_
      refine Performs.get_bind ?_
      obtain ⟨a, removed⟩ := Playlist.remove_of_lt (p := e.stopped.playlist) inside
      rw [removed]
      refine Performs.modify_bind (Performs.result ?_)
      rw [List.append_nil]
      exact .current inside here
    · rw [if_neg here]
      refine Performs.get_bind ?_
      obtain ⟨a, removed⟩ := Playlist.remove_of_lt inside
      rw [removed]
      exact Performs.modify_bind (Performs.result (.other inside here))
  · have outside : e.playlist.count ≤ index := Nat.le_of_not_lt inside
    rw [Playlist.check_of_le outside]
    exact Performs.result (.absent outside)

theorem flush_performs :
    Performs (flush h.recorded) e fun _ e' made =>
      e' = e.flushed ∧ made = dropped e.current ++ dropped e.previous := by
  refine (stop_performs h e).step fun _ => ?_
  exact Performs.modify_last ⟨rfl, List.append_nil _⟩

theorem play_performs (index : Option Nat) :
    Performs (play h.recorded index) e (Plays e index) := by
  refine Performs.get_bind ?_
  cases target : e.playTarget index with
  | error r => exact Performs.result (.refused target)
  | ok i =>
    refine (stop_performs h e).step fun _ => ?_
    exact (start_performs h e.stopped i).imp fun _ _ _ start => .tried target start

/-- What is to be played is decided first, then playback is stopped and the entry started. -/
theorem play_eq (index : Option Nat) (w : ω) :
    play h index e w = match e.playTarget index with
      | .error r => ((.error r, e), w)
      | .ok i => start h i (stop h e w).1.2 (stop h e w).2 := by
  have unfolded : play h index e w = (match e.playTarget index with
      | .error r => pure (.error r)
      | .ok i => do
        stop h
        start h i : Section ω (Except Refusal Unit)) e w := rfl
  rw [unfolded]
  cases e.playTarget index <;> rfl

theorem togglePause_performs :
    Performs (togglePause h.recorded) e fun state e' made =>
      state = e'.state ∧ Toggles e e' made := by
  refine Performs.get_bind ?_
  rcases e with ⟨settings, playlist, _ | s, previous, playing⟩
  · exact Performs.get_bind (Performs.result ⟨rfl, .idle rfl⟩)
  cases playing with
  | true =>
    refine (pauseStream_performs h _ s.stream).step fun _ => ?_
    exact Performs.set_bind (Performs.get_bind (Performs.result ⟨rfl, .paused rfl rfl⟩))
  | false =>
    refine (playStream_performs h _ s.stream).step fun _ => ?_
    exact Performs.set_bind (Performs.get_bind (Performs.result ⟨rfl, .resumed rfl rfl⟩))

/-- Seeking needs a current file and leaves the engine alone. -/
theorem seek_performs (secs : UInt64) :
    Performs (seek h.recorded secs) e fun r e' made => e' = e ∧
      ((e.current = none ∧ r = .error .nothingPlaying ∧ made = []) ∨
        ∃ s, e.current = some s ∧ made = [.sought s.file]) := by
  refine Performs.get_bind ?_
  cases there : e.current with
  | none => exact Performs.result ⟨rfl, Or.inl ⟨rfl, rfl, rfl⟩⟩
  | some s =>
    refine (seek_call_performs h e s.file secs).bind ?_
    rintro (_ | _) _ _ ⟨rfl, rfl⟩
    · exact Performs.result ⟨rfl, Or.inr ⟨s, rfl, rfl⟩⟩
    · exact Performs.result ⟨rfl, Or.inr ⟨s, rfl, rfl⟩⟩

/-- Telling the status reads the open file and changes nothing. -/
theorem status_performs (picture : Bool) :
    Performs (status h.recorded picture) e fun _ e' made => e' = e ∧ made = [] := by
  refine Performs.get_bind ?_
  split
  · refine (Performs.call (h.positionOf _) fun _ => []).step fun _ => ?_
    refine (Performs.call (h.lengthOf _) fun _ => []).step fun _ => ?_
    exact Performs.result ⟨rfl, rfl⟩
  · exact Performs.result ⟨rfl, rfl⟩

end Engine

end Jukebox.Playback
