import Mathlib.Data.List.Nodup
import Jukebox.Proofs.Playback.Draining
import Jukebox.Proofs.Playback.Unattended
/-!
# Moving to a neighbour

`next`, `prev` and a pass of the watcher move on from the current entry. The host may answer each
call as it likes, and the same call differently from one time to the next. Whatever it answers, the
entries beyond the current one are tried from the nearest on, each once, up to the first one whose
file opens and whose stream is registered. `Explored` says what is left behind by such tries; those
that fail leave nothing.
-/
namespace Jukebox.Playback

open Storage (Path)

/-- The indices beyond one, nearest first. -/
def Direction.ahead (d : Direction) (index count : Nat) : List Nat :=
  match d with
  | .forward => List.Ico (index + 1) count
  | .backward => (List.range index).reverse

/-- The tries of entries that all fail, in order. -/
def misses (entries : List Entry) (indices : List Nat) : List (Path × Bool) :=
  indices.filterMap (trial? (fun _ => false) entries)

/-- What comes of trying entries in an order: all tries fail up to one entry, which becomes current
and is played, or all fail and nothing is current. -/
inductive Explored (entries : List Entry) (indices : List Nat) (e' : Engine) (made : List Call) :
    Prop
  | found {before after : List Nat} {j : Nat} {entry : Entry} {s : Session}
      (split : indices = before ++ j :: after) (here : entries[j]? = some entry)
      (tried : tries made = misses entries before ++ [(entry.path, true)])
      (added : addedIn made = [s.stream]) (opened : OpenedFor made entry s)
      (same : s.serial = entry.serial) (index : e'.playlist.current = some j)
      (current : e'.current = some s) (plays : e'.state = .playing)
  | exhausted (tried : tries made = misses entries indices) (added : addedIn made = [])
      (index : e'.playlist.current = none) (current : e'.current = none)
      (halted : e'.state = .stopped)

/-- A turn that moves on from the current entry in a direction, and whether its session is kept to
be played out. -/
inductive Turn.Moves (t : Turn) : Direction → Bool → Prop
  | next (named : t.command = .next) : Moves t .forward false
  | prev (named : t.command = .prev) : Moves t .backward false
  | passed (advances : t.Advances) : Moves t .forward true

/-- An index does not lie beyond itself, and none lies there twice. -/
theorem Direction.ahead_nodup (d : Direction) (index count : Nat) :
    (index :: d.ahead index count).Nodup := by
  cases d with
  | forward =>
    refine List.nodup_cons.mpr ⟨fun there => ?_, List.Ico.nodup _ _⟩
    exact Nat.not_succ_le_self index (List.Ico.mem.mp there).1
  | backward =>
    refine List.nodup_cons.mpr ⟨fun there => ?_, List.nodup_reverse.mpr List.nodup_range⟩
    exact Nat.lt_irrefl index (List.mem_range.mp (List.mem_reverse.mp there))

/-- The entries beyond the current one are those that the engine tries. -/
theorem Direction.candidates_eq_ahead (d : Direction) {index count : Nat} (inside : index < count) :
    d.candidates index count = d.ahead index count := by
  cases d with
  | forward => exact candidates_forward index count
  | backward => exact if_pos inside.le

theorem pause_not_dropped (p : StreamId) (s : Option Session) : .paused p ∉ dropped s := by
  cases s <;> simp

theorem OpenedFor.after {calls : List Call} {entry : Entry} {s : Session}
    (opened : OpenedFor calls entry s) (first : List Call) : OpenedFor (first ++ calls) entry s :=
  opened.trans (List.suffix_append first calls).isInfix

theorem misses_cons (entries : List Entry) (index : Nat) (rest : List Nat) :
    misses entries (index :: rest) = misses entries [index] ++ misses entries rest := by
  rw [misses, misses, ← List.singleton_append, List.filterMap_append]
  rfl

namespace Explored

variable {entries : List Entry} {indices : List Nat} {e' : Engine} {first made : List Call}

/-- Calls that try and register nothing may come first. -/
theorem after (quiet : ∀ more, tries (first ++ more) = tries more) (adds : addedIn first = [])
    (explored : Explored entries indices e' made) :
    Explored entries indices e' (first ++ made) := by
  have added : addedIn (first ++ made) = addedIn made := by
    rw [addedIn_append, adds, List.nil_append]
  cases explored with
  | found split here tried one opened same index current plays =>
    exact .found split here ((quiet made).trans tried) (added.trans one) (opened.after first) same
      index current plays
  | exhausted tried nothing index current halted =>
    exact .exhausted ((quiet made).trans tried) (added.trans nothing) index current halted

/-- So may a try that fails. -/
theorem miss {index : Nat}
    (fails : ∀ more, tries (first ++ more) = misses entries [index] ++ tries more)
    (adds : addedIn first = []) (explored : Explored entries indices e' made) :
    Explored entries (index :: indices) e' (first ++ made) := by
  have added : addedIn (first ++ made) = addedIn made := by
    rw [addedIn_append, adds, List.nil_append]
  cases explored with
  | @found before after j entry s split here tried one opened same current_index current plays =>
    have split' : index :: indices = (index :: before) ++ j :: after := congrArg (index :: ·) split
    refine .found split' here ?_ (added.trans one) (opened.after first) same current_index current
      plays
    rw [fails, tried, misses_cons entries index before, List.append_assoc]
  | exhausted tried nothing current_index current halted =>
    refine .exhausted ?_ (added.trans nothing) current_index current halted
    rw [fails, tried, ← misses_cons]

end Explored

namespace Engine

variable {e e' : Engine} {made : List Call}

/-- An entry that cannot be started is tried and nothing is registered. -/
theorem Starts.misses {index : Nat} {r : Refusal} (start : e.Starts index (.error r) e' made) :
    (∀ more, tries (made ++ more) = Playback.misses e.playlist.entries [index] ++ tries more) ∧
      addedIn made = [] := by
  cases start with
  | absent no =>
    have nothing : e.playlist.entries[index]? = none := no
    simp [Playback.misses, trial?, nothing]
  | unopened here reason =>
    have there : e.playlist.entries[index]? = some _ := here
    exact ⟨fun more => by simp [Playback.misses, trial?, there, tries], rfl⟩
  | refused here file reason =>
    have there : e.playlist.entries[index]? = some _ := here
    exact ⟨fun more => by simp [Playback.misses, trial?, there, tries, Call.added?], rfl⟩

/-- An entry that is started in an empty slot is the one that is found. -/
theorem Starts.found {index : Nat} (start : e.Starts index (.ok ()) e' made)
    (empty : e.current = none) (rest : List Nat) :
    e'.playlist.entries = e.playlist.entries ∧
      Explored e.playlist.entries (index :: rest) e' made := by
  cases start with
  | @started entry here file stream =>
    rw [empty, dropped_none, List.append_nil]
    have opened : OpenedFor [.opened entry.path (some file), .added stream, .played stream] entry
        ⟨stream, file, entry.serial⟩ := List.infix_rfl
    have split : index :: rest = [] ++ index :: rest := rfl
    exact ⟨rfl, .found split here rfl rfl opened rfl rfl rfl rfl⟩

theorem Scans.explored {indices : List Nat} (scan : e.Scans indices e' made)
    (empty : e.current = none) (no : e.playlist.current = none) :
    e'.playlist.entries = e.playlist.entries ∧
      Explored e.playlist.entries indices e' made := by
  induction scan with
  | exhausted =>
    have halted : e.state = .stopped := by rw [state, empty]
    exact ⟨rfl, .exhausted rfl rfl no empty halted⟩
  | passed start _ ih =>
    obtain ⟨fails, adds⟩ := start.misses
    exact ⟨ih.1, ih.2.miss fails adds⟩
  | found start => exact start.found empty _

/-- Moving on tries the entries beyond the current one and leaves its session, or none, behind. -/
theorem Advances.explored {d : Direction} {keep : Bool} {i : Nat}
    (advance : e.Advances d keep e' made) (index : e.playlist.current = some i)
    (inside : i < e.playlist.count) :
    e'.playlist.entries = e.playlist.entries ∧
      Explored e.playlist.entries (d.ahead i e.playlist.count) e' made ∧
      e'.previous = if keep then e.current else none := by
  cases advance with
  | idle no => rw [index] at no; cases no
  | moved here scan =>
    cases index.symm.trans here
    rw [d.candidates_eq_ahead inside] at scan
    obtain ⟨entries, explored⟩ := scan.explored rfl rfl
    exact ⟨entries, explored.after (e.tries_leaving keep) (e.addedIn_leaving keep), scan.previous⟩

/-- Without a current entry there is nothing to move on from. -/
theorem Advances.of_none {d : Direction} {keep : Bool} (advance : e.Advances d keep e' made)
    (no : e.playlist.current = none) : e' = e ∧ made = [] := by
  cases advance with
  | idle _ => exact ⟨rfl, rfl⟩
  | moved here _ => rw [no] at here; cases here

/-- Reclaiming and then moving on with the current session kept drops the session that was parked
before, and no other. -/
theorem Advances.removes {made' : List Call} {e₁ : Engine} {d : Direction}
    (reclaim : e.Reclaims e₁ made) (advance : e₁.Advances d true e' made')
    {i : Nat} (index : e₁.playlist.current = some i) :
    removedIn (made ++ made') = (e.previous.map Session.stream).toList := by
  cases advance with
  | idle no => rw [index] at no; cases no
  | moved here scan =>
    rw [removedIn_append, removedIn_append, scan.removes_none rfl, List.append_nil, leaving,
      if_pos rfl, List.append_nil, removedIn_dropped]
    cases reclaim with
    | empty no => simp [no]
    | waiting there => simp [there, Call.removed?]
    | drained there => simp [there, Call.removed?]

/-- A pass that finds the current file at its end reclaims and then moves on. -/
theorem Ticks.advanced {moved : Bool} (tick : e.Ticks moved e' made)
    (ended : ∃ file status, .askedStatus file status ∈ made ∧ status ≠ .playing) :
    ∃ e₁ first more s status, e.Reclaims e₁ first ∧ e.current = some s ∧
      e₁.Advances .forward true e' more ∧ made = first ++ .askedStatus s.file status :: more := by
  obtain ⟨file, status, there, halted⟩ := ended
  cases tick with
  | idle reclaim no => cases reclaim <;> simp at there
  | playing reclaim current =>
    have asked : status = .playing := by
      cases reclaim <;> simp at there <;> exact there.2
    exact absurd asked halted
  | finished reclaim current ended advance => exact ⟨_, _, _, _, _, reclaim, current, advance, rfl⟩

/-- Such a pass keeps the current session and drops the one that was parked. -/
theorem Ticks.explored {moved : Bool} {i : Nat} (tick : e.Ticks moved e' made)
    (ended : ∃ file status, .askedStatus file status ∈ made ∧ status ≠ .playing)
    (index : e.playlist.current = some i) (inside : i < e.playlist.count) :
    e'.playlist.entries = e.playlist.entries ∧
      Explored e.playlist.entries (Direction.ahead .forward i e.playlist.count) e' made ∧
      e'.previous = e.current ∧
      removedIn made = (e.previous.map Session.stream).toList := by
  obtain ⟨e₁, first, more, s, status, reclaim, current, advance, rfl⟩ := tick.advanced ended
  rw [← reclaim.playlist] at index inside ⊢
  obtain ⟨entries, explored, previous⟩ := advance.explored index inside
  refine ⟨entries, ?_, previous.trans reclaim.current, ?_⟩
  · rw [List.append_cons]
    refine explored.after (fun later => ?_) ?_
    · rw [List.append_assoc, reclaim.tries]
      rfl
    · rw [addedIn_append, reclaim.addedIn]
      rfl
  · have removed := advance.removes reclaim index
    rw [removedIn_append] at removed ⊢
    exact removed

/-- Nothing is held back by starting an entry, by moving on or by a pass. -/
theorem Starts.no_pause {index : Nat} {r : Except Refusal Unit} {p : StreamId}
    (start : e.Starts index r e' made) : .paused p ∉ made := by
  cases start with
  | absent no => exact List.not_mem_nil
  | unopened here reason => simp
  | refused here file reason => simp
  | started here file stream => simp [pause_not_dropped]

theorem Scans.no_pause {indices : List Nat} {p : StreamId} (scan : e.Scans indices e' made) :
    .paused p ∉ made := by
  induction scan with
  | exhausted => exact List.not_mem_nil
  | passed start _ ih => exact List.not_mem_append start.no_pause ih
  | found start => exact start.no_pause

theorem Ticks.no_pause {moved : Bool} {p : StreamId} (tick : e.Ticks moved e' made) :
    .paused p ∉ made := by
  have reclaiming {e₁ : Engine} {first : List Call} (reclaim : e.Reclaims e₁ first) :
      .paused p ∉ first := by
    cases reclaim <;> simp
  cases tick with
  | idle reclaim no => exact reclaiming reclaim
  | playing reclaim there => exact List.not_mem_append (reclaiming reclaim) (by simp)
  | finished reclaim there ended advance =>
    refine List.not_mem_append (reclaiming reclaim)
      (List.not_mem_cons_of_ne_of_not_mem (by simp) ?_)
    cases advance with
    | idle no => exact List.not_mem_nil
    | moved here scan =>
      exact List.not_mem_append (by simp [leaving, pause_not_dropped]) scan.no_pause

end Engine

section

variable {ω : Type} {h : Host ω} {settings : Config.Music} {e e' : Engine} {turns : List Turn}
  {t : Turn}

/-- What moving on comes to, whichever turn it is. -/
theorem Effect.explored {i : Nat} {d : Direction} {keep : Bool}
    (effect : Effect e t.command t.result e' t.calls) (moves : t.Moves d keep)
    (index : e.playlist.current = some i) (inside : i < e.playlist.count) :
    e'.playlist.entries = e.playlist.entries ∧
      Explored e.playlist.entries (d.ahead i e.playlist.count) e' t.calls ∧
      e'.previous = if keep then e.current else none := by
  obtain ⟨command, result, made⟩ := t
  cases moves with
  | next named =>
    cases named
    cases effect with
    | next advances => exact advances.explored index inside
  | prev named =>
    cases named
    cases effect with
    | prev advances => exact advances.explored index inside
  | passed advances =>
    obtain ⟨named, ended⟩ := advances
    cases named
    cases effect with
    | tick ticks =>
      obtain ⟨entries, explored, previous, _⟩ := ticks.explored ended index inside
      exact ⟨entries, explored, previous⟩

/-- A pass that moves on makes no call to hold a stream, and unregisters the one that was parked. -/
theorem Effect.passes (effect : Effect e t.command t.result e' t.calls) (advances : t.Advances)
    {i : Nat} (index : e.playlist.current = some i) (inside : i < e.playlist.count) :
    (∀ p, .paused p ∉ t.calls) ∧
      removedIn t.calls = (e.previous.map Session.stream).toList := by
  obtain ⟨command, result, made⟩ := t
  obtain ⟨named, ended⟩ := advances
  cases named
  cases effect with
  | tick ticks =>
    exact ⟨fun p => ticks.no_pause, (ticks.explored ended index inside).2.2.2⟩

/-- A pass moves on only from a current session. -/
theorem Effect.passes_from (effect : Effect e t.command t.result e' t.calls)
    (advances : t.Advances) : ∃ s, e.current = some s := by
  obtain ⟨command, result, made⟩ := t
  obtain ⟨named, ended⟩ := advances
  cases named
  cases effect with
  | tick ticks =>
    obtain ⟨_, _, _, s, _, _, current, _⟩ := ticks.advanced ended
    exact ⟨s, current⟩

/-- The session that a run leaves parked has a registration that is not undone. -/
theorem Run.previous_live {p : Session} (run : Run h (.new settings) turns e)
    (parked : e.previous = some p) : Live (callsOf turns) none p.stream := by
  have counts := run.balanced p.stream
  have held : 0 < e.held.count p.stream := by
    simp [Engine.held_eq, parked]
  simp only [Live, Option.map_none, Option.toList_none, List.count_nil] at counts ⊢
  omega

/-- In every state that a new engine can reach, and whatever the host answers: `next`, `prev` and a
pass that finds the current file at its end try the entries beyond the current one, nearest first,
each once and the current one never, up to the first that opens and whose stream is registered. That
one becomes current and plays; if there is none, nothing is current and the engine is stopped. The
entries stay. After `next` and `prev` no session is parked, and without a current entry they do
nothing at all. After a pass the session that was current is parked, still registered: the pass
gives no order to hold a stream and unregisters only the one that was parked before. -/
theorem Run.explores (run : Run h (.new settings) turns e) (takes : Takes h e t e') :
    (∀ d keep i, t.Moves d keep → e.playlist.current = some i →
      e'.playlist.entries = e.playlist.entries ∧
      (i :: d.ahead i e.playlist.count).Nodup ∧
      Explored e.playlist.entries (d.ahead i e.playlist.count) e' t.calls ∧
      e'.previous = if keep then e.current else none) ∧
    (∀ d, t.Moves d false → e.playlist.current = none → e' = e ∧ t.calls = []) ∧
    (t.Advances → ∃ i s, e.playlist.current = some i ∧ e.current = some s ∧
      e'.previous = some s ∧ (∀ p, .paused p ∉ t.calls) ∧
      removedIn t.calls = (e.previous.map Session.stream).toList ∧
      Live (callsOf turns ++ t.calls) none s.stream ∧
      ((addedIn (callsOf turns ++ t.calls)).Nodup →
        s.stream ∈ registeredIn (callsOf turns ++ t.calls) ∧ .removed s.stream ∉ t.calls)) := by
  have coh := run.coherent
  have effect := takes.effect
  refine ⟨fun d keep i moves index => ?_, fun d moves no => ?_, fun advances => ?_⟩
  · obtain ⟨entries, explored, previous⟩ := effect.explored moves index (coh.current_valid i index)
    exact ⟨entries, d.ahead_nodup i _, explored, previous⟩
  · obtain ⟨command, result, made⟩ := t
    cases moves with
    | next named =>
      cases named
      cases effect with
      | next advances => exact advances.of_none no
    | prev named =>
      cases named
      cases effect with
      | prev advances => exact advances.of_none no
  · obtain ⟨s, current⟩ := effect.passes_from advances
    obtain ⟨i, index⟩ := coh.index_iff.mpr ⟨s, current⟩
    have inside := coh.current_valid i index
    obtain ⟨no_pause, removed⟩ := effect.passes advances index inside
    have parked : e'.previous = some s := by
      rw [(effect.explored (.passed advances) index inside).2.2, if_pos rfl, current]
    have live := (run.turn takes).previous_live parked
    rw [callsOf_append, callsOf_singleton] at live
    refine ⟨i, s, index, current, parked, no_pause, removed, live, fun fresh => ?_⟩
    obtain ⟨added, kept, _⟩ := live.of_fresh fresh
    refine ⟨List.mem_filter.mpr ⟨added, decide_eq_true kept⟩, fun gone => kept ?_⟩
    rw [removedIn_append]
    exact List.mem_append_right _ (mem_removedIn.mpr gone)

end

/-- From the third entry back to the first, over the one that does not open. -/
def shelfBack : Turn × Engine := act .rehearsed .prev (creaking 2 .playing) shelfMoved.2

def shelfIdle : Turn × Engine := act .rehearsed .next (creaking 0 .playing) shelf

theorem shelf_explores :
    (∃ s, shelfPlayed.2.current = some s ∧ shelfMoved.2.previous = some s ∧
      .removed s.stream ∉ shelfMoved.1.calls) ∧
    (Explored shelfMoved.2.playlist.entries [1, 0] shelfBack.2 shelfBack.1.calls ∧
      shelfBack.2.previous = none ∧ shelfBack.2.playlist.current = some 0) ∧
    shelfIdle.2 = shelf ∧ shelfIdle.1.calls = [] := by
  have shelved : Run .rehearsed (.new .default) _ shelf := rehearse_run _
  have played : Run .rehearsed (.new .default) _ shelfPlayed.2 := shelved.turn (act_takes ..)
  have moves : Takes .rehearsed shelfPlayed.2 shelfMoved.1 shelfMoved.2 := act_takes ..
  have back : Takes .rehearsed shelfMoved.2 shelfBack.1 shelfBack.2 := act_takes ..
  have idles : Takes .rehearsed shelf shelfIdle.1 shelfIdle.2 := act_takes ..
  have advances : shelfMoved.1.Advances := ⟨rfl, ⟨0⟩, .ended, by decide +kernel, by decide⟩
  obtain ⟨_, s, _, current, parked, _, _, _, registered⟩ :=
    (Run.explores played moves).2.2 advances
  have fresh : (addedIn (callsOf ((rehearse [(.add (.ofString "a.mp3") none, creaking 0 .playing),
      (.add (.ofString "b.mp3") none, creaking 0 .playing),
      (.add (.ofString "c.mp3") none, creaking 0 .playing)]).1 ++ [shelfPlayed.1]) ++
      shelfMoved.1.calls)).Nodup := by decide +kernel
  obtain ⟨_, _, explored, previous⟩ :=
    (Run.explores (played.turn moves) back).1 .backward false 2 (.prev rfl) (by decide +kernel)
  exact ⟨⟨s, current, parked, (registered fresh).2⟩,
    ⟨explored, previous, by decide +kernel⟩,
    (Run.explores shelved idles).2.1 .forward (.next rfl) (by decide +kernel)⟩

end Jukebox.Playback
