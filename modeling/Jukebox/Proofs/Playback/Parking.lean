import Jukebox.Proofs.Playback.Coherence
import Jukebox.Proofs.Playback.Streams
/-!
# The tail of a finished track

A pass of the watcher that finds the current file finished parks its session in the previous slot,
so that the output can play out what it has pulled. A parked session stays there until the output
reports it drained, or until a section ends or replaces playback. Such a section takes it out before
it asks the output for another stream.
-/
namespace Jukebox.Playback

/-- Whether a call asks the output for a new stream, with or without success. -/
def Call.registers : Call → Bool
  | .added _ => true
  | .refused => true
  | _ => false

def Call.stream? : Call → Option StreamId
  | .added s => some s
  | .played s => some s
  | .paused s => some s
  | .removed s => some s
  | .askedDrained s _ => some s
  | _ => none

/-- A stream is only unregistered while the output was not yet asked for a new one. -/
def RemovedFirst (s : StreamId) (calls : List Call) : Prop :=
  ∀ before after, calls = before ++ .removed s :: after → ∀ c ∈ before, c.registers = false

/-- A refusal of an index, or of an empty playlist. -/
def Refusal.ofIndex : Refusal → Prop
  | .indexOutOfRange _ _ => True
  | .emptyPlaylist => True
  | _ => False

/-- A turn that replaces or ends the playback of an engine. A pass of the watcher does so if it is
told that the current file is no longer playing. -/
def Turn.ends (t : Turn) (e : Engine) : Prop :=
  match t.command with
  | .stop | .flush => True
  | .play (some index) => index < e.playlist.count
  | .play none => 0 < e.playlist.count
  | .remove index => e.playlist.current = some index
  | .next | .prev => ∃ index, e.playlist.current = some index
  | .tick =>
    ∃ s status, e.current = some s ∧ status ≠ .playing ∧ .askedStatus s.file status ∈ t.calls
  | _ => False

/-- Playing an entry that exists replaces playback. -/
theorem Turn.ends_of_target {t : Turn} {e : Engine} {index : Option Nat} {i : Nat}
    (plays : t.command = .play index) (target : e.playTarget index = .ok i) : t.ends e := by
  rw [ends, plays]
  cases index with
  | some index =>
    have inside := Engine.playTarget_lt target
    rwa [Engine.playTarget_eq target] at inside
  | none => exact Nat.zero_lt_of_lt (Engine.playTarget_lt target)

/-- Calls that unregister streams come before those that ask for one. -/
def RemovalsFirst (calls : List Call) : Prop :=
  ∃ first rest, calls = first ++ rest ∧ (∀ c ∈ first, c.registers = false) ∧ removedIn rest = []

theorem RemovalsFirst.removedFirst {calls : List Call} (sorted : RemovalsFirst calls)
    (s : StreamId) : RemovedFirst s calls := by
  obtain ⟨first, rest, rfl, quiet, kept⟩ := sorted
  intro before after split c there
  rcases List.append_eq_append_iff.mp split.symm with ⟨more, here, _⟩ | ⟨more, _, here⟩
  · rw [here] at quiet
    exact quiet c (List.mem_append_left more there)
  · rw [here] at kept
    simp [Call.removed?] at kept

theorem RemovalsFirst.of_quiet {calls : List Call} (quiet : ∀ c ∈ calls, c.registers = false) :
    RemovalsFirst calls :=
  ⟨calls, [], (List.append_nil calls).symm, quiet, rfl⟩

theorem RemovalsFirst.after {calls more : List Call} (quiet : ∀ c ∈ calls, c.registers = false)
    (sorted : RemovalsFirst more) : RemovalsFirst (calls ++ more) := by
  obtain ⟨first, rest, rfl, quiet', kept⟩ := sorted
  refine ⟨calls ++ first, rest, (List.append_assoc ..).symm, ?_, kept⟩
  intro c there
  rcases List.mem_append.mp there with before | after
  · exact quiet c before
  · exact quiet' c after

theorem RemovalsFirst.of_kept {calls : List Call} (kept : removedIn calls = []) :
    RemovalsFirst calls :=
  ⟨[], calls, rfl, List.forall_mem_nil _, kept⟩

namespace Engine

variable {e e' : Engine} {made : List Call}

theorem dropped_quiet (s : Option Session) : ∀ c ∈ dropped s, c.registers = false := by
  cases s <;> simp [Call.registers]

theorem stopping_quiet (e : Engine) :
    ∀ c ∈ dropped e.current ++ dropped e.previous, c.registers = false := by
  intro c there
  rcases List.mem_append.mp there with current | previous
  · exact dropped_quiet _ c current
  · exact dropped_quiet _ c previous

theorem leaving_quiet (e : Engine) (keep : Bool) : ∀ c ∈ e.leaving keep, c.registers = false := by
  intro c there
  rcases List.mem_append.mp there with previous | current
  · exact dropped_quiet _ c previous
  · cases keep with
    | true => cases current
    | false => exact dropped_quiet _ c current

/-- Starting an entry in an empty slot unregisters nothing. -/
theorem Starts.removes_none {index : Nat} {r : Except Refusal Unit}
    (start : e.Starts index r e' made) (empty : e.current = none) : removedIn made = [] := by
  cases start <;> simp [Call.removed?, empty]

theorem Scans.removes_none {indices : List Nat} (scan : e.Scans indices e' made)
    (empty : e.current = none) : removedIn made = [] := by
  induction scan with
  | exhausted => rfl
  | passed start _ ih => rw [removedIn_append, start.removes_none empty, ih]; rfl
  | found start => exact start.removes_none empty

theorem Advances.removals_first {d : Direction} {keep : Bool}
    (advance : e.Advances d keep e' made) : RemovalsFirst made := by
  cases advance with
  | idle no => exact .of_quiet (List.forall_mem_nil _)
  | moved here scan => exact .after (leaving_quiet e keep) (.of_kept (scan.removes_none rfl))

/-- Moving on unregisters streams only where there is a current entry. -/
theorem Advances.index_of_removed {d : Direction} {keep : Bool} {s : StreamId}
    (advance : e.Advances d keep e' made) (gone : .removed s ∈ made) :
    ∃ index, e.playlist.current = some index := by
  cases advance with
  | idle no => cases gone
  | moved here scan => exact ⟨_, here⟩

theorem Reclaims.quiet (reclaim : e.Reclaims e' made) : ∀ c ∈ made, c.registers = false := by
  cases reclaim <;> simp [Call.registers]

/-- Only a drained stream is reclaimed. -/
theorem Reclaims.drained_of_removed {s : StreamId} (reclaim : e.Reclaims e' made)
    (gone : .removed s ∈ made) : .askedDrained s true ∈ made := by
  cases reclaim with
  | empty no => cases gone
  | waiting there => simp at gone
  | drained there => simpa using gone

/-- A pass of the watcher unregisters a drained stream, or it has found the current file ended. -/
theorem Ticks.released {moved : Bool} {s : StreamId} (tick : e.Ticks moved e' made)
    (gone : .removed s ∈ made) :
    .askedDrained s true ∈ made ∨
      ((∃ cur status, e.current = some cur ∧ status ≠ .playing ∧
        .askedStatus cur.file status ∈ made) ∧ RemovedFirst s made) := by
  cases tick with
  | idle reclaim no => exact Or.inl (reclaim.drained_of_removed gone)
  | playing reclaim there =>
    have reclaimed := reclaim.drained_of_removed (s := s) (by simpa using gone)
    exact Or.inl (List.mem_append_left _ reclaimed)
  | @finished _ _ calls more cur status reclaim there ended advance =>
    refine Or.inr ⟨⟨cur, status, there, ended, by simp⟩, ?_⟩
    rw [List.append_cons]
    refine (RemovalsFirst.after ?_ advance.removals_first).removedFirst s
    intro c asked
    rcases List.mem_append.mp asked with before | last
    · exact reclaim.quiet c before
    · obtain rfl := List.mem_singleton.mp last
      rfl

end Engine

/-- A stream is unregistered by a pass that was told it is drained, or by a turn that ends or
replaces playback, and then before the turn asks for another one. -/
theorem Effect.released {e e' : Engine} {t : Turn} {s : StreamId}
    (effect : Effect e t.command t.result e' t.calls) (gone : .removed s ∈ t.calls) :
    (t.command = .tick ∧ .askedDrained s true ∈ t.calls) ∨
      (t.ends e ∧ RemovedFirst s t.calls) := by
  obtain ⟨command, result, made⟩ := t
  cases effect with
  | add path tags => cases gone
  | remove removes =>
    cases removes with
    | absent outside => cases gone
    | current inside here =>
      exact Or.inr ⟨here, (RemovalsFirst.of_quiet e.stopping_quiet).removedFirst s⟩
    | other inside elsewhere => cases gone
  | flush => exact Or.inr ⟨trivial, (RemovalsFirst.of_quiet e.stopping_quiet).removedFirst s⟩
  | play plays =>
    cases plays with
    | refused no => cases gone
    | @tried _ _ _ made target start =>
      have sorted : RemovalsFirst (dropped e.current ++ dropped e.previous ++ made) :=
        .after e.stopping_quiet (.of_kept (start.removes_none rfl))
      exact Or.inr ⟨Turn.ends_of_target rfl target, sorted.removedFirst s⟩
  | togglePause toggles =>
    cases toggles with
    | idle no => cases gone
    | paused there on => simp at gone
    | resumed there off => simp at gone
  | stop => exact Or.inr ⟨trivial, (RemovalsFirst.of_quiet e.stopping_quiet).removedFirst s⟩
  | next advances =>
    exact Or.inr ⟨advances.index_of_removed gone, advances.removals_first.removedFirst s⟩
  | prev advances =>
    exact Or.inr ⟨advances.index_of_removed gone, advances.removals_first.removedFirst s⟩
  | seekNothing secs no => cases gone
  | seek secs r there => simp at gone
  | setSettings settings => cases gone
  | tick ticks =>
    rcases ticks.released gone with drained | ended
    · exact Or.inl ⟨rfl, drained⟩
    · exact Or.inr ended
  | status picture => cases gone
  | look => cases gone

namespace Engine

variable {e e' : Engine} {made : List Call} {p : Session}

/-- Stopping unregisters the parked stream. -/
theorem stopping_releases (parked : e.previous = some p) :
    .removed p.stream ∈ dropped e.current ++ dropped e.previous := by
  rw [parked]
  exact List.mem_append_right _ (List.mem_singleton.mpr rfl)

theorem Advances.kept {d : Direction} {keep : Bool} (advance : e.Advances d keep e' made)
    (parked : e.previous = some p) : e'.previous = some p ∨ .removed p.stream ∈ made := by
  cases advance with
  | idle no => exact Or.inl parked
  | moved here scan => exact Or.inr (by simp [leaving, parked])

theorem Reclaims.kept (reclaim : e.Reclaims e' made) (parked : e.previous = some p) :
    e'.previous = some p ∨ .removed p.stream ∈ made := by
  cases reclaim with
  | empty no => exact Or.inl parked
  | waiting there => exact Or.inl parked
  | drained there =>
    obtain rfl := Option.some.inj (there.symm.trans parked)
    exact Or.inr (by simp)

theorem Ticks.kept {moved : Bool} (tick : e.Ticks moved e' made) (parked : e.previous = some p) :
    e'.previous = some p ∨ .removed p.stream ∈ made := by
  cases tick with
  | idle reclaim no => exact reclaim.kept parked
  | playing reclaim there =>
    exact (reclaim.kept parked).imp id (List.mem_append_left _)
  | finished reclaim there ended advance =>
    rcases reclaim.kept parked with still | gone
    · exact (advance.kept still).imp id
        fun gone => List.mem_append_right _ (List.mem_cons_of_mem _ gone)
    · exact Or.inr (List.mem_append_left _ gone)

end Engine

/-- A parked session stays in its slot until its stream is unregistered. -/
theorem Effect.kept {e e' : Engine} {c : Command} {r : Except Refusal Unit} {made : List Call}
    {p : Session} (effect : Effect e c r e' made) (parked : e.previous = some p) :
    e'.previous = some p ∨ .removed p.stream ∈ made := by
  cases effect with
  | add path tags => exact Or.inl parked
  | remove removes =>
    cases removes with
    | absent outside => exact Or.inl parked
    | current inside here => exact Or.inr (Engine.stopping_releases parked)
    | other inside elsewhere => exact Or.inl parked
  | flush => exact Or.inr (Engine.stopping_releases parked)
  | play plays =>
    cases plays with
    | refused no => exact Or.inl parked
    | tried target start =>
      exact Or.inr (List.mem_append_left _ (Engine.stopping_releases parked))
  | togglePause toggles => cases toggles <;> exact Or.inl parked
  | stop => exact Or.inr (Engine.stopping_releases parked)
  | next advances => exact advances.kept parked
  | prev advances => exact advances.kept parked
  | seekNothing secs no => exact Or.inl parked
  | seek secs r there => exact Or.inl parked
  | setSettings settings => exact Or.inl parked
  | tick ticks => exact ticks.kept parked
  | status picture => exact Or.inl parked
  | look => exact Or.inl parked

/-- A call that neither registers nor unregisters a stream and is about none but the current one. -/
def Call.Harmless (e : Engine) (c : Call) : Prop :=
  c.registers = false ∧ c.removed? = none ∧
    ∀ s, c.stream? = some s → ∃ cur, e.current = some cur ∧ cur.stream = s

namespace Call.Harmless

variable {e : Engine} {cur : Session}

theorem paused (there : e.current = some cur) : Harmless e (.paused cur.stream) :=
  ⟨rfl, rfl, fun _ about => ⟨cur, there, Option.some.inj about⟩⟩

theorem played (there : e.current = some cur) : Harmless e (.played cur.stream) :=
  ⟨rfl, rfl, fun _ about => ⟨cur, there, Option.some.inj about⟩⟩

theorem sought (file : FileId) : Harmless e (.sought file) := by
  refine ⟨rfl, rfl, fun s about => ?_⟩
  cases about

end Call.Harmless

/-- A section that is no pass of the watcher and does not end playback leaves the previous slot
alone, and its calls are harmless. -/
theorem Effect.bystander {e e' : Engine} {t : Turn}
    (effect : Effect e t.command t.result e' t.calls) (aside : ¬ t.ends e)
    (no_pass : t.command ≠ .tick) :
    e'.previous = e.previous ∧ ∀ c ∈ t.calls, c.Harmless e := by
  obtain ⟨command, result, made⟩ := t
  have silent : ∀ c ∈ ([] : List Call), c.Harmless e := List.forall_mem_nil _
  cases effect with
  | add path tags => exact ⟨rfl, silent⟩
  | remove removes =>
    cases removes with
    | absent outside => exact ⟨rfl, silent⟩
    | current inside here => exact absurd here aside
    | other inside elsewhere => exact ⟨rfl, silent⟩
  | flush => exact absurd trivial aside
  | play plays =>
    cases plays with
    | refused no => exact ⟨rfl, silent⟩
    | tried target start => exact absurd (Turn.ends_of_target rfl target) aside
  | togglePause toggles =>
    cases toggles with
    | idle no => exact ⟨rfl, silent⟩
    | paused there on => exact ⟨rfl, List.forall_mem_singleton.mpr (.paused there)⟩
    | resumed there off => exact ⟨rfl, List.forall_mem_singleton.mpr (.played there)⟩
  | stop => exact absurd trivial aside
  | next advances =>
    cases advances with
    | idle no => exact ⟨rfl, silent⟩
    | moved here scan => exact absurd ⟨_, here⟩ aside
  | prev advances =>
    cases advances with
    | idle no => exact ⟨rfl, silent⟩
    | moved here scan => exact absurd ⟨_, here⟩ aside
  | seekNothing secs no => exact ⟨rfl, silent⟩
  | @seek s secs r there => exact ⟨rfl, List.forall_mem_singleton.mpr (.sought s.file)⟩
  | setSettings settings => exact ⟨rfl, silent⟩
  | tick ticks => exact absurd rfl no_pass
  | status picture => exact ⟨rfl, silent⟩
  | look => exact ⟨rfl, silent⟩

/-- What ends playback by playing is not refused. -/
theorem Turn.target_of_ends {t : Turn} {e : Engine} {index : Option Nat}
    (plays : t.command = .play index) (valid : e.playlist.CurrentValid) (ends : t.ends e) :
    ∃ i, e.playTarget index = .ok i := by
  rw [Turn.ends, plays] at ends
  cases index with
  | some index => exact ⟨_, Engine.playTarget_given ends⟩
  | none => exact ⟨_, Engine.playTarget_resumed valid ends⟩

/-- What is refused for an index does not end playback. -/
theorem Effect.not_ends {e e' : Engine} {t : Turn} {r : Refusal}
    (effect : Effect e t.command t.result e' t.calls) (valid : e.playlist.CurrentValid)
    (refused : t.result = .error r) (of_index : r.ofIndex) : ¬ t.ends e := by
  obtain ⟨command, result, made⟩ := t
  obtain rfl := refused
  cases effect with
  | remove removes =>
    cases removes with
    | absent outside => exact fun here => Nat.not_lt.mpr outside (valid _ here)
  | play plays =>
    cases plays with
    | refused no =>
      intro ends
      obtain ⟨i, target⟩ := Turn.target_of_ends rfl valid ends
      rw [target] at no
      cases no
    | @tried i _ _ _ target start =>
      cases start with
      | absent no =>
        have inside : i < e.playlist.count := Engine.playTarget_lt target
        exact absurd (List.getElem?_eq_none_iff.mp no) (Nat.not_le.mpr inside)
      | unopened here reason => exact of_index.elim
      | refused here file reason => exact of_index.elim
  | seekNothing secs no => exact id
  | seek secs r there => exact id

/-- A parked session keeps its slot along a run until its stream is unregistered. -/
theorem Run.kept {ω : Type} {h : Host ω} {e e' : Engine} {turns : List Turn} {p : Session}
    (run : Run h e turns e') (parked : e.previous = some p) :
    e'.previous = some p ∨ .removed p.stream ∈ callsOf turns := by
  induction run with
  | start => exact Or.inl parked
  | turn _ takes ih =>
    rw [callsOf_append, callsOf_singleton]
    rcases ih with still | gone
    · exact (takes.effect.kept still).imp id (List.mem_append_right _)
    · exact Or.inr (List.mem_append_left _ gone)

/-- A pass of the watcher that parks a session: it moves from the current to the previous slot. -/
structure Parks {ω : Type} (h : Host ω) (e : Engine) (t : Turn) (e' : Engine) (p : Session) :
    Prop where
  takes : Takes h e t e'
  pass : t.command = .tick
  current : e.current = some p
  previous : e'.previous = some p

section

variable {ω : Type} {h : Host ω} {settings : Config.Music} {e₀ e₁ e₂ e₃ : Engine}
  {before later : List Turn} {pass t : Turn} {p : Session}

/-- The pass that parks a session does not unregister its stream. -/
theorem Run.parked_registered (run : Run h (.new settings) before e₀) (parks : Parks h e₀ pass e₁ p)
    (fresh : (addedIn (callsOf (before ++ [pass]))).Nodup) : .removed p.stream ∉ pass.calls := by
  have acc := (run.turn parks.takes).accounted fresh
  have held : p.stream ∈ e₁.held := by simp [Engine.held_eq, parks.previous]
  intro gone
  refine ((acc.held_iff p.stream).mp held).2 (mem_removedIn.mpr ?_)
  rw [callsOf_append, callsOf_singleton]
  exact List.mem_append_right _ gone

/-- After it was parked, a session is never current again. -/
theorem Run.parked_elsewhere (run : Run h (.new settings) before e₀) (parks : Parks h e₀ pass e₁ p)
    (rest : Run h e₁ later e₂) (fresh : (addedIn (callsOf (before ++ [pass] ++ later))).Nodup) :
    ∀ cur, e₂.current = some cur → cur.stream ≠ p.stream := by
  intro cur there same
  have acc := ((run.turn parks.takes).append rest).accounted fresh
  have held : cur.stream ∈ e₂.held := by simp [Engine.held_eq, there]
  rcases rest.kept parks.previous with still | gone
  · have apart := acc.distinct
    simp [Engine.held_eq, there, still, same] at apart
  · refine ((acc.held_iff cur.stream).mp held).2 (mem_removedIn.mpr ?_)
    rw [same, callsOf_append]
    exact List.mem_append_right _ gone

/-- The tail of a finished track is not cut. Once a pass of the watcher has parked a session, it
keeps its slot until its stream is unregistered. Any section that does so is a pass that was told
the stream is drained, or ends playback and unregisters it before it asks for another stream.
Dropping the engine asks for none. Any other section but a pass leaves the slot and, with streams
numbered apart, the stream alone; a section refused for an index is such a one. -/
theorem Run.tail_kept (run : Run h (.new settings) before e₀) (parks : Parks h e₀ pass e₁ p)
    (rest : Run h e₁ later e₂) (takes : Takes h e₂ t e₃) :
    (e₂.previous = some p ∨ .removed p.stream ∈ callsOf later) ∧
    (.removed p.stream ∈ t.calls →
      (t.command = .tick ∧ .askedDrained p.stream true ∈ t.calls) ∨
        (t.ends e₂ ∧ RemovedFirst p.stream t.calls)) ∧
    (∀ made, Disposes h e₂ made → RemovedFirst p.stream made) ∧
    (∀ r, t.result = .error r → r.ofIndex → ¬ t.ends e₂) ∧
    (¬ t.ends e₂ → t.command ≠ .tick →
      e₃.previous = e₂.previous ∧ ∀ c ∈ t.calls, c.registers = false ∧ c.removed? = none) ∧
    ((addedIn (callsOf (before ++ [pass] ++ later))).Nodup →
      .removed p.stream ∉ pass.calls ∧
        (¬ t.ends e₂ → t.command ≠ .tick → ∀ c ∈ t.calls, c.stream? ≠ some p.stream)) := by
  have coh := ((run.turn parks.takes).append rest).coherent
  have effect := takes.effect
  refine ⟨rest.kept parks.previous, effect.released, fun made disposes => ?_,
    fun r => effect.not_ends coh.current_valid, fun aside no_pass => ?_, fun fresh => ⟨?_, ?_⟩⟩
  · rw [disposes.calls]
    exact (RemovalsFirst.of_quiet e₂.stopping_quiet).removedFirst p.stream
  · obtain ⟨slot, calls⟩ := effect.bystander aside no_pass
    exact ⟨slot, fun c there => ⟨(calls c there).1, (calls c there).2.1⟩⟩
  · rw [callsOf_append] at fresh
    exact run.parked_registered parks (fresh_of_append fresh)
  · intro aside no_pass c there about
    obtain ⟨cur, current, same⟩ := ((effect.bystander aside no_pass).2 c there).2.2 p.stream about
    exact run.parked_elsewhere parks rest fresh cur current same

end

def trackPlaying : List Turn × Engine :=
  rehearse [(.add ⟨[97]⟩ none, ⟨0, 0, [], .playing, false⟩),
    (.add ⟨[98]⟩ none, ⟨0, 0, [], .playing, false⟩),
    (.play (some 0), ⟨0, 0, [], .playing, false⟩)]

def trackEnding : Turn × Engine :=
  act .rehearsed .tick ⟨1, 1, [], .ended, false⟩ trackPlaying.2

def tailPlaying : List Turn × Engine :=
  enact .rehearsed [(.togglePause, ⟨2, 2, [], .playing, false⟩),
    (.togglePause, ⟨2, 2, [], .playing, false⟩)] trackEnding.2

def tailPlayed : Turn × Engine :=
  act .rehearsed .tick ⟨2, 2, [], .playing, true⟩ tailPlaying.2

theorem tailPlayed_kept :
    Parks .rehearsed trackPlaying.2 trackEnding.1 trackEnding.2 ⟨⟨0⟩, ⟨0⟩, 0⟩ ∧
    .removed ⟨0⟩ ∈ tailPlayed.1.calls ∧
    (tailPlayed.1.command = .tick ∧ .askedDrained ⟨0⟩ true ∈ tailPlayed.1.calls ∨
      tailPlayed.1.ends tailPlaying.2 ∧ RemovedFirst ⟨0⟩ tailPlayed.1.calls) := by
  have parks : Parks .rehearsed trackPlaying.2 trackEnding.1 trackEnding.2 ⟨⟨0⟩, ⟨0⟩, 0⟩ :=
    ⟨act_takes _ _ _ _, rfl, by decide +kernel, by decide +kernel⟩
  have gone : .removed ⟨0⟩ ∈ tailPlayed.1.calls := by decide +kernel
  exact ⟨parks, gone, (Run.tail_kept (rehearse_run _) parks (enact_run _ _ _)
    (act_takes _ _ _ _)).2.1 gone⟩

end Jukebox.Playback
