import Jukebox.Playback.Watcher
import Jukebox.Proofs.Playback.Orders
/-!
# The watcher beside clients and a shutdown

The watcher, a shutdown and any number of clients act on one engine. `Step` says what each of them
can do next, and a `Course` is any interleaving of their steps. Sections run under any answers of
the host, as in a run.

Two facts decide every race. A stopped engine is idle, and a pass of the watcher over an idle engine
asks nothing and changes nothing, so it does not matter when the passes fall. And a shutdown that
has waited for the thread leaves none that could run another pass.
-/
namespace Jukebox.Playback

/-- What happens next: a section of a client, the start of the watcher, a step of its thread, or a
step of the shutdown. -/
inductive Event where
  | client (command : Command)
  | spawn
  | read
  | tick
  | stop
  | take
  | raise
  | join
  | flush
  deriving DecidableEq, Repr

/-- The command of the section that runs, if one does. -/
def Event.command? : Event → Option Command
  | .client c => some c
  | .tick => some .tick
  | .stop => some .stop
  | .flush => some .flush
  | _ => none

/-- No section of a client is among the events. -/
def NoClient (events : List Event) : Prop := ∀ c, .client c ∉ events

structure Supervised where
  engine : Engine
  turns : List Turn
  watcher : Option Watcher
  shutdown : Shutdown

def Supervised.ran (s : Supervised) (t : Turn) (e : Engine) : Supervised :=
  { s with engine := e, turns := s.turns ++ [t] }

/-- One step of anyone. Passes are left to the watcher, and none is started once the shutdown has
begun. -/
inductive Step {ω : Type} (h : Host ω) (s : Supervised) : Event → Supervised → Prop
  | client {t : Turn} {e : Engine} (takes : Takes h s.engine t e) (no_pass : t.command ≠ .tick) :
      Step h s (.client t.command) (s.ran t e)
  | spawn (now : s.shutdown = .notBegun) :
      Step h s .spawn { s with watcher := Watcher.spawn s.watcher }
  | read {w : Watcher} (there : s.watcher = some w) (phase : w.phase = .reading) :
      Step h s .read { s with watcher := some w.read }
  | tick {w : Watcher} {t : Turn} {e : Engine} (there : s.watcher = some w)
      (phase : w.phase = .ticking) (takes : Takes h s.engine t e) (pass : t.command = .tick) :
      Step h s .tick { s.ran t e with watcher := some w.ticked }
  | stop {t : Turn} {e : Engine} (now : s.shutdown = .notBegun) (takes : Takes h s.engine t e)
      (command : t.command = .stop) : Step h s .stop { s.ran t e with shutdown := .stopped }
  | take (now : s.shutdown = .stopped) : Step h s .take { s with shutdown := .taken }
  | raise (now : s.shutdown = .taken) :
      Step h s .raise { s with watcher := s.watcher.map Watcher.stop, shutdown := .raised }
  | join (now : s.shutdown = .raised) (gone : ∀ w, s.watcher = some w → w.phase = .gone) :
      Step h s .join { s with shutdown := .joined }
  | flush {t : Turn} {e : Engine} (now : s.shutdown = .joined) (takes : Takes h s.engine t e)
      (command : t.command = .flush) : Step h s .flush { s.ran t e with shutdown := .finished }

/-- Steps one after another. -/
inductive Course {ω : Type} (h : Host ω) (s : Supervised) : List Event → Supervised → Prop
  | start : Course h s [] s
  | step {events : List Event} {ev : Event} {s' s'' : Supervised} :
      Course h s events s' → Step h s' ev s'' → Course h s (events ++ [ev]) s''

section

variable {ω : Type} {h : Host ω} {s s' s'' : Supervised} {ev : Event} {events more : List Event}

/-- A step runs the section of its event, or leaves engine and record alone. -/
theorem Step.section (step : Step h s ev s') :
    (ev.command? = none ∧ s'.engine = s.engine ∧ s'.turns = s.turns) ∨
    ∃ t, ev.command? = some t.command ∧ Takes h s.engine t s'.engine ∧
      s'.turns = s.turns ++ [t] := by
  cases step with
  | client takes no_pass => exact Or.inr ⟨_, rfl, takes, rfl⟩
  | tick there phase takes pass => exact Or.inr ⟨_, congrArg some pass.symm, takes, rfl⟩
  | stop now takes command => exact Or.inr ⟨_, congrArg some command.symm, takes, rfl⟩
  | flush now takes command => exact Or.inr ⟨_, congrArg some command.symm, takes, rfl⟩
  | spawn => exact Or.inl ⟨rfl, rfl, rfl⟩
  | read => exact Or.inl ⟨rfl, rfl, rfl⟩
  | take => exact Or.inl ⟨rfl, rfl, rfl⟩
  | raise => exact Or.inl ⟨rfl, rfl, rfl⟩
  | join => exact Or.inl ⟨rfl, rfl, rfl⟩

/-- The sections of a course are a run. -/
theorem Course.run (course : Course h s events s') :
    ∃ turns, s'.turns = s.turns ++ turns ∧ Run h s.engine turns s'.engine := by
  induction course with
  | start => exact ⟨[], (List.append_nil _).symm, .start⟩
  | step _ step ih =>
    obtain ⟨turns, record, run⟩ := ih
    rcases step.section with ⟨_, engine, same⟩ | ⟨t, _, takes, grown⟩
    · exact ⟨turns, same.trans record, engine ▸ run⟩
    · exact ⟨turns ++ [t], by rw [grown, record, List.append_assoc], .turn run takes⟩

/-- Two courses, the second from where the first ends, are one. -/
theorem Course.append (first : Course h s events s') (second : Course h s' more s'') :
    Course h s (events ++ more) s'' := by
  induction second with
  | start => rwa [List.append_nil]
  | step _ step ih =>
    rw [← List.append_assoc]
    exact .step ih step

end

structure Engine.Idle (e : Engine) : Prop where
  current : e.current = none
  previous : e.previous = none

namespace Engine.Idle

variable {e e' : Engine} {made : List Call}

theorem state (idle : e.Idle) : e.state = .stopped := by
  rw [Engine.state, idle.current]

theorem held (idle : e.Idle) : e.held = [] := by
  rw [held_eq, idle.current, idle.previous]
  rfl

theorem dropped (idle : e.Idle) : dropped e.current ++ dropped e.previous = [] := by
  rw [idle.current, idle.previous]
  rfl

theorem ticks {moved : Bool} (idle : e.Idle) (tick : e.Ticks moved e' made) :
    e' = e ∧ made = [] := by
  cases tick with
  | idle reclaim no =>
    cases reclaim with
    | empty none => exact ⟨rfl, rfl⟩
    | waiting there => cases idle.previous.symm.trans there
    | drained there => cases idle.previous.symm.trans there
  | playing reclaim there => cases idle.current.symm.trans there
  | finished reclaim there ended advance => cases idle.current.symm.trans there

end Engine.Idle

/-- Stopping and flushing leave an idle engine. -/
theorem Effect.idles {e e' : Engine} {c : Command} {r : Except Refusal Unit} {made : List Call}
    (effect : Effect e c r e' made) (ends : c = .stop ∨ c = .flush) : e'.Idle := by
  rcases ends with rfl | rfl
  · cases effect with
    | stop => exact ⟨rfl, rfl⟩
  · cases effect with
    | flush => exact ⟨rfl, rfl⟩

/-- An idle engine stays idle under passes of the watcher and the sections of a shutdown, and none
of them calls the host. -/
theorem Effect.idle {e e' : Engine} {c : Command} {r : Except Refusal Unit} {made : List Call}
    (effect : Effect e c r e' made) (idle : e.Idle) (own : c = .tick ∨ c = .stop ∨ c = .flush) :
    e'.Idle ∧ made = [] := by
  rcases own with rfl | ends
  · cases effect with
    | tick ticks =>
      obtain ⟨rfl, rfl⟩ := idle.ticks ticks
      exact ⟨idle, rfl⟩
  · refine ⟨effect.idles ends, ?_⟩
    rcases ends with rfl | rfl
    · cases effect with
      | stop => exact idle.dropped
    · cases effect with
      | flush => exact idle.dropped

/-- A section that no client runs is a pass or one of a shutdown. -/
theorem Event.own_command {ev : Event} {c : Command} (runs : ev.command? = some c)
    (own : ∀ c, ev ≠ .client c) : c = .tick ∨ c = .stop ∨ c = .flush := by
  cases ev with
  | client command => exact absurd rfl (own command)
  | tick => exact Or.inl (Option.some.inj runs).symm
  | stop => exact Or.inr (Or.inl (Option.some.inj runs).symm)
  | flush => exact Or.inr (Or.inr (Option.some.inj runs).symm)
  | spawn => cases runs
  | read => cases runs
  | take => cases runs
  | raise => cases runs
  | join => cases runs

/-- What a shutdown that has come so far has done to the watcher: its flag is up while the shutdown
waits, and its thread is gone afterwards. -/
structure Supervised.Sound (s : Supervised) : Prop where
  raised : s.shutdown = .raised → ∀ w, s.watcher = some w → w.raised = true
  gone : s.shutdown = .joined ∨ s.shutdown = .finished →
    ∀ w, s.watcher = some w → w.phase = .gone

section

variable {ω : Type} {h : Host ω} {s s' s'' : Supervised} {ev : Event} {events more : List Event}

theorem Supervised.Sound.of_notBegun (now : s.shutdown = .notBegun) : s.Sound :=
  ⟨by simp [now], by simp [now]⟩

/-- A thread that is still in its loop may go on; the shutdown has not waited for it yet. -/
theorem Supervised.Sound.moved {w w' : Watcher} (sound : s.Sound) (there : s.watcher = some w)
    (inside : w.phase ≠ .gone) (moved : s'.watcher = some w') (flag : w'.raised = w.raised)
    (same : s'.shutdown = s.shutdown) : s'.Sound := by
  refine ⟨fun up w'' there' => ?_, fun ended => ?_⟩
  · obtain rfl := Option.some.inj (moved.symm.trans there')
    exact flag.trans (sound.raised (same ▸ up) w there)
  · exact absurd (sound.gone (same ▸ ended) w there) inside

theorem Step.sound (step : Step h s ev s') (sound : s.Sound) : s'.Sound := by
  cases step with
  | client takes no_pass => exact ⟨sound.raised, sound.gone⟩
  | spawn now => exact .of_notBegun now
  | read there phase => exact sound.moved there (by simp [phase]) rfl rfl rfl
  | tick there phase takes pass => exact sound.moved there (by simp [phase]) rfl rfl rfl
  | stop now takes command => exact ⟨by simp, by simp⟩
  | take now => exact ⟨by simp, by simp⟩
  | raise now =>
    refine ⟨fun _ w there => ?_, by simp⟩
    obtain ⟨w', _, rfl⟩ := Option.map_eq_some_iff.mp there
    rfl
  | join now gone => exact ⟨by simp, fun _ => gone⟩
  | flush now takes command => exact ⟨by simp, fun _ => sound.gone (Or.inl now)⟩

theorem Course.sound (course : Course h s events s') (sound : s.Sound) : s'.Sound := by
  induction course with
  | start => exact sound
  | step _ step ih => exact step.sound ih

/-- After a shutdown only clients act. -/
theorem Step.client_of_finished (step : Step h s ev s') (sound : s.Sound)
    (ended : s.shutdown = .finished) :
    (∃ c, ev = .client c ∧ c ≠ .tick) ∧ s'.shutdown = .finished := by
  -- The thread is gone and the shutdown is past each of its own steps.
  have gone := sound.gone (Or.inr ended)
  cases step with
  | client takes no_pass => exact ⟨⟨_, rfl, no_pass⟩, ended⟩
  | spawn now => cases ended.symm.trans now
  | read there phase => cases phase.symm.trans (gone _ there)
  | tick there phase takes pass => cases phase.symm.trans (gone _ there)
  | stop now takes command => cases ended.symm.trans now
  | take now => cases ended.symm.trans now
  | raise now => cases ended.symm.trans now
  | join now gone => cases ended.symm.trans now
  | flush now takes command => cases ended.symm.trans now

theorem Course.clients_of_finished (course : Course h s events s') (sound : s.Sound)
    (ended : s.shutdown = .finished) :
    (∀ ev ∈ events, ∃ c, ev = .client c ∧ c ≠ .tick) ∧ s'.shutdown = .finished := by
  induction course with
  | start => exact ⟨List.forall_mem_nil _, ended⟩
  | step course step ih =>
    obtain ⟨clients, still⟩ := ih
    obtain ⟨client, ended'⟩ := step.client_of_finished (course.sound sound) still
    refine ⟨fun ev there => ?_, ended'⟩
    rcases List.mem_append.mp there with earlier | last
    · exact clients ev earlier
    · exact List.mem_singleton.mp last ▸ client

/-- The last section of a shutdown leaves nothing in the playlist and no session. -/
theorem Step.flushed (step : Step h s .flush s') :
    s'.engine.playlist.entries = [] ∧ s'.engine.Idle := by
  cases step with
  | @flush t e now takes command =>
    rcases t with ⟨c, result, made⟩
    obtain rfl : c = .flush := command
    cases takes.effect with
    | flush => exact ⟨rfl, rfl, rfl⟩

/-- As long as no client acts, an idle engine stays idle and the host is not called. -/
theorem Course.idle (course : Course h s events s') (idle : s.engine.Idle)
    (alone : NoClient events) : s'.engine.Idle ∧ callsOf s'.turns = callsOf s.turns := by
  induction course with
  | start => exact ⟨idle, rfl⟩
  | @step events ev _ _ _ step ih =>
    obtain ⟨still, calls⟩ := ih fun c there => alone c (List.mem_append_left _ there)
    rcases step.section with ⟨_, engine, same⟩ | ⟨t, runs, takes, grown⟩
    · exact ⟨engine ▸ still, by rw [same, calls]⟩
    · have own : ∀ c, ev ≠ .client c := by
        rintro c rfl
        exact alone c (by simp)
      obtain ⟨after, silent⟩ := takes.effect.idle still (Event.own_command runs own)
      refine ⟨after, ?_⟩
      rw [grown, callsOf_append, callsOf_singleton, silent, List.append_nil, calls]

/-- Stopping and shutting down win every race with the watcher. Once an engine was stopped or
flushed, by a client or by the shutdown, it is stopped and holds nothing for as long as no client
acts, and none of the passes that still fall calls the host. When the shutdown has flushed an
engine, its playlist is empty and what it registered at the output is unregistered, as often as it
was registered; from then on only clients act, so without them nothing changes. -/
theorem Course.stays_stopped {settings : Config.Music} {before after : List Event}
    {s₀ s₁ s₂ s₃ : Supervised} (reached : Run h (.new settings) s₀.turns s₀.engine)
    (begun : s₀.shutdown = .notBegun) (first : Course h s₀ before s₁) (step : Step h s₁ ev s₂)
    (rest : Course h s₂ after s₃) :
    (ev.command? = some .stop ∨ ev.command? = some .flush → NoClient after →
      s₃.engine.state = .stopped ∧ s₃.engine.current = none ∧ s₃.engine.previous = none ∧
      callsOf s₃.turns = callsOf s₂.turns) ∧
    (ev = .flush →
      s₂.engine.playlist.entries = [] ∧
      (addedIn (callsOf s₂.turns)).Perm (removedIn (callsOf s₂.turns)) ∧
      registeredIn (callsOf s₂.turns) = [] ∧
      (∀ later ∈ after, ∃ c, later = .client c ∧ c ≠ .tick) ∧
      (NoClient after → s₃ = s₂)) := by
  refine ⟨fun ends alone => ?_, ?_⟩
  · have idle : s₂.engine.Idle := by
      rcases step.section with ⟨silent, _⟩ | ⟨t, runs, takes, _⟩
      · simp [silent] at ends
      · exact takes.effect.idles (by simpa [runs] using ends)
    obtain ⟨still, calls⟩ := rest.idle idle alone
    exact ⟨still.state, still.current, still.previous, calls⟩
  · rintro rfl
    have sound := first.sound (.of_notBegun begun)
    have whole : Course h s₀ (before ++ [.flush]) s₂ := .step first step
    obtain ⟨turns, record, run⟩ := whole.run
    -- Nothing is held at the end, so what was registered and what was unregistered count alike.
    have balanced := (reached.append run).balanced
    rw [← record] at balanced
    have ended : s₂.shutdown = .finished := by
      cases step
      rfl
    obtain ⟨emptied, idle⟩ := step.flushed
    rw [idle.held] at balanced
    have clients := (rest.clients_of_finished (step.sound sound) ended).1
    refine ⟨emptied, by simpa using balanced.perm_of_nil, balanced.registered_nil, clients, ?_⟩
    intro alone
    cases rest with
    | start => rfl
    | step _ last =>
      obtain ⟨c, rfl, _⟩ := clients _ (List.mem_append_right _ (List.mem_singleton.mpr rfl))
      exact absurd (by simp) (alone c)

end

def Supervised.acts (s : Supervised) (c : Command) (w : Rehearsal) : Supervised :=
  s.ran (act .rehearsed c w s.engine).1 (act .rehearsed c w s.engine).2

/-- The first of two tracks plays, and a watcher was started. -/
def trackWatched : Supervised :=
  ⟨trackPlaying.2, trackPlaying.1, some .started, .notBegun⟩

def passDue : Supervised :=
  { trackWatched with watcher := some ⟨false, .ticking⟩ }

/-- The shutdown stops playback before the pass. -/
def passOvertaken : Supervised :=
  { passDue.acts .stop ⟨1, 1, [], .ended, false⟩ with shutdown := .stopped }

def passLate : Supervised :=
  { passOvertaken.acts .tick ⟨1, 1, [], .ended, false⟩ with watcher := some .started }

def threadGone : Supervised :=
  { passLate with watcher := some ⟨true, .gone⟩, shutdown := .joined }

def shutDown : Supervised :=
  { threadGone.acts .flush ⟨1, 1, [], .ended, false⟩ with shutdown := .finished }

def usedAgain : Supervised :=
  shutDown.acts (.add ⟨[97]⟩ none) ⟨1, 1, [], .ended, false⟩

theorem passLate_stays_stopped :
    passDue.engine.state = .playing ∧
    Course .rehearsed passOvertaken [.tick] passLate ∧ passLate.engine.state = .stopped ∧
    callsOf passLate.turns = callsOf passOvertaken.turns ∧
    Step .rehearsed threadGone .flush shutDown ∧
    addedIn (callsOf shutDown.turns) = [⟨0⟩] ∧ registeredIn (callsOf shutDown.turns) = [] ∧
    Course .rehearsed shutDown [.client (.add ⟨[97]⟩ none)] usedAgain := by
  have reached : Run .rehearsed (.new .default) trackWatched.turns trackWatched.engine :=
    rehearse_run _
  have reads : Course .rehearsed trackWatched [.read] passDue :=
    .step .start (Step.read (w := .started) rfl rfl)
  have stops : Step .rehearsed passDue .stop passOvertaken := .stop rfl (act_takes _ _ _ _) rfl
  have ticks : Course .rehearsed passOvertaken [.tick] passLate :=
    .step .start (Step.tick (w := ⟨false, .ticking⟩) rfl rfl (act_takes _ _ _ _) rfl)
  have leaves : Course .rehearsed passLate [.take, .raise, .read, .join] threadGone := by
    refine .step (.step (.step (.step .start (.take rfl)) (.raise rfl)) (.read rfl rfl)) ?_
    refine .join rfl fun t same => ?_
    obtain rfl := Option.some.inj same
    rfl
  have waits : Course .rehearsed trackWatched [.read, .stop, .tick, .take, .raise, .read, .join]
      threadGone := (reads.step stops).append (ticks.append leaves)
  have flushes : Step .rehearsed threadGone .flush shutDown :=
    .flush rfl (act_takes _ _ _ _) rfl
  have uses : Course .rehearsed shutDown [.client (.add ⟨[97]⟩ none)] usedAgain :=
    .step .start (.client (act_takes _ _ _ _) (by decide))
  have stopped := (Course.stays_stopped reached rfl reads stops ticks).1 (Or.inl rfl)
    (by simp [NoClient])
  have ended := (Course.stays_stopped reached rfl waits flushes uses).2 rfl
  exact ⟨by decide +kernel, ticks, stopped.1, stopped.2.2.2, flushes, by decide +kernel,
    ended.2.2.1, uses⟩

section

variable {ω : Type} {h : Host ω} {s s' : Supervised} {ev : Event} {events : List Event}

/-- From here the watcher and the shutdown alone can bring the shutdown to its end. -/
def Finishes (h : Host ω) (s : Supervised) : Prop :=
  ∃ events s', Course h s events s' ∧ NoClient events ∧ s'.shutdown = .finished

theorem Finishes.after (step : Step h s ev s') (own : ∀ c, ev ≠ .client c)
    (rest : Finishes h s') : Finishes h s := by
  obtain ⟨events, last, course, alone, ended⟩ := rest
  refine ⟨ev :: events, last, (Course.start.step step).append course, fun c there => ?_, ended⟩
  rcases List.mem_cons.mp there with same | later
  · exact own c same.symm
  · exact alone c later

theorem Finishes.of_joined (w : ω) (now : s.shutdown = .joined) : Finishes h s := by
  have flush : Step h s .flush _ := .flush now (act_takes h .flush w s.engine) rfl
  exact .after flush nofun ⟨[], _, .start, fun c => List.not_mem_nil, rfl⟩

theorem Finishes.of_left (w : ω) (now : s.shutdown = .raised)
    (gone : ∀ t, s.watcher = some t → t.phase = .gone) : Finishes h s :=
  .after (.join now gone) nofun (.of_joined w rfl)

/-- A thread that reads its raised flag leaves. -/
theorem Finishes.of_reading (w : ω) {t : Watcher} (now : s.shutdown = .raised)
    (there : s.watcher = some t) (up : t.raised = true) (phase : t.phase = .reading) :
    Finishes h s := by
  have read : Step h s .read _ := .read there phase
  refine .after read nofun (.of_left w now fun t' same => ?_)
  obtain rfl := Option.some.inj same
  simp [Watcher.read, up]

/-- A pass that is due is followed by a reading. -/
theorem Finishes.of_raised (w : ω) (now : s.shutdown = .raised) (sound : s.Sound) :
    Finishes h s := by
  cases there : s.watcher with
  | none => exact .of_left w now (by simp [there])
  | some t =>
    have up := sound.raised now t there
    cases phase : t.phase with
    | reading => exact .of_reading w now there up phase
    | ticking =>
      have tick : Step h s .tick _ := .tick there phase (act_takes h .tick w s.engine) rfl
      exact .after tick nofun (.of_reading w now rfl up rfl)
    | gone => exact .of_left w now (by simp [there, phase])

theorem Finishes.of_taken (w : ω) (now : s.shutdown = .taken) (sound : s.Sound) :
    Finishes h s := by
  have raise : Step h s .raise _ := .raise now
  exact .after raise nofun (.of_raised w rfl (raise.sound sound))

theorem Finishes.of_stopped (w : ω) (now : s.shutdown = .stopped) (sound : s.Sound) :
    Finishes h s := by
  have take : Step h s .take _ := .take now
  exact .after take nofun (.of_taken w rfl (take.sound sound))

/-- The shutdown never waits for good: however far it has come, it can still end without a
client. -/
theorem Course.finishes (course : Course h s events s') (begun : s.shutdown = .notBegun) (w : ω) :
    Finishes h s' := by
  have sound := course.sound (.of_notBegun begun)
  cases now : s'.shutdown with
  | notBegun =>
    have stop : Step h s' .stop _ := .stop now (act_takes h .stop w s'.engine) rfl
    exact .after stop nofun (.of_stopped w rfl (stop.sound sound))
  | stopped => exact .of_stopped w now sound
  | taken => exact .of_taken w now sound
  | raised => exact .of_raised w now sound
  | joined => exact .of_joined w now
  | finished => exact ⟨[], s', .start, fun c => List.not_mem_nil, now⟩

/-- The shutdown of a player is a course in which the thread of the watcher leaves at once and
nobody else acts. -/
theorem Player.shutdown_course (p : Player) (w : ω) {watcher : Option Watcher}
    (reading : ∀ t, watcher = some t → t.phase = .reading) :
    ∃ events s w', Course h ⟨p.engine, [], watcher, .notBegun⟩ events s ∧ .tick ∉ events ∧
      NoClient events ∧ s.shutdown = .finished ∧
      Player.shutdown h.recorded p (w, []) = (((), ⟨s.engine, false⟩), (w', callsOf s.turns)) := by
  -- Both sections as turns; in between the thread reads its raised flag, if there is a thread.
  obtain ⟨r, e, w₁, made, stopped, _⟩ := body_performs (h := h) (e := p.engine) .stop w
  obtain ⟨r', e', w₂, more, flushed, _⟩ := body_performs (h := h) (e := e) .flush w₁
  have stop : Takes h p.engine ⟨.stop, r, made⟩ e := ⟨w, w₁, stopped []⟩
  have flush : Takes h e ⟨.flush, r', more⟩ e' := ⟨w₁, w₂, flushed []⟩
  have ran : Player.shutdown h.recorded p (w, []) = (((), ⟨e', false⟩), (w₂, made ++ more)) := by
    have unfolded : Player.shutdown h.recorded p (w, []) =
        let first := Command.stop.body h.recorded p.engine (w, [])
        let last := Command.flush.body h.recorded first.1.2 first.2
        (((), ⟨last.1.2, false⟩), last.2) := rfl
    rw [unfolded, stopped]
    simp only [List.nil_append]
    rw [flushed]
  have waits : Course h ⟨p.engine, [], watcher, .notBegun⟩ [.stop, .take, .raise]
      ⟨e, [⟨.stop, r, made⟩], watcher.map Watcher.stop, .raised⟩ :=
    .step (.step (.step .start (.stop rfl stop rfl)) (.take rfl)) (.raise rfl)
  have left : ∃ events thread, Course h ⟨p.engine, [], watcher, .notBegun⟩ events
      ⟨e, [⟨.stop, r, made⟩], thread, .raised⟩ ∧ .tick ∉ events ∧ NoClient events ∧
      ∀ t, thread = some t → t.phase = .gone := by
    cases watcher with
    | none => exact ⟨_, _, waits, by simp, by simp [NoClient], nofun⟩
    | some t =>
      refine ⟨_, _, waits.step (.read rfl (reading t rfl)), by simp, by simp [NoClient], ?_⟩
      rintro t' same
      obtain rfl := Option.some.inj same
      rfl
  obtain ⟨events, thread, course, no_tick, alone, gone⟩ := left
  refine ⟨_, _, w₂, (course.step (.join rfl gone)).step (.flush rfl flush rfl), ?_, ?_, rfl, ?_⟩
  · simpa using no_tick
  · simpa [NoClient] using alone
  · rw [ran]
    simp [Supervised.ran, callsOf]

end

end Jukebox.Playback
