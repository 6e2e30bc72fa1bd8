import Jukebox.Proofs.Playback.Coherence
import Jukebox.Proofs.Playback.Edits
import Jukebox.Proofs.Playback.Requests
/-!
# Playing a file by its path

A request to play a file appends an entry in one section and plays the index it was given in
another. Turns of others may fall between the two, and an index is a position, so the entry that is
played is the one that was appended exactly as long as no turn in between removes it or an entry
before it. This is stated of the two sections, and of a request among any other operations that is
answered with success: it went through the two sections (`Served`).
-/
namespace Jukebox.Playback

open Storage

/-- A command leaves the entry at an index where it is. -/
def Command.spares (k : Nat) : Command → Bool
  | .remove index => k < index
  | .flush => false
  | _ => true

/-- An entry is gone from an index for good: it was issued, and where it still stands is before. -/
def Playlist.Lost (k serial : Nat) (p : Playlist) : Prop :=
  serial < p.issued ∧ ∀ i a, p.entry? i = some a → a.serial = serial → i < k

namespace Playlist

variable {p : Playlist} {k : Nat} {a : Entry}

/-- A command that spares an index leaves its entry there. -/
theorem entry?_edit {c : Command} (spared : c.spares k = true) (here : p.entry? k = some a) :
    Playlist.entry? (c.edit p) k = some a := by
  cases c with
  | add path tags => exact entry?_push here
  | remove index =>
    have behind : k < index := of_decide_eq_true spared
    rw [Command.edit, entry?_erase, if_pos behind, here]
  | flush => cases spared
  | _ => exact here

/-- A command that does not spare an index takes its entry away from there. -/
theorem lost_of_edit {c : Command} (struck : c.spares k = false) (valid : p.SerialsValid)
    (here : p.entry? k = some a) : Lost k a.serial (c.edit p) := by
  have issued : a.serial < p.issued := valid.2 a (mem_of_entry here)
  cases c with
  | remove index =>
    have upto : index ≤ k := Nat.not_lt.mp (of_decide_eq_false struck)
    refine ⟨issued, fun i b there same => ?_⟩
    rw [Command.edit, entry?_erase] at there
    by_cases before : i < index
    · exact Nat.lt_of_lt_of_le before upto
    -- What stands behind the gap has moved down by one, and only the lost entry has its serial.
    · rw [if_neg before] at there
      have moved : i + 1 = k := valid.unique there here same
      omega
  | flush => exact ⟨issued, fun i b there _ => by cases there⟩
  | _ => cases struck

/-- A lost entry stays lost. -/
theorem Lost.edit {serial : Nat} (lost : Lost k serial p) (c : Command) :
    Lost k serial (c.edit p) := by
  obtain ⟨issued, before⟩ := lost
  cases c with
  | add path tags =>
    refine ⟨Nat.lt_succ_of_lt issued, fun i b there same => ?_⟩
    rcases entry?_of_push there with old | rfl
    · exact before i b old same
    · exact absurd same (Nat.ne_of_gt issued)
  | remove index =>
    refine ⟨issued, fun i b there same => ?_⟩
    rw [Command.edit, entry?_erase] at there
    split at there
    · exact before i b there same
    · exact Nat.lt_of_succ_lt (before (i + 1) b there same)
  | flush => exact ⟨issued, fun i b there _ => by cases there⟩
  | _ => exact ⟨issued, before⟩

theorem Lost.congr {q : Playlist} {serial : Nat} (lost : Lost k serial p)
    (same : SameEntries q p) : Lost k serial q := by
  refine ⟨same.issued ▸ lost.1, fun i a there => ?_⟩
  rw [same.entry_eq] at there
  exact lost.2 i a there

end Playlist

variable {ω : Type} {h : Host ω} {e e' : Engine}

/-- Along a run, an entry stays at its index if all turns spare it; otherwise it is lost. -/
theorem Run.kept_or_lost {k : Nat} {a : Entry} {calls : List Call} {turns : List Turn}
    (run : Run h e turns e') (coh : Coherent calls e) (here : e.playlist.entry? k = some a) :
    if ∀ t ∈ turns, t.command.spares k = true then e'.playlist.entry? k = some a
    else Playlist.Lost k a.serial e'.playlist := by
  induction run with
  | start => rwa [if_pos (by rintro t ⟨⟩)]
  | @turn turns t e₁ e₂ before takes ih =>
    have effect := takes.effect
    by_cases spared : ∀ t ∈ turns, t.command.spares k = true
    · rw [if_pos spared] at ih
      cases last : t.command.spares k with
      | true =>
        rw [if_pos (by simpa [or_imp, forall_and] using ⟨spared, last⟩), effect.entries.entry_eq]
        exact Playlist.entry?_edit last ih
      | false =>
        rw [if_neg (by simp [last])]
        have valid := (before.coherent_after coh).serials
        exact (Playlist.lost_of_edit last valid ih).congr effect.entries
    · rw [if_neg spared] at ih
      rw [if_neg fun all => spared fun t there => all t (List.mem_append_left _ there)]
      exact (ih.edit t.command).congr effect.entries

/-- Playing an index makes the entry there current. -/
theorem Takes.played {k : Nat} {calls : List Call}
    (takes : Takes h e ⟨.play (some k), .ok (), calls⟩ e') :
    e'.currentEntry? = e.playlist.entry? k ∧ k < e.playlist.count := by
  cases takes.effect with
  | play plays =>
    cases plays with
    | tried target start =>
      obtain rfl := Engine.playTarget_eq target
      have inside := Engine.playTarget_lt target
      cases start with
      | started here file stream => exact ⟨rfl, inside⟩

/-- An operation that is answered amid others: any turns may fall before each of its steps. The
engines are those at its start and right after its last step. -/
inductive Answers {α : Type} (h : Host ω) :
    Engine → Operation (ω × List Call) α → α → Engine → Prop
  | last {e : Engine} {w : ω × List Call} {effect : StageStep ω}
      {next : Stage (ω × List Call) → Operation (ω × List Call) α} {a : α}
      (answer : next (e, w) = .done a) : Answers h e (.step effect next) a (effect (e, w)).1
  | own {e e' : Engine} {w : ω × List Call} {effect : StageStep ω}
      {next : Stage (ω × List Call) → Operation (ω × List Call) α} {a : α}
      (rest : Answers h (effect (e, w)).1 (next (e, w)) a e') :
      Answers h e (.step effect next) a e'
  | others {e e' e'' : Engine} {turns : List Turn} {p : Operation (ω × List Call) α} {a : α}
      (run : Run h e turns e') (rest : Answers h e' p a e'') : Answers h e p a e''

namespace Answers

variable {α β : Type} {a : α}

/-- Before an operation takes a step, others take their turns. -/
theorem step {effect : StageStep ω} {next : Stage (ω × List Call) → Operation (ω × List Call) α}
    (answers : Answers h e (.step effect next) a e') :
    ∃ turns e₁ w, Run h e turns e₁ ∧
      ((next (e₁, w) = .done a ∧ e' = (effect (e₁, w)).1) ∨
        Answers h (effect (e₁, w)).1 (next (e₁, w)) a e') := by
  generalize whole : Procedure.step effect next = p at answers
  induction answers with
  | last answer => cases whole; exact ⟨[], _, _, .start, Or.inl ⟨answer, rfl⟩⟩
  | own rest => cases whole; exact ⟨[], _, _, .start, Or.inr rest⟩
  | others run _ ih =>
    obtain ⟨turns, e₁, w, more, step⟩ := ih whole
    exact ⟨_, e₁, w, run.append more, step⟩

/-- An operation without steps left is not waiting to be answered. -/
theorem not_done {b : α} (answers : Answers h e (.done b) a e') : False := by
  generalize whole : Procedure.done b = p at answers
  induction answers with
  | last answer => cases whole
  | own rest => cases whole
  | others run _ ih => exact ih whole

/-- What follows a step is the answer, or waits for it. -/
def Pending (h : Host ω) (e : Engine) (p : Operation (ω × List Call) α) (a : α) (e' : Engine) :
    Prop :=
  p = .done a ∨ Answers h e p a e'

theorem Pending.answer {b : α} (pending : Pending h e (.done b) a e') : b = a := by
  rcases pending with answer | rest
  · exact Procedure.done.inj answer
  · exact rest.not_done.elim

theorem Pending.rest {op : StateM (Stage (ω × List Call)) β}
    {next : β → Operation (ω × List Call) α} (pending : Pending h e (.atomic op next) a e') :
    Answers h e (.atomic op next) a e' := by
  rcases pending with answer | rest
  · cases answer
  · exact rest

/-- After a step that leaves the engine alone the operation goes on from there. -/
theorem look {op : StateM (Stage (ω × List Call)) β} {next : β → Operation (ω × List Call) α}
    (aside : ∀ s, (op s).2.1 = s.1) (answers : Answers h e (.atomic op next) a e') :
    ∃ turns e₁ b, Run h e turns e₁ ∧ Pending h e₁ (next b) a e' := by
  obtain ⟨turns, e₁, w, run, ⟨answer, _⟩ | rest⟩ := answers.step
  · exact ⟨turns, e₁, _, run, Or.inl answer⟩
  · rw [aside] at rest
    exact ⟨turns, e₁, _, run, Or.inr rest⟩

end Answers

/-- A step of another operation leaves the one at an index alone. -/
theorem getElem?_other {α : Type} {before after : List α} (x y : α) {i : Nat}
    (other : i ≠ before.length) : (before ++ x :: after)[i]? = (before ++ y :: after)[i]? := by
  have changed : before ++ y :: after = (before ++ x :: after).set before.length y := by simp
  rw [changed, List.getElem?_set_ne other.symm]

/-- What was answered stays answered. -/
theorem Interleaving.done_stays {α : Type} {s t : Stage (ω × List Call)}
    {ps qs : List (Operation (ω × List Call) α)} (steps : Interleaving s ps t qs) {i : Nat} {a : α}
    (done : ps[i]? = some (.done a)) : qs[i]? = some (.done a) := by
  induction steps with
  | refl => exact done
  | @step s t before after ps effect next _ ih =>
    by_cases here : i = before.length
    · subst here
      simp at done
    · exact ih ((getElem?_other _ _ here).symm.trans done)

/-- An operation that is answered while it is interleaved with others is answered amid their
turns. -/
theorem Interleaving.answers {α : Type} {s t : Stage (ω × List Call)}
    {ps qs : List (Operation (ω × List Call) α)} (steps : Interleaving s ps t qs)
    (sectional : ∀ p ∈ ps, p.Sectional h) {i : Nat} {effect : StageStep ω}
    {next : Stage (ω × List Call) → Operation (ω × List Call) α} {a : α}
    (here : ps[i]? = some (.step effect next)) (answered : qs[i]? = some (.done a)) :
    ∃ e later, Answers h s.1 (.step effect next) a e ∧ Run h e later t.1 := by
  induction steps generalizing effect next with
  | refl s ps =>
    rw [here] at answered
    cases answered
  | @step s t before after ps effect' next' rest ih =>
    have sectional' := Procedure.Sectional.after sectional s
    by_cases own : i = before.length
    · subst own
      obtain ⟨rfl, rfl⟩ : effect' = effect ∧ next' = next := by simpa using here
      cases behind : next' s with
      | done b =>
        rw [behind] at rest sectional'
        have stays := rest.done_stays (a := b) (i := before.length) (by simp)
        obtain rfl : a = b := Procedure.done.inj (Option.some.inj (answered.symm.trans stays))
        obtain ⟨later, run⟩ := rest.run sectional'
        exact ⟨_, later, .last behind, run⟩
      | step effect'' next'' =>
        have now : (before ++ next' s :: after)[before.length]? =
            some (.step effect'' next'') := by simp [behind]
        obtain ⟨e, later, answers, run⟩ := ih sectional' now answered
        exact ⟨e, later, .own (behind ▸ answers), run⟩
    · have other : (before ++ next' s :: after)[i]? = some (.step effect next) :=
        (getElem?_other _ _ own).symm.trans here
      obtain ⟨e, later, answers, run⟩ := ih sectional' other answered
      have taken : (Procedure.step effect' next').Sectional h := sectional _ (by simp)
      rcases taken.1 with ⟨c, enacts⟩ | aside
      · obtain ⟨turn, _, takes⟩ := enacts s.1 s.2
        exact ⟨e, later, .others (.turn .start takes) answers, run⟩
      · exact ⟨e, later, aside s ▸ answers, run⟩

/-- Only what was played is reported with success. -/
theorem Request.reportPlay_ok {r : Except PlayFailure Unit}
    (success : (reportPlay r).status = 200) : r = .ok () := by
  rcases r with (refusal | refusal) | _
  · cases refusal <;> cases success
  · cases refusal <;> cases success
  · rfl

/-- A request to play an index that is answered with success has left the engine to others and then
played the index. -/
theorem Answers.played {k : Nat} {response : Http.Response} (success : response.status = 200)
    (answers : Answers h e
      ((Operation.playEntry h.recorded (some k)).map Request.reportPlay) response e') :
    ∃ between e₁ made, Run h e between e₁ ∧ Takes h e₁ ⟨.play (some k), .ok (), made⟩ e' := by
  obtain ⟨between, e₁, ⟨w, calls⟩, run, ⟨answer, rfl⟩ | rest⟩ := answers.step
  · obtain ⟨r, e₂, w', made, ran, _⟩ := body_performs (h := h) (e := e₁) (.play (some k)) w
    have there : Engine.play h.recorded (some k) e₁ (w, calls) = ((r, e₂), (w', calls ++ made)) :=
      ran calls
    have reported : Request.reportPlay
        ((Engine.play h.recorded (some k) e₁ (w, calls)).1.1.mapError .notPlayed) = response :=
      Procedure.done.inj answer
    rw [there] at reported
    have played := Request.reportPlay_ok (reported ▸ success)
    cases r with
    | error refusal => cases played
    | ok =>
      have after :
          (Operation.onStage (Engine.play h.recorded (some k)) (e₁, (w, calls))).2.1 = e₂ := by
        rw [Operation.onStage, there]
      have takes : Takes h e₁ ⟨.play (some k), .ok (), made⟩ e₂ := ⟨w, w', ran []⟩
      exact ⟨between, e₁, made, run, after.symm ▸ takes⟩
  · exact rest.not_done.elim

/-- A request to play a file that is answered with success has appended an entry, left the engine to
others, and played the index of that entry. -/
theorem Answers.sections {resource : String} {response : Http.Response}
    (answers : Answers h e (Request.play.operation h.recorded resource) response e')
    (file : resource ≠ "") (success : response.status = 200) :
    ∃ root path, Library.resolve? root (Path.ofString resource) = some path ∧
      ∃ earlier e₁ tags e₂ between e₃ made, Run h e earlier e₁ ∧
        Takes h e₁ ⟨.add path tags, .ok (), []⟩ e₂ ∧ Run h e₂ between e₃ ∧
        Takes h e₃ ⟨.play (some e₁.playlist.count), .ok (), made⟩ e' := by
  rw [Request.operation, if_neg file, Operation.playFile, Operation.add, Procedure.atomic_andThen,
    Procedure.map_atomic] at answers
  obtain ⟨turns, e₁, root, run, asked⟩ := answers.look fun _ => rfl
  cases resolved : Library.resolve? root (Path.ofString resource) with
  | none =>
    rw [resolved] at asked
    rw [← asked.answer] at success
    cases success
  | some path =>
    rw [resolved] at asked
    simp only [Operation.addAt, Procedure.atomic_andThen, Procedure.map_atomic] at asked
    obtain ⟨turns', e₂, found, run', read⟩ := asked.rest.look fun _ => rfl
    cases found with
    | false =>
      rw [← read.answer] at success
      cases success
    | true =>
      simp only [Procedure.atomic_andThen, Procedure.map_atomic] at read
      obtain ⟨turns'', e₃, tags, run'', append⟩ := read.rest.look fun _ => rfl
      obtain ⟨earlier, e₄, w, run₄, ⟨answer, _⟩ | play⟩ := append.rest.step
      · cases answer
      obtain ⟨between, e₅, made, run₅, takes⟩ := play.played success
      have before := ((run.append run').append run'').append run₄
      exact ⟨root, path, resolved, _, e₄, tags.toOption, _, between, e₅, made, before,
        ⟨w.1, w.1, rfl⟩, run₅, takes⟩

/-- A request to play a file was served while others took their turns: it appended an entry, and
later it played the index that the entry had then. -/
inductive Served (h : Host ω) (e : Engine) (resource : String) :
    Entry → Nat → List Turn → Engine → Engine → Prop
  | served {root path : Path} {tags : Option Library.Tags} {earlier between later : List Turn}
      {e₁ e₂ e₃ e₄ e' : Engine} {made : List Call}
      (resolved : Library.resolve? root (Path.ofString resource) = some path)
      (before : Run h e earlier e₁) (adds : Takes h e₁ ⟨.add path tags, .ok (), []⟩ e₂)
      (others : Run h e₂ between e₃)
      (plays : Takes h e₃ ⟨.play (some e₁.playlist.count), .ok (), made⟩ e₄)
      (after : Run h e₄ later e') :
      Served h e resource ⟨path, tags, e₁.playlist.issued⟩ e₁.playlist.count between e₄ e'

/-- A request to play a file that is answered with success among other operations was served. -/
theorem Interleaving.serves {s t : Stage (ω × List Call)}
    {ps qs : List (Operation (ω × List Call) Http.Response)} {i : Nat} {resource : String}
    {response : Http.Response} (steps : Interleaving s ps t qs)
    (sectional : ∀ p ∈ ps, p.Sectional h)
    (asked : ps[i]? = some (Request.play.operation h.recorded resource)) (file : resource ≠ "")
    (answered : qs[i]? = some (.done response)) (success : response.status = 200) :
    ∃ entry index between played, Served h s.1 resource entry index between played t.1 := by
  cases whole : Request.play.operation h.recorded resource with
  | done a =>
    rw [Request.operation, if_neg file, Operation.playFile, Operation.add] at whole
    cases whole
  | step effect next =>
    rw [whole] at asked
    obtain ⟨e, later, answers, run⟩ := steps.answers sectional asked answered
    rw [← whole] at answers
    obtain ⟨root, path, resolved, earlier, e₁, tags, e₂, between, e₃, made, before, adds, others,
      plays⟩ := answers.sections file success
    exact ⟨_, _, between, e, .served resolved before adds others plays run⟩

/-- Playing the index that an entry was appended at makes the entry current exactly if every turn in
between spares the index. -/
theorem Run.appended_iff {history between : List Turn} {settings : Config.Music}
    {e₀ e₁ e₂ e₃ : Engine} {path : Path} {tags : Option Library.Tags} {added made : List Call}
    (run : Run h (.new settings) history e₀) (adds : Takes h e₀ ⟨.add path tags, .ok (), added⟩ e₁)
    (others : Run h e₁ between e₂)
    (plays : Takes h e₂ ⟨.play (some e₀.playlist.count), .ok (), made⟩ e₃) :
    e₃.currentEntry? = some ⟨path, tags, e₀.playlist.issued⟩ ↔
      ∀ t ∈ between, t.command.spares e₀.playlist.count = true := by
  have appended : e₁.playlist.entry? e₀.playlist.count = some ⟨path, tags, e₀.playlist.issued⟩ := by
    rw [adds.effect.entries.entry_eq]
    exact Playlist.entry?_push_count path tags
  have outcome := others.kept_or_lost (run.turn adds).coherent appended
  rw [plays.played.1]
  constructor
  · intro there
    apply Decidable.byContradiction
    intro struck
    rw [if_neg struck] at outcome
    exact Nat.lt_irrefl _ (outcome.2 _ _ there rfl)
  · intro spared
    rwa [if_pos spared] at outcome

/-- The entry that a request to play a file makes current is the one it appended exactly if every
turn in between spares its index: in terms of its two sections, and for every request among any other
operations that is answered with success. -/
theorem Run.played_appended_iff {settings : Config.Music} {history : List Turn} {e₀ : Engine}
    (run : Run h (.new settings) history e₀) :
    (∀ (between : List Turn) (e₁ e₂ e₃ : Engine) (path : Path) (tags : Option Library.Tags)
        (added made : List Call),
      Takes h e₀ ⟨.add path tags, .ok (), added⟩ e₁ → Run h e₁ between e₂ →
      Takes h e₂ ⟨.play (some e₀.playlist.count), .ok (), made⟩ e₃ →
      (e₃.currentEntry? = some ⟨path, tags, e₀.playlist.issued⟩ ↔
        ∀ t ∈ between, t.command.spares e₀.playlist.count = true)) ∧
    ∀ (w : ω × List Call) (t : Stage (ω × List Call))
        (ps qs : List (Operation (ω × List Call) Http.Response)) (i : Nat) (resource : String)
        (response : Http.Response),
      Interleaving (e₀, w) ps t qs → (∀ p ∈ ps, p.Sectional h) →
      ps[i]? = some (Request.play.operation h.recorded resource) → resource ≠ "" →
      qs[i]? = some (.done response) → response.status = 200 →
      ∃ entry index between played, Served h e₀ resource entry index between played t.1 ∧
        (played.currentEntry? = some entry ↔
          ∀ t ∈ between, t.command.spares index = true) := by
  refine ⟨fun _ _ _ _ _ _ _ _ adds others plays => run.appended_iff adds others plays, ?_⟩
  intro w t ps qs i resource response steps sectional asked file answered success
  obtain ⟨entry, index, between, played, served⟩ :=
    steps.serves sectional asked file answered success
  refine ⟨entry, index, between, played, served, ?_⟩
  obtain ⟨-, before, adds, others, plays, -⟩ := served
  exact (run.append before).appended_iff adds others plays

def oneEntry : List Turn × Engine :=
  rehearse [(.add ⟨[97]⟩ none, ⟨0, 0, [], .playing, false⟩)]

/-- There is one entry, and a second one is appended in order to be played. -/
def secondAppended : Turn × Engine :=
  act .rehearsed (.add ⟨[98]⟩ none) ⟨0, 0, [], .playing, false⟩ oneEntry.2

/-- Others remove the first entry and append a third one. -/
def indexStolen : List Turn × Engine :=
  enact .rehearsed [(.remove 0, ⟨0, 0, [], .playing, false⟩),
    (.add ⟨[99]⟩ none, ⟨0, 0, [], .playing, false⟩)] secondAppended.2

def indexSpared : List Turn × Engine :=
  enact .rehearsed [(.add ⟨[99]⟩ none, ⟨0, 0, [], .playing, false⟩)] secondAppended.2

/-- The first of several operations takes a step. -/
theorem Interleaving.head {σ α : Type} {s t : σ} {effect : σ → σ} {next : σ → Procedure σ α}
    {rest qs : List (Procedure σ α)} (steps : Interleaving (effect s) (next s :: rest) t qs) :
    Interleaving s (.step effect next :: rest) t qs :=
  @Interleaving.step σ α s t [] rest qs effect next steps

/-- The second of several operations takes a step. -/
theorem Interleaving.second {σ α : Type} {s t : σ} {effect : σ → σ} {next : σ → Procedure σ α}
    {p : Procedure σ α} {rest qs : List (Procedure σ α)}
    (steps : Interleaving (effect s) (p :: next s :: rest) t qs) :
    Interleaving s (p :: .step effect next :: rest) t qs :=
  @Interleaving.step σ α s t [p] rest qs effect next steps

/-- Requests to play a second file and to pause, with the first entry already there. -/
def pausedAmid : List (Operation (Rehearsal × List Call) Http.Response) :=
  [Request.play.operation Host.rehearsed.recorded "b",
    Request.pause.operation Host.rehearsed.recorded ""]

/-- The pause comes when the file was appended and is not yet played. -/
theorem pausedAmid_answered :
    ∃ t path, Library.resolve? oneEntry.2.settings.root (.ofString "b") = some path ∧
      Interleaving (oneEntry.2, (⟨0, 0, [], .playing, false⟩, [])) pausedAmid t
        [.done .ok, .done .ok] ∧
      Option.map Entry.path (Engine.currentEntry? t.1) = some path := by
  have resolved : Library.resolve? oneEntry.2.settings.root (Path.ofString "b") =
      some (oneEntry.2.settings.root.pushAll (Library.namesOf "b")) := by
    rw [Library.resolve?_ofString, if_neg (by decide)]
  generalize oneEntry.2.settings.root.pushAll (Library.namesOf "b") = path at resolved
  apply Exists.intro
  refine ⟨path, resolved, ?_, ?_⟩
  · rw [pausedAmid, Request.operation, if_neg (by decide), Operation.playFile, Operation.add,
      Procedure.atomic_andThen, Procedure.map_atomic]
    apply Interleaving.head
    have read (w : Rehearsal × List Call) : (Operation.onStage
        (do return (← get).settings.root) (oneEntry.2, w)).1 = oneEntry.2.settings.root := rfl
    rw [read]
    dsimp only
    rw [resolved]
    exact .head (.head (.head (.second (.head (.refl _ _)))))
  · rfl

theorem indexSpared_played :
    ((∀ t ∈ indexSpared.1, t.command.spares oneEntry.2.playlist.count = true) ∧
      Engine.currentEntry? (act .rehearsed (.play (some 1)) ⟨0, 0, [], .playing, false⟩
        indexSpared.2).2 = some ⟨⟨[98]⟩, none, oneEntry.2.playlist.issued⟩) ∧
    ∃ t path, Library.resolve? oneEntry.2.settings.root (.ofString "b") = some path ∧
      Interleaving (oneEntry.2, (⟨0, 0, [], .playing, false⟩, [])) pausedAmid t
        [.done .ok, .done .ok] ∧
      Option.map Entry.path (Engine.currentEntry? t.1) = some path ∧
      ∃ entry index between played, Served .rehearsed oneEntry.2 "b" entry index between played t.1 ∧
        (played.currentEntry? = some entry ↔
          ∀ t ∈ between, t.command.spares index = true) := by
  obtain ⟨of_sections, of_requests⟩ := Run.played_appended_iff (rehearse_run _)
  have spared : ∀ t ∈ indexSpared.1, t.command.spares oneEntry.2.playlist.count = true := by
    decide +kernel
  obtain ⟨t, path, resolved, steps, current⟩ := pausedAmid_answered
  have sectional : ∀ p ∈ pausedAmid, p.Sectional .rehearsed :=
    List.forall_mem_cons.mpr ⟨Request.play.sectional "b",
      List.forall_mem_singleton.mpr (Request.pause.sectional "")⟩
  refine ⟨⟨spared, ?_⟩, t, path, resolved, steps, current, ?_⟩
  · exact (of_sections _ _ _ _ _ _ _ _ (act_succeeds _ _ _ _ (by decide +kernel)) (enact_run _ _ _)
      (act_succeeds _ _ _ _ (by decide +kernel))).mpr spared
  · exact of_requests _ t _ _ 0 "b" .ok steps sectional rfl (by decide) rfl rfl

/-- With the index stolen, the third entry is played for the second. -/
theorem indexStolen_misses :
    ¬ ∀ (history between : List Turn) (e₀ e₁ e₂ e₃ : Engine) (path : Path)
      (tags : Option Library.Tags) (added made : List Call),
      Run .rehearsed (.new .default) history e₀ →
      Takes .rehearsed e₀ ⟨.add path tags, .ok (), added⟩ e₁ →
      Run .rehearsed e₁ between e₂ →
      Takes .rehearsed e₂ ⟨.play (some e₀.playlist.count), .ok (), made⟩ e₃ →
      e₃.currentEntry? = some ⟨path, tags, e₀.playlist.issued⟩ := by
  intro always
  have same := always _ _ _ _ _ _ ⟨[98]⟩ none _ _ (rehearse_run _)
    (act_succeeds _ (.add ⟨[98]⟩ none) ⟨0, 0, [], .playing, false⟩ oneEntry.2 (by decide +kernel))
    (enact_run _ _ _)
    (act_succeeds _ (.play (some 1)) ⟨0, 0, [], .playing, false⟩ indexStolen.2 (by decide +kernel))
  revert same
  decide +kernel

end Jukebox.Playback
