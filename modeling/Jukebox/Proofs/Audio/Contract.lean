import Mathlib.Data.List.Nodup
import Jukebox.Proofs.Audio.Ledger
import Jukebox.Proofs.Audio.Tally
/-!
# What an output owes its clients

`Output.Reflects` ties an output to a ledger. A call keeps it and is answered as by the ledger; by
induction so is a run of calls. Which numbers are issued and which are registered can then be read
off the calls and their answers.
-/
namespace Jukebox.Audio

variable {σ κ α : Type}

namespace Output

theorem size_eq (out : Output σ κ α) : out.size = out.mixer.ids.length :=
  (List.length_map _).symm

/-- Under a number that is not registered there is nothing to let play, to hold or to remove. -/
theorem unknown {out : Output σ κ α} {id : StreamId} (unknown : id ∉ out.mixer.ids) :
    out.play id = out ∧ out.pause id = out ∧ out.remove id = out ∧ out.isDrained id = true := by
  refine ⟨?_, ?_, ?_, ?_⟩
  · rw [play, Mixer.setPlaying, Mixer.update_unknown unknown]
  · rw [pause, Mixer.setPlaying, Mixer.update_unknown unknown]
  · rw [remove, Mixer.remove_unknown unknown]
  · rw [isDrained, Mixer.isDrained, Mixer.stream?_eq_none.mpr unknown, Option.all_none]

/-- A call on one stream leaves the others as they are. -/
theorem others (out : Output σ κ α) {id i : StreamId} (other : i ≠ id) :
    (out.play id).mixer.stream? i = out.mixer.stream? i ∧
      (out.pause id).mixer.stream? i = out.mixer.stream? i ∧
      (out.remove id).mixer.stream? i = out.mixer.stream? i := by
  refine ⟨?_, ?_, ?_⟩
  · simp only [play, Mixer.setPlaying, Mixer.stream?_update, if_neg other, Option.map_id']
  · simp only [pause, Mixer.setPlaying, Mixer.stream?_update, if_neg other, Option.map_id']
  · rw [remove, Mixer.stream?_remove, if_neg other]

end Output

/-- A stream that is refused: it has no rate or no channels, or it is at another rate than the
device and cannot be converted. -/
def Output.Refuses (r : Resampler κ α) (rate : Nat) (format : Format) : Prop :=
  format.rate = 0 ∨ format.channels = 0 ∨
    (format.rate ≠ rate ∧ ∃ reason, r.create format.rate rate format.channels = .error reason)

structure Output.Reflects (device : Format) (out : Output σ κ α) (l : Ledger σ κ α) : Prop where
  rate : out.mixer.rate = device.rate
  channels : out.mixer.channels = device.channels
  next : out.mixer.next = l.issued.length + 1
  issued : l.issued = (List.range' 1 l.issued.length).map StreamId.mk
  ids : out.mixer.ids = l.standing
  streams : ∀ id, l.stream? id = (out.mixer.stream? id).map Stream.registration
  settled : ∀ id s, out.mixer.stream? id = some s → s.Settled

namespace Output.Reflects

variable {device : Format} {out : Output σ κ α} {l : Ledger σ κ α}

theorem mem_issued (reflects : out.Reflects device l) {id : StreamId} :
    id ∈ l.issued ↔ 0 < id.number ∧ id.number ≤ l.issued.length := by
  rw [reflects.issued, List.mem_map]
  simp only [List.mem_range'_1, List.length_map, List.length_range']
  constructor
  · rintro ⟨n, ⟨least, most⟩, rfl⟩
    exact ⟨least, by dsimp only; omega⟩
  · rintro ⟨least, most⟩
    exact ⟨id.number, ⟨least, by omega⟩, rfl⟩

theorem issued_nodup (reflects : out.Reflects device l) : l.issued.Nodup := by
  rw [reflects.issued]
  exact List.Nodup.map (fun _ _ => StreamId.mk.inj) List.nodup_range'

theorem numbered (reflects : out.Reflects device l) : out.mixer.Numbered where
  distinct := by
    rw [reflects.ids]
    exact reflects.issued_nodup.filter _
  below id there := by
    rw [reflects.ids, Ledger.standing, List.mem_filter] at there
    have known := reflects.mem_issued.mp there.1
    rw [reflects.next]
    omega

/-- The number that the next stream gets is the one that the ledger issues, and it is free. -/
theorem unissued (reflects : out.Reflects device l) :
    (⟨out.mixer.next⟩ : StreamId) = ⟨l.issued.length + 1⟩ ∧
      (⟨l.issued.length + 1⟩ : StreamId) ∉ l.issued ∧
      out.mixer.stream? ⟨out.mixer.next⟩ = none := by
  refine ⟨by rw [reflects.next], fun issued => ?_, ?_⟩
  · exact Nat.not_succ_le_self _ (reflects.mem_issued.mp issued).2
  · exact reflects.numbered.unused (Nat.le_refl _)

theorem opened (device : Format) (name : Option String) :
    (opened device name : Output σ κ α).Reflects ⟨max device.rate 1, max device.channels 1⟩
      .empty where
  rate := rfl
  channels := rfl
  next := rfl
  issued := rfl
  ids := rfl
  streams _ := rfl
  settled _ _ there := by cases there

theorem register (reflects : out.Reflects device l) {s : Stream σ κ α} (settled : s.Settled) :
    Reflects device { out with mixer := out.mixer.register s } (l.register s.registration).2 := by
  obtain ⟨number, fresh, free⟩ := reflects.unissued
  have held : l.stream? ⟨l.issued.length + 1⟩ = none := by
    rw [reflects.streams, ← number, free, Option.map_none]
  refine ⟨reflects.rate, reflects.channels, ?_, ?_, ?_, fun id => ?_, fun id s' there => ?_⟩
  · simp [Ledger.register, Mixer.register, reflects.next]
  · have grown := reflects.issued
    simp only [Ledger.register, List.length_append, List.length_singleton]
    rw [List.range'_concat, List.map_append, ← grown]
    simp [Nat.add_comm]
  · rw [Ledger.standing_register fresh, ← reflects.ids, ← number]
    simp [Mixer.ids, Mixer.register]
  · rw [Mixer.stream?_register, number]
    by_cases new : id = ⟨l.issued.length + 1⟩
    · rw [new, ← number, free, number]
      simp [Ledger.stream?_register]
    · simp [Ledger.stream?_register, new, Ne.symm new, reflects.streams]
  · rcases Mixer.of_stream?_register there with old | ⟨_, rfl⟩
    · exact reflects.settled id s' old
    · exact settled

theorem setPlaying (reflects : out.Reflects device l) (id : StreamId) (playing : Bool) :
    Reflects device { out with mixer := out.mixer.setPlaying id playing }
      (l.setPlaying id playing) := by
  refine ⟨reflects.rate, reflects.channels, reflects.next, reflects.issued, ?_, fun i => ?_,
    fun i s there => ?_⟩
  · rw [Ledger.standing_setPlaying, ← reflects.ids]
    exact Mixer.ids_update ..
  · rw [Mixer.setPlaying, Mixer.stream?_update, Ledger.stream?_setPlaying, reflects.streams,
      Option.map_map, Option.map_map]
    by_cases here : i = id
    · simp only [if_pos here]
      rfl
    · simp only [if_neg here]
      rfl
  · obtain ⟨s', old, rfl | rfl⟩ := Mixer.of_stream?_update there
    · exact reflects.settled i s old
    · exact reflects.settled i s' old

theorem remove (reflects : out.Reflects device l) (id : StreamId) :
    Reflects device { out with mixer := out.mixer.remove id } (l.remove id) := by
  refine ⟨reflects.rate, reflects.channels, reflects.next, reflects.issued, ?_, fun i => ?_,
    fun i s there => ?_⟩
  · rw [Ledger.standing_remove, ← reflects.ids, Mixer.ids, Mixer.ids, Mixer.remove, List.filter_map]
    rfl
  · rw [Mixer.stream?_remove, Ledger.stream?_remove, reflects.streams]
    by_cases here : i = id
    · simp only [if_pos here, Option.map_none]
    · simp only [if_neg here]
  · exact reflects.settled i s (Mixer.of_stream?_remove there)

section

variable (r : Resampler κ α)

/-- An output accepts the streams that the ledger accepts. -/
theorem add_cases (reflects : out.Reflects device l) (format : Format) (source : σ) :
    (Refuses r device.rate format ∧ ∃ f, out.add r format source = .error f ∧
      (Ledger.registration r device format source : Except Fault (Registration σ κ α)) =
        .error f) ∨
    (¬Refuses r device.rate format ∧ ∃ c, out.add r format source = .ok (⟨out.mixer.next⟩,
        { out with mixer := out.mixer.register (.new source format.channels c) }) ∧
      Ledger.registration r device format source =
        .ok (Stream.new source format.channels c).registration) := by
  unfold Output.add Ledger.registration
  by_cases shapeless : format.rate = 0 ∨ format.channels = 0
  · rw [if_pos shapeless, if_pos shapeless]
    exact Or.inl ⟨shapeless.imp_right Or.inl, _, rfl, rfl⟩
  · obtain ⟨rated, wide⟩ := not_or.mp shapeless
    have width : max format.channels 1 = format.channels := by omega
    rw [if_neg shapeless, if_neg shapeless, ← reflects.rate]
    by_cases rate : format.rate = out.mixer.rate
    · rw [if_pos rate, Mixer.add_eq r _ source rate, width]
      exact Or.inr ⟨fun refuses => (refuses.resolve_left rated).elim wide fun other => other.1 rate,
        none, rfl, rfl⟩
    · rw [if_neg rate, Mixer.add, if_neg rate, width, Converter.new]
      cases made : r.create format.rate out.mixer.rate format.channels with
      | error reason => exact Or.inl ⟨Or.inr (Or.inr ⟨rate, reason, made⟩), _, rfl, rfl⟩
      | ok k =>
        refine Or.inr ⟨fun refuses => ?_, some _, rfl, rfl⟩
        obtain ⟨_, reason, failed⟩ := (refuses.resolve_left rated).resolve_left wide
        rw [made] at failed
        cases failed

/-- An accepted stream gets a number that was not issued before. It is held and not drained, and
the other streams are as they were. -/
theorem accepts (reflects : out.Reflects device l) {format : Format} {source : σ}
    (suits : ¬Refuses r device.rate format) :
    ∃ id out' s, out.add r format source = .ok (id, out') ∧
      id.number = l.issued.length + 1 ∧ out.mixer.stream? id = none ∧
      out'.mixer.stream? id = some s ∧ s.source = source ∧ s.playing = false ∧
      out'.isDrained id = false ∧ out'.size = out.size + 1 ∧
      ∀ i, i ≠ id → out'.mixer.stream? i = out.mixer.stream? i := by
  rcases reflects.add_cases r format source with ⟨refuses, _⟩ | ⟨_, c, accepted, _⟩
  · exact absurd refuses suits
  · obtain ⟨number, _, free⟩ := reflects.unissued
    have there : (out.mixer.register (.new source format.channels c)).stream? ⟨out.mixer.next⟩ =
        some (.new source format.channels c) := by
      rw [Mixer.stream?_register, free, if_pos rfl, Option.none_or]
    refine ⟨_, _, _, accepted, congrArg StreamId.number number, free, there, rfl, rfl, ?_, ?_,
      fun i other => ?_⟩
    · rw [Output.isDrained, Mixer.isDrained, there]
      rfl
    · exact List.length_append
    · rw [Mixer.stream?_register, if_neg (Ne.symm other), Option.or_none]

variable [Sample α] (read : Source σ α)

/-- What a stream gives to a mix is what its registration gives. -/
theorem supply (reflects : out.Reflects device l) (count : Nat) {id : StreamId} {s : Stream σ κ α}
    (there : out.mixer.stream? id = some s) :
    (s.supply r read (deviceFrames device.channels count)).1 =
        (s.registration.supply r read (deviceFrames device.channels count)).1.toArray ∧
      (s.supply r read (deviceFrames device.channels count)).2.registration =
        (s.registration.supply r read (deviceFrames device.channels count)).2 ∧
      (s.supply r read (deviceFrames device.channels count)).2.Settled :=
  (reflects.settled id s there).supply r read (deviceFrames device.channels count)

/-- The streams add their parts in the order of their numbers. -/
theorem samples (reflects : out.Reflects device l) (count : Nat) :
    (out.mix r read count).1 = (l.mix r read device count).1 := by
  have filled : (out.mix r read count).1.size = count := by
    rw [Output.mix, Mixer.mix, Mixer.size_fill, Array.size_replicate]
  have room : (l.mix r read device count).1.size = count := by simp [Ledger.mix]
  refine Array.ext_getElem? fun i => ?_
  by_cases inside : i < count
  · have there : i < (Array.replicate count (Sample.silence : α)).size := by simpa using inside
    rw [Output.mix, Mixer.mix, Mixer.getElem?_fill r read _ _ there, Ledger.mix,
      Array.getElem?_map, Array.getElem?_eq_getElem (by simpa using inside), Option.map_some,
      Array.getElem_range, ← reflects.ids, Mixer.ids, List.filterMap_map, reflects.channels,
      Array.size_replicate]
    congr 2
    refine List.filterMap_congr fun p member => ?_
    have registered := reflects.numbered.stream?_eq member
    rw [Function.comp, reflects.streams, registered, Option.map_some, Option.bind_some,
      (reflects.supply r read count registered).1]
  · rw [Array.getElem?_eq_none (by omega), Array.getElem?_eq_none (by omega)]

theorem mix (reflects : out.Reflects device l) (count : Nat) :
    (out.mix r read count).2.Reflects device (l.mix r read device count).2 := by
  refine ⟨reflects.rate, reflects.channels, ?_, reflects.issued, ?_, fun id => ?_,
    fun id s there => ?_⟩
  · simp only [Output.mix, Mixer.mix, Mixer.fill_streams]
    exact reflects.next
  · rw [Ledger.standing_mix, ← reflects.ids]
    exact Mixer.ids_fill ..
  · simp only [Output.mix, Mixer.mix, Mixer.stream?_fill, Ledger.mix, reflects.streams,
      Option.map_map, reflects.channels, Array.size_replicate]
    exact Option.map_congr fun s there => (reflects.supply r read count there).2.1.symm
  · simp only [Output.mix, Mixer.mix, Mixer.stream?_fill, reflects.channels,
      Array.size_replicate] at there
    obtain ⟨s', old, rfl⟩ := Option.map_eq_some_iff.mp there
    exact (reflects.supply r read count old).2.2

/-- A call is answered as by the ledger. -/
theorem answer (reflects : out.Reflects device l) (call : Call σ) :
    (out.answer r read call).1 = (l.answer r read device call).1 ∧
      (out.answer r read call).2.Reflects device (l.answer r read device call).2 := by
  cases call with
  | add format source =>
    simp only [Output.answer, Ledger.answer]
    rcases reflects.add_cases r format source with
      ⟨_, f, refused, same⟩ | ⟨_, c, accepted, same⟩
    · rw [refused, same]
      exact ⟨rfl, reflects⟩
    · rw [accepted, same]
      refine ⟨?_, reflects.register fun exhausted => by cases exhausted⟩
      rw [reflects.unissued.1]
      rfl
  | play id => exact ⟨rfl, reflects.setPlaying id true⟩
  | pause id => exact ⟨rfl, reflects.setPlaying id false⟩
  | remove id => exact ⟨rfl, reflects.remove id⟩
  | isDrained id =>
    refine ⟨?_, reflects⟩
    simp only [Output.answer, Ledger.answer, Output.isDrained, Mixer.isDrained, reflects.streams]
    cases out.mixer.stream? id with
    | none => rfl
    | some s => rfl
  | size =>
    simp only [Output.answer, Ledger.answer, size_eq, reflects.ids]
    exact ⟨trivial, reflects⟩
  | mix count =>
    exact ⟨congrArg Answer.mixed (reflects.samples r read count), reflects.mix r read count⟩

/-- Calls are answered as by the ledger. -/
theorem answers (reflects : out.Reflects device l) (calls : List (Call σ)) :
    (out.answers r read calls).1 = (l.answers r read device calls).1 ∧
      (out.answers r read calls).2.Reflects device (l.answers r read device calls).2 := by
  induction calls generalizing out l with
  | nil => exact ⟨rfl, reflects⟩
  | cons call rest ih =>
    obtain ⟨first, after⟩ := reflects.answer r read call
    obtain ⟨later, last⟩ := ih after
    simp only [Output.answers, Ledger.answers]
    exact ⟨by rw [first, later], last⟩

end

end Output.Reflects

namespace Output

def Answer.issued? : Answer α → Option StreamId
  | .added (.ok id) => some id
  | _ => none

def issued (given : List (Answer α)) : List StreamId :=
  given.filterMap Answer.issued?

/-- The registered numbers after a call that was answered. -/
def standingAfter (ids : List StreamId) : Call σ → Answer α → List StreamId
  | .add .., .added (.ok id) => ids ++ [id]
  | .remove id, _ => ids.filter (· ≠ id)
  | _, _ => ids

/-- The numbers that were issued and not removed, as calls and their answers tell. -/
def standing (calls : List (Call σ)) (given : List (Answer α)) : List StreamId :=
  (calls.zip given).foldl (fun ids (call, answer) => standingAfter ids call answer) []

end Output

namespace Ledger

variable [Sample α] (r : Resampler κ α) (read : Source σ α) (device : Format)

theorem issued_answer (l : Ledger σ κ α) (call : Output.Call σ) :
    (l.answer r read device call).2.issued =
      l.issued ++ (l.answer r read device call).1.issued?.toList := by
  cases call with
  | add format source =>
    simp only [answer]
    cases registration r device format source with
    | error f => exact (List.append_nil _).symm
    | ok e => rfl
  | _ => exact (List.append_nil _).symm

/-- The ledger keeps the numbers that its answers issue. -/
theorem issued_answers (l : Ledger σ κ α) (calls : List (Output.Call σ)) :
    (l.answers r read device calls).2.issued =
      l.issued ++ Output.issued (l.answers r read device calls).1 := by
  induction calls generalizing l with
  | nil => exact (List.append_nil _).symm
  | cons call rest ih =>
    simp only [answers, ih, issued_answer, Output.issued, List.append_assoc]
    rw [List.filterMap_cons]
    cases (l.answer r read device call).1.issued? <;> rfl

end Ledger

namespace Output

variable [Sample α] (r : Resampler κ α) (read : Source σ α)

theorem length_answers (out : Output σ κ α) (calls : List (Call σ)) :
    (out.answers r read calls).1.length = calls.length := by
  induction calls generalizing out with
  | nil => rfl
  | cons call rest ih => simp only [answers, List.length_cons, ih]

namespace Reflects

variable {device : Format} {out : Output σ κ α} {l : Ledger σ κ α}

/-- Only an accepted stream and a removal change which numbers are registered. -/
theorem ids_answer (reflects : out.Reflects device l) (call : Call σ) :
    (out.answer r read call).2.mixer.ids =
      standingAfter out.mixer.ids call (out.answer r read call).1 := by
  cases call with
  | add format source =>
    simp only [Output.answer]
    rcases reflects.add_cases r format source with ⟨_, f, refused, _⟩ | ⟨_, c, accepted, _⟩
    · rw [refused]
      rfl
    · rw [accepted]
      exact List.map_append
  | play id => exact Mixer.ids_update ..
  | pause id => exact Mixer.ids_update ..
  | remove id =>
    simp only [Output.answer, Output.remove, Mixer.ids, Mixer.remove, standingAfter,
      List.filter_map]
    rfl
  | isDrained id => rfl
  | size => rfl
  | mix count => exact Mixer.ids_fill ..

theorem ids_answers (reflects : out.Reflects device l) (calls : List (Call σ)) :
    (out.answers r read calls).2.mixer.ids =
      (calls.zip (out.answers r read calls).1).foldl
        (fun ids (call, answer) => standingAfter ids call answer) out.mixer.ids := by
  induction calls generalizing out l with
  | nil => rfl
  | cons call rest ih =>
    simp only [Output.answers, List.zip_cons_cons, List.foldl_cons]
    rw [ih (reflects.answer r read call).2, reflects.ids_answer r read call]

end Reflects

/-- An output keeps its contract over every run of fewer calls than there are numbers, with any
formats and any numbers. The calls are answered as by a ledger. Numbers are issued one after the
other and never twice, and a refused stream uses up none. A stream is refused without a rate,
without channels or if it cannot be converted; any other gets a new number, is held and not drained,
and leaves the others as they were. The registered numbers are those that were issued and not
removed since. Under any other number there is nothing to let play, to hold or to remove, and it
counts as drained. A call on one stream leaves the others as they are. -/
theorem keeps_contract {device : Format} {name : Option String} {calls : List (Call σ)}
    {given : List (Answer α)} {out : Output σ κ α} (few : calls.length < 2 ^ 64)
    (ran : (opened device name).answers r read calls = (given, out)) :
    ((Ledger.empty : Ledger σ κ α).answers r read ⟨max device.rate 1, max device.channels 1⟩
        calls).1 = given ∧
    (issued given).map StreamId.number = List.range' 1 (issued given).length ∧
    (issued given).Nodup ∧ (∀ id ∈ issued given, id.number < 2 ^ 64) ∧
    (∀ format source, Refuses r (max device.rate 1) format →
      ∃ f, out.answer r read (.add format source) = (.added (.error f), out)) ∧
    (∀ format source, ¬Refuses r (max device.rate 1) format →
      ∃ id out' s, out.add r format source = .ok (id, out') ∧
        id.number = (issued given).length + 1 ∧ out.mixer.stream? id = none ∧
        out'.mixer.stream? id = some s ∧ s.source = source ∧ s.playing = false ∧
        out'.isDrained id = false ∧ out'.size = out.size + 1 ∧
        ∀ i, i ≠ id → out'.mixer.stream? i = out.mixer.stream? i) ∧
    (standing calls given).Nodup ∧ out.size = (standing calls given).length ∧
    (∀ id, (out.mixer.stream? id).isSome = true ↔ id ∈ standing calls given) ∧
    (∀ id, id ∉ standing calls given →
      out.play id = out ∧ out.pause id = out ∧ out.remove id = out ∧ out.isDrained id = true) ∧
    ∀ id i, i ≠ id →
      (out.play id).mixer.stream? i = out.mixer.stream? i ∧
        (out.pause id).mixer.stream? i = out.mixer.stream? i ∧
        (out.remove id).mixer.stream? i = out.mixer.stream? i := by
  have start := @Reflects.opened σ κ α device name
  obtain ⟨same, reflects⟩ := start.answers r read calls
  have ids := start.ids_answers r read calls
  have numbers := Ledger.issued_answers r read ⟨max device.rate 1, max device.channels 1⟩
    Ledger.empty calls
  have length := length_answers r read (opened device name) calls
  rw [ran] at same reflects ids length
  rw [← same] at numbers
  generalize (Ledger.empty.answers r read _ calls).2 = l at reflects numbers
  change l.issued = issued given at numbers
  change out.mixer.ids = standing calls given at ids
  have fewer : (issued given).length < 2 ^ 64 :=
    Nat.lt_of_le_of_lt (List.length_filterMap_le _ _) (length ▸ few)
  refine ⟨same.symm, ?_, numbers ▸ reflects.issued_nodup, fun id there => ?_,
    fun format source refuses => ?_, fun format source suits => ?_,
    ids ▸ reflects.numbered.distinct, ?_, fun id => ?_, fun id gone => unknown (ids ▸ gone),
    fun id i other => others out other⟩
  · have unnumbered : StreamId.number ∘ StreamId.mk = id := rfl
    have every := congrArg (List.map StreamId.number) reflects.issued
    rwa [List.map_map, unnumbered, List.map_id, numbers] at every
  · rw [← numbers, reflects.mem_issued] at there
    rw [← numbers] at fewer
    omega
  · rcases reflects.add_cases r format source with ⟨_, f, refused, _⟩ | ⟨suits, _⟩
    · exact ⟨f, by rw [answer, refused]⟩
    · exact absurd refuses suits
  · exact numbers ▸ reflects.accepts r suits
  · rw [size_eq, ids]
  · rw [← ids, Option.isSome_iff_ne_none, ne_eq, Mixer.stream?_eq_none, not_not]

end Output

/-- A tape is let play to the device and removed, and another one stays. The calls name numbers that
are not registered too, and one stream is refused. -/
def twoTapesCalls : List (Output.Call (Tape ℚ)) :=
  [.play ⟨1⟩, .add ⟨44100, 1⟩ ⟨#[1 / 10, 2 / 10, 3 / 10], none, 0⟩, .add ⟨44100, 0⟩ ⟨#[], none, 0⟩,
    .add ⟨44100, 2⟩ ⟨#[1 / 2, -1 / 2], none, 0⟩, .play ⟨1⟩, .mix 4, .remove ⟨1⟩, .isDrained ⟨1⟩,
    .remove ⟨7⟩, .size]

def twoTapesAnswered : List (Output.Answer ℚ) × Output (Tape ℚ) Unit ℚ :=
  (Output.opened ⟨44100, 2⟩ none).answers .idle Tape.read twoTapesCalls

/-- The first tape is gone, and the second has the second number though another was refused. -/
theorem twoTapesAnswered_keeps_contract :
    Output.standing twoTapesCalls twoTapesAnswered.1 = [⟨2⟩] ∧
    twoTapesAnswered.2.size = 1 ∧ twoTapesAnswered.2.isDrained ⟨1⟩ = true ∧
    twoTapesAnswered.2.play ⟨7⟩ = twoTapesAnswered.2 ∧
    (twoTapesAnswered.2.mixer.stream? ⟨2⟩).isSome = true ∧
    (∃ f, twoTapesAnswered.2.answer .idle Tape.read (.add ⟨0, 1⟩ ⟨#[], none, 0⟩) =
      (.added (.error f), twoTapesAnswered.2)) := by
  have few : twoTapesCalls.length < 2 ^ 64 := by decide
  have ran : (Output.opened ⟨44100, 2⟩ none).answers .idle Tape.read twoTapesCalls =
      (twoTapesAnswered.1, twoTapesAnswered.2) := rfl
  have standing : Output.standing twoTapesCalls twoTapesAnswered.1 = [⟨2⟩] := by decide +kernel
  obtain ⟨_, _, _, _, refused, _, _, size, registered, gone, _⟩ :=
    Output.keeps_contract .idle Tape.read few ran
  rw [standing] at size registered gone
  refine ⟨standing, size, (gone ⟨1⟩ (by decide)).2.2.2, (gone ⟨7⟩ (by decide)).1,
    (registered ⟨2⟩).mpr (by decide), refused _ _ (Or.inl rfl)⟩

end Jukebox.Audio
