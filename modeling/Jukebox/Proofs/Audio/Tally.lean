import Mathlib.Algebra.Field.Rat
import Mathlib.Data.List.Basic
import Mathlib.Tactic.NormNum
import Jukebox.Audio.Stream
import Jukebox.Proofs.Audio.Mixing
/-!
# Nothing is lost between a source and the device

A `Tally` is a mixer whose sources keep a record of their reads, together with the frames of each
stream that were mixed. For as long as all streams run at the rate of the device it stays balanced:
the frames that were read for a registered stream are those that were mixed and those that wait in
its buffer, in this order. Sources are any states with any way to read them, so they may deliver in
pieces, claim too much, or deliver again after they ran dry.
-/
namespace Jukebox.Audio

/-- Numbers that are added and divided exactly. -/
instance Sample.exact {K : Type} [Field K] : Sample K where
  silence := 0
  add := (· + ·)
  mean frame := frame.foldl (· + ·) 0 / (frame.size : K)

/-- What is done to a mixer. Apart from that a source may change on its own, as a file does that is
sought. -/
inductive Operation (σ α : Type) where
  | add (format : Format) (source : σ)
  | setPlaying (id : StreamId) (playing : Bool)
  | remove (id : StreamId)
  | mix (out : Array α)
  | stir (id : StreamId) (change : σ → σ)

/-- After a change that leaves the frames of a stream where they are, the streams are those of
before up to this change. -/
theorem Mixer.akin_of_update {σ κ α : Type} {m : Mixer (σ × Reads α) κ α} {i id : StreamId}
    {f : Stream (σ × Reads α) κ α → Stream (σ × Reads α) κ α} {s' : Stream (σ × Reads α) κ α}
    (there : (m.update i f).stream? id = some s') (akin : ∀ s, Stream.Akin s (f s)) :
    ∃ s, m.stream? id = some s ∧ s.Akin s' := by
  obtain ⟨s, old, rfl | rfl⟩ := of_stream?_update there
  · exact ⟨s', old, .refl s'⟩
  · exact ⟨s, old, akin s⟩

structure Tally (σ κ α : Type) where
  mixer : Mixer (σ × Reads α) κ α
  mixed : StreamId → List (Frame α)

variable {σ κ α : Type}

section

variable [Sample α] (r : Resampler κ α) (read : Source σ α)

/-- What a stream gives to a mix is accounted for, and it gives less than it was asked for only
where its source has run dry. -/
theorem Stream.Fit.supply {s : Stream (σ × Reads α) κ α} (fit : s.Fit) (count : Nat) :
    ∃ asked, Supplies s (s.supply r read.recorded count).1.toList asked
        (s.supply r read.recorded count).2 ∧
      (s.supply r read.recorded count).1.size ≤ count ∧
      (s.playing = true → (s.supply r read.recorded count).1.size < count →
        RanDry s.channels asked) := by
  cases playing : s.playing with
  | true =>
    obtain ⟨fs, asked, s', eq, supplies, few, dry⟩ := fit.draw r read count #[]
    rw [Stream.supply, playing, if_pos rfl, eq]
    exact ⟨asked, by simpa using supplies, by simpa using few, fun _ => by simpa using dry⟩
  | false =>
    rw [Stream.supply_held r _ playing]
    exact ⟨[], .refl fit, Nat.zero_le _, fun plays => absurd plays Bool.false_ne_true⟩

namespace Tally

def new (rate channels : Nat) : Tally σ κ α :=
  ⟨.new rate channels, fun _ => []⟩

/-- The tally after an operation. A mix is counted in by the frames that the streams give. -/
def next (t : Tally σ κ α) : Operation σ α → Tally σ κ α
  | .add format source =>
    match t.mixer.add r format (source, []) with
    | .ok (_, mixer) => { t with mixer }
    | .error _ => t
  | .setPlaying id playing => { t with mixer := t.mixer.setPlaying id playing }
  | .remove id => { t with mixer := t.mixer.remove id }
  | .mix out =>
    { mixer := (t.mixer.fill r read.recorded out).2
      mixed := fun id => t.mixed id ++
        t.mixer.supplied r read.recorded (deviceFrames t.mixer.channels out.size) id }
  | .stir id change =>
    { t with
      mixer := t.mixer.update id fun s => { s with source := (change s.source.1, s.reads) } }

def after (t : Tally σ κ α) (ops : List (Operation σ α)) : Tally σ κ α :=
  ops.foldl (next r read) t

/-- What was read for each registered stream was mixed or waits. -/
structure Balanced (t : Tally σ κ α) : Prop where
  numbered : t.mixer.Numbered
  unused : ∀ id, t.mixer.next ≤ id.number → t.mixed id = []
  fit : ∀ id s, t.mixer.stream? id = some s → s.Fit
  balance : ∀ id s, t.mixer.stream? id = some s →
    framesRead s.channels s.reads = t.mixed id ++ s.rest

variable {t : Tally σ κ α}

@[simp] theorem mixer_next_mix (out : Array α) :
    (t.next r read (.mix out)).mixer = (t.mixer.fill r read.recorded out).2 := rfl

@[simp] theorem mixed_next_mix (out : Array α) (id : StreamId) :
    (t.next r read (.mix out)).mixed id = t.mixed id ++
      t.mixer.supplied r read.recorded (deviceFrames t.mixer.channels out.size) id := rfl

theorem new_balanced (rate channels : Nat) : (new rate channels : Tally σ κ α).Balanced where
  numbered := ⟨.nil, List.forall_mem_nil _⟩
  unused _ _ := rfl
  fit id s there := by cases there
  balance id s there := by cases there

namespace Balanced

/-- A new stream has read nothing, and nothing of its number was mixed. -/
theorem register (balanced : t.Balanced) (source : σ) {channels : Nat} (pos : 0 < channels) :
    Balanced { t with mixer := t.mixer.register (.new (source, []) channels none) } := by
  refine ⟨balanced.numbered.register _, fun id later => ?_, fun id s there => ?_,
    fun id s there => ?_⟩
  · exact balanced.unused id (Nat.le_of_succ_le later)
  · rcases Mixer.of_stream?_register there with old | ⟨_, rfl⟩
    · exact balanced.fit id s old
    · exact Stream.new_fit _ pos
  · rcases Mixer.of_stream?_register there with old | ⟨rfl, rfl⟩
    · exact balanced.balance id s old
    · rw [balanced.unused _ (Nat.le_refl _), Stream.rest_new]
      rfl

theorem remove (balanced : t.Balanced) (i : StreamId) :
    Balanced { t with mixer := t.mixer.remove i } := by
  have kept : ∀ {id s}, (t.mixer.remove i).stream? id = some s → t.mixer.stream? id = some s :=
    Mixer.of_stream?_remove
  exact ⟨balanced.numbered.remove i, balanced.unused,
    fun id s there => balanced.fit id s (kept there),
    fun id s there => balanced.balance id s (kept there)⟩

theorem update (balanced : t.Balanced) (i : StreamId)
    {f : Stream (σ × Reads α) κ α → Stream (σ × Reads α) κ α}
    (akin : ∀ s, Stream.Akin s (f s)) : Balanced { t with mixer := t.mixer.update i f } := by
  refine ⟨balanced.numbered.congr (Mixer.ids_update _ _ _) rfl, balanced.unused,
    fun id s' there => ?_, fun id s' there => ?_⟩
  · obtain ⟨s, old, alike⟩ := Mixer.akin_of_update there akin
    exact alike.fit (balanced.fit id s old)
  · obtain ⟨s, old, alike⟩ := Mixer.akin_of_update there akin
    rw [alike.channels, alike.reads, alike.rest]
    exact balanced.balance id s old

/-- What a mix reads for a stream goes to the device or waits behind what waited before. -/
theorem mix (balanced : t.Balanced) (out : Array α) : (t.next r read (.mix out)).Balanced := by
  have same : (t.next r read (.mix out)).mixer.next = t.mixer.next := by
    rw [mixer_next_mix, Mixer.fill_streams]
  refine ⟨balanced.numbered.congr (Mixer.ids_fill ..) same, fun id later => ?_,
    fun id s' there => ?_, fun id s' there => ?_⟩
  · -- A number that is not given out yet has no stream to give anything.
    rw [same] at later
    rw [mixed_next_mix, balanced.unused id later, Mixer.supplied, balanced.numbered.unused later]
    rfl
  · obtain ⟨s, old, rfl⟩ := Option.map_eq_some_iff.mp ((Mixer.stream?_fill ..).symm.trans there)
    obtain ⟨_, supplies, _⟩ := (balanced.fit id s old).supply r read
      (deviceFrames t.mixer.channels out.size)
    exact supplies.fit
  · obtain ⟨s, old, rfl⟩ := Option.map_eq_some_iff.mp ((Mixer.stream?_fill ..).symm.trans there)
    obtain ⟨asked, supplies, _⟩ := (balanced.fit id s old).supply r read
      (deviceFrames t.mixer.channels out.size)
    rw [supplies.channels, supplies.reads, framesRead_append, balanced.balance id s old,
      List.append_assoc, supplies.balance, mixed_next_mix, Mixer.supplied_eq r _ _ old,
      List.append_assoc]

theorem next (balanced : t.Balanced) {op : Operation σ α}
    (rated : ∀ format source, op = .add format source → format.rate = t.mixer.rate) :
    (t.next r read op).Balanced := by
  cases op with
  | add format source =>
    rw [Tally.next, Mixer.add_eq r _ _ (rated format source rfl)]
    exact balanced.register source (Nat.lt_of_lt_of_le Nat.zero_lt_one (Nat.le_max_right _ _))
  | setPlaying id playing => exact balanced.update id fun s => ⟨rfl, rfl, rfl, rfl, rfl⟩
  | remove id => exact balanced.remove id
  | mix out => exact balanced.mix r read out
  | stir id change => exact balanced.update id fun s => ⟨rfl, rfl, rfl, rfl, rfl⟩

end Balanced

/-- No operation changes the device. -/
theorem next_device (t : Tally σ κ α) (op : Operation σ α) :
    (t.next r read op).mixer.rate = t.mixer.rate ∧
      (t.next r read op).mixer.channels = t.mixer.channels := by
  cases op with
  | add format source =>
    cases added : t.mixer.add r format (source, ([] : Reads α)) with
    | error f => simp [next, added]
    | ok registered =>
      obtain ⟨id, mixer⟩ := registered
      obtain ⟨s, rfl⟩ := Mixer.add_registers added
      simp [next, added, Mixer.register]
  | setPlaying id playing => exact ⟨rfl, rfl⟩
  | remove id => exact ⟨rfl, rfl⟩
  | mix out =>
    rw [next, Mixer.fill_streams]
    exact ⟨rfl, rfl⟩
  | stir id change => exact ⟨rfl, rfl⟩

/-- All streams that are added run at the rate of the device. -/
def Rated (rate : Nat) (ops : List (Operation σ α)) : Prop :=
  ∀ format source, .add format source ∈ ops → format.rate = rate

theorem after_device (t : Tally σ κ α) (ops : List (Operation σ α)) :
    (t.after r read ops).mixer.rate = t.mixer.rate ∧
      (t.after r read ops).mixer.channels = t.mixer.channels := by
  induction ops generalizing t with
  | nil => exact ⟨rfl, rfl⟩
  | cons op rest ih =>
    obtain ⟨rate, channels⟩ := next_device r read t op
    exact ⟨(ih _).1.trans rate, (ih _).2.trans channels⟩

theorem Balanced.after {ops : List (Operation σ α)} (balanced : t.Balanced)
    (rated : Rated t.mixer.rate ops) : (t.after r read ops).Balanced := by
  induction ops generalizing t with
  | nil => exact balanced
  | cons op rest ih =>
    have first : (t.next r read op).Balanced :=
      balanced.next r read fun format source same => rated format source (same ▸ List.mem_cons_self)
    refine ih first fun format source there => ?_
    rw [(next_device r read t op).1]
    exact rated format source (List.mem_cons_of_mem _ there)

/-- Only a mix takes frames, and only of a stream that plays. -/
theorem next_aside {op : Operation σ α} {id : StreamId} {s s' : Stream (σ × Reads α) κ α}
    (there : t.mixer.stream? id = some s)
    (there' : (t.next r read op).mixer.stream? id = some s')
    (aside : (∀ out, op ≠ .mix out) ∨ s.playing = false) :
    (t.next r read op).mixed id = t.mixed id ∧ s'.rest = s.rest ∧ s'.reads = s.reads := by
  -- Whatever an operation tells of the stream before it is about this one.
  have same : ∀ {s₀}, t.mixer.stream? id = some s₀ → s₀ = s := fun old =>
    Option.some.inj (old.symm.trans there)
  cases op with
  | add format source =>
    cases added : t.mixer.add r format (source, ([] : Reads α)) with
    | error f =>
      rw [next, added] at there' ⊢
      obtain rfl := same there'
      exact ⟨rfl, rfl, rfl⟩
    | ok registered =>
      obtain ⟨j, mixer⟩ := registered
      obtain ⟨new, rfl⟩ := Mixer.add_registers added
      rw [next, added] at there' ⊢
      rw [Mixer.stream?_register, there] at there'
      cases there'
      exact ⟨rfl, rfl, rfl⟩
  | setPlaying i playing =>
    obtain ⟨s₀, old, alike⟩ := Mixer.akin_of_update there' fun s => ⟨rfl, rfl, rfl, rfl, rfl⟩
    obtain rfl := same old
    exact ⟨rfl, alike.rest, alike.reads⟩
  | remove i =>
    obtain rfl := same (Mixer.of_stream?_remove there')
    exact ⟨rfl, rfl, rfl⟩
  | mix out =>
    have held := aside.resolve_left fun none => none out rfl
    obtain rfl := Option.some.inj (there'.symm.trans (Mixer.stream?_fill_held r _ _ out there held))
    refine ⟨?_, rfl, rfl⟩
    rw [mixed_next_mix, Mixer.supplied_eq r _ _ there, Stream.supply_held r _ held]
    exact List.append_nil _
  | stir i change =>
    obtain ⟨s₀, old, alike⟩ := Mixer.akin_of_update there' fun s => ⟨rfl, rfl, rfl, rfl, rfl⟩
    obtain rfl := same old
    exact ⟨rfl, alike.rest, alike.reads⟩

/-- A mix takes from a stream what it gives to the device; what it reads comes behind. -/
theorem next_mix (balanced : t.Balanced) (out : Array α) {id : StreamId}
    {s : Stream (σ × Reads α) κ α} (there : t.mixer.stream? id = some s) :
    ∃ s' asked, (t.next r read (.mix out)).mixer.stream? id = some s' ∧
      s'.channels = s.channels ∧ s'.reads = s.reads ++ asked ∧
      (t.mixer.supplied r read.recorded (deviceFrames t.mixer.channels out.size) id).length ≤
        deviceFrames t.mixer.channels out.size ∧
      (s.playing = true →
        (t.mixer.supplied r read.recorded (deviceFrames t.mixer.channels out.size) id).length <
          deviceFrames t.mixer.channels out.size →
        RanDry s.channels asked ∧ s'.isDrained = true) := by
  obtain ⟨asked, supplies, few, dry⟩ := (balanced.fit id s there).supply r read
    (deviceFrames t.mixer.channels out.size)
  have there' : (t.next r read (.mix out)).mixer.stream? id =
      some (s.supply r read.recorded (deviceFrames t.mixer.channels out.size)).2 := by
    rw [mixer_next_mix, Mixer.stream?_fill, there, Option.map_some]
  rw [Mixer.supplied_eq r _ _ there, Array.length_toList]
  refine ⟨_, asked, there', supplies.channels, supplies.reads, few, fun playing short => ?_⟩
  exact ⟨dry playing short, Stream.isDrained_supply r _ playing short⟩

end Tally

end

/-- A buffer of whole frames has room for these. -/
theorem deviceFrames_mul {channels : Nat} (pos : 0 < channels) (n : Nat) :
    deviceFrames channels (n * channels) = n := by
  rw [deviceFrames, Nat.add_sub_assoc pos, Nat.mul_comm, Nat.mul_add_div pos,
    Nat.div_eq_of_lt (by omega), Nat.add_zero]

/-- The sample of a channel in a frame lies in this frame, at this channel. -/
theorem sample_place {channels k c : Nat} (channel : c < channels) :
    (k * channels + c) / channels = k ∧ (k * channels + c) % channels = c := by
  rw [Nat.mul_comm]
  refine ⟨?_, ?_⟩
  · rw [Nat.mul_add_div (Nat.zero_lt_of_lt channel), Nat.div_eq_of_lt channel, Nat.add_zero]
  · rw [Nat.mul_add_mod, Nat.mod_eq_of_lt channel]

section

variable {K : Type} [Field K]

/-- Of exact numbers the mix is a sum, over the streams that have a frame for the frame of the
device. -/
theorem Mixer.fill_exact (r : Resampler κ K) (read : Source σ K) {m : Mixer σ κ K}
    (numbered : m.Numbered) {n k c : Nat} {out : Array K} (whole : out.size = n * m.channels)
    (frame : k < n) (channel : c < m.channels) :
    (m.fill r read out).1[k * m.channels + c]? = some ((m.ids.filterMap fun id =>
      ((m.supplied r read n id)[k]?).map fun frame => mapChannel frame c m.channels).sum) := by
  have pos : 0 < m.channels := Nat.zero_lt_of_lt channel
  have after : (k + 1) * m.channels ≤ n * m.channels := Nat.mul_le_mul_right _ frame
  rw [Nat.succ_mul] at after
  have inside : k * m.channels + c < out.size := by omega
  obtain ⟨number, place⟩ := sample_place (k := k) channel
  have width : min m.channels (out.size - k * m.channels) = m.channels := by omega
  rw [getElem?_fill r read m out inside, List.sum_eq_foldl, ids, List.filterMap_map]
  congr 2
  refine List.filterMap_congr fun p there => ?_
  rw [Function.comp, supplied_eq r read n (numbered.stream?_eq there), Array.getElem?_toList, part,
    number, place, width, whole, deviceFrames_mul pos]

/-- Nothing is lost, repeated or moved between a source and the device. However a mixer came about,
with streams at the rate of its device, the frames read for a registered stream are those that were
mixed and then those that wait; all of them were mixed if it is reported drained. Only a mix takes
frames, and of a stream that plays: the next ones, one for each frame of the device, fewer only if
the last read brought none. Each sample of the device is the sum of what the streams that have a
frame for it make of this frame, whatever was in the buffer before. -/
theorem Tally.nothing_lost {r : Resampler κ K} {read : Source σ K} {rate channels : Nat}
    {ops : List (Operation σ K)} {t : Tally σ κ K}
    (reached : (Tally.new rate channels).after r read ops = t) (rated : Rated (max rate 1) ops) :
    t.mixer.ids.Nodup ∧
    (∀ id s, t.mixer.stream? id = some s →
      framesRead s.channels s.reads = t.mixed id ++ s.rest ∧
      (t.mixer.isDrained id = true → framesRead s.channels s.reads = t.mixed id)) ∧
    (∀ op id s s', t.mixer.stream? id = some s →
      (t.next r read op).mixer.stream? id = some s' →
      (∀ out, op ≠ .mix out) ∨ s.playing = false →
        (t.next r read op).mixed id = t.mixed id ∧ s'.rest = s.rest ∧ s'.reads = s.reads) ∧
    ∀ n out, out.size = n * t.mixer.channels →
      (∀ id s, t.mixer.stream? id = some s →
        ∃ s' asked, (t.next r read (.mix out)).mixer.stream? id = some s' ∧
          s'.channels = s.channels ∧ s'.reads = s.reads ++ asked ∧
          (t.next r read (.mix out)).mixed id =
            t.mixed id ++ t.mixer.supplied r read.recorded n id ∧
          (t.mixer.supplied r read.recorded n id).length ≤ n ∧
          (s.playing = true → (t.mixer.supplied r read.recorded n id).length < n →
            RanDry s.channels asked ∧ s'.isDrained = true)) ∧
      (t.mixer.fill r read.recorded out).1.size = out.size ∧
      ∀ k c, k < n → c < t.mixer.channels →
        (t.mixer.fill r read.recorded out).1[k * t.mixer.channels + c]? =
          some ((t.mixer.ids.filterMap fun id =>
            ((t.mixer.supplied r read.recorded n id)[k]?).map fun frame =>
              mapChannel frame c t.mixer.channels).sum) := by
  have balanced : t.Balanced := reached ▸ (new_balanced rate channels).after r read rated
  have device : 0 < t.mixer.channels := by
    rw [← reached, (after_device r read _ ops).2]
    exact Nat.lt_of_lt_of_le Nat.zero_lt_one (Nat.le_max_right _ _)
  refine ⟨balanced.numbered.distinct, fun id s there => ⟨balanced.balance id s there, ?_⟩,
    fun op id s s' there there' aside => next_aside r read there there' aside,
    fun n out whole => ⟨fun id s there => ?_, Mixer.size_fill r _ _ out, ?_⟩⟩
  · intro drained
    rw [Mixer.isDrained, there, Option.all_some] at drained
    rw [balanced.balance id s there, Stream.rest_of_drained drained, List.append_nil]
  · obtain ⟨s', asked, there', width, reads, few, dry⟩ := next_mix r read balanced out there
    rw [whole, deviceFrames_mul device] at few dry
    refine ⟨s', asked, there', width, reads, ?_, few, dry⟩
    rw [mixed_next_mix, whole, deviceFrames_mul device]
  · intro k c frame channel
    exact Mixer.fill_exact r _ balanced.numbered whole frame channel

end

/-- The block that a stream reads from a tape which holds no more. -/
theorem Stream.refill_tape [Sample α] (r : Resampler κ α) (samples : Array α) (channels : Nat)
    (filled : samples ≠ #[]) (few : samples.size ≤ readFrames * channels)
    (playing exhausted : Bool) :
    refill r (Source.recorded Tape.read)
        ⟨(⟨samples, none, 0⟩, []), channels, none, playing, exhausted, #[], 0⟩ =
      ⟨(⟨#[], none, 0⟩, [(readFrames * channels, ⟨samples, samples.size⟩)]), channels, none, playing,
        (samples.extract 0 (wholeFrames channels samples.size)).isEmpty,
        samples.extract 0 (wholeFrames channels samples.size), 0⟩ := by
  have read : Tape.read (readFrames * channels) ⟨samples, none, 0⟩ =
      (⟨samples, samples.size⟩, ⟨#[], none, 0⟩) := by
    simp [Tape.read, filled, Array.extract_eq_self_of_le few]
  rw [refill_unconverted r rfl]
  simp only [Source.recorded, read]
  rw [Reading.taken_of_given (Nat.le_refl _) few]
  rfl

/-- A tape of one channel and a tape of two that breaks off within a frame are let play. -/
def twoTapes : List (Operation (Tape ℚ) ℚ) :=
  [.add ⟨44100, 1⟩ ⟨#[1 / 10, 2 / 10, 3 / 10], none, 0⟩,
    .add ⟨44100, 2⟩ ⟨#[1 / 2, -1 / 2, 1 / 4], none, 0⟩,
    .setPlaying ⟨1⟩ true, .setPlaying ⟨2⟩ true]

def tapesPlaying : Tally (Tape ℚ) Unit ℚ :=
  (Tally.new 44100 2).after .idle Tape.read twoTapes

def tapesMixed : Tally (Tape ℚ) Unit ℚ :=
  tapesPlaying.next .idle Tape.read (.mix #[1, 1, 1, 1])

theorem tapesPlaying_supplied :
    tapesPlaying.mixer.supplied .idle (Source.recorded Tape.read) 2 ⟨1⟩ = [#[1 / 10], #[2 / 10]] ∧
    tapesPlaying.mixer.supplied .idle (Source.recorded Tape.read) 2 ⟨2⟩ = [#[1 / 2, -1 / 2]] := by
  have first : tapesPlaying.mixer.stream? ⟨1⟩ =
      some ⟨(⟨#[1 / 10, 2 / 10, 3 / 10], none, 0⟩, []), 1, none, true, false, #[], 0⟩ := rfl
  have second : tapesPlaying.mixer.stream? ⟨2⟩ =
      some ⟨(⟨#[1 / 2, -1 / 2, 1 / 4], none, 0⟩, []), 2, none, true, false, #[], 0⟩ := rfl
  constructor
  · have block := Stream.refill_tape (.idle : Resampler Unit ℚ) #[1 / 10, 2 / 10, 3 / 10] 1
      (by simp) (by decide) true false
    rw [Mixer.supplied_eq _ _ _ first, Stream.supply, if_pos rfl,
      Stream.draw_of_used _ (by decide) (by rw [block]; rfl), block,
      Stream.draw_of_waiting _ (by decide), Stream.draw_of_waiting _ (by decide)]
    rfl
  · have block := Stream.refill_tape (.idle : Resampler Unit ℚ) #[1 / 2, -1 / 2, 1 / 4] 2
      (by simp) (by decide) true false
    rw [Mixer.supplied_eq _ _ _ second, Stream.supply, if_pos rfl,
      Stream.draw_of_used _ (by decide) (by rw [block]; rfl), block,
      Stream.draw_of_waiting _ (by decide), Stream.draw_of_nothing _ rfl rfl (by decide)]
    rfl

/-- What two streams add to a sample. -/
theorem parts_pair {given : StreamId → List (Frame ℚ)} {i j : StreamId} {fs gs : List (Frame ℚ)}
    (first : given i = fs) (second : given j = gs) (k c width : Nat) :
    ([i, j].filterMap fun id => ((given id)[k]?).map fun frame => mapChannel frame c width) =
      ((fs[k]?).map fun frame => mapChannel frame c width).toList ++
        ((gs[k]?).map fun frame => mapChannel frame c width).toList := by
  rw [← first, ← second]
  cases one : (given i)[k]? <;> cases other : (given j)[k]? <;> simp [one, other]

theorem tapesMixed_nothing_lost :
    Tally.Rated 44100 twoTapes ∧ tapesPlaying.mixer.ids = [⟨1⟩, ⟨2⟩] ∧
    (∃ s s', tapesPlaying.mixer.stream? ⟨1⟩ = some s ∧ s.playing = true ∧
      tapesMixed.mixer.stream? ⟨1⟩ = some s' ∧
      framesRead s'.channels s'.reads = tapesMixed.mixed ⟨1⟩ ++ s'.rest) ∧
    (tapesPlaying.mixer.fill .idle (Source.recorded Tape.read) #[1, 1, 1, 1]).1[0 * 2 + 1]? =
      some (-2 / 5 : ℚ) ∧
    (tapesPlaying.mixer.fill .idle (Source.recorded Tape.read) #[1, 1, 1, 1]).1[1 * 2 + 1]? =
      some (1 / 5 : ℚ) := by
  have rated : Tally.Rated 44100 twoTapes := by
    intro format source there
    simp only [twoTapes, List.mem_cons, Operation.add.injEq, reduceCtorEq, List.not_mem_nil,
      or_false] at there
    rcases there with ⟨rfl, _⟩ | ⟨rfl, _⟩
    · rfl
    · rfl
  have rated' : Tally.Rated 44100 (twoTapes ++ [.mix #[1, 1, 1, 1]]) := by
    intro format source there
    refine rated format source ?_
    simpa using there
  obtain ⟨s, there, plays⟩ : ∃ s, tapesPlaying.mixer.stream? ⟨1⟩ = some s ∧ s.playing = true :=
    ⟨_, rfl, rfl⟩
  have reached : (Tally.new 44100 2).after .idle Tape.read (twoTapes ++ [.mix #[1, 1, 1, 1]]) =
      tapesMixed := rfl
  have before := Tally.nothing_lost (t := tapesPlaying) rfl rated
  have after := Tally.nothing_lost reached rated'
  obtain ⟨streams, -, sum⟩ := before.2.2.2 2 #[1, 1, 1, 1] rfl
  obtain ⟨s', _, there', _⟩ := streams ⟨1⟩ s there
  have ids : tapesPlaying.mixer.ids = [⟨1⟩, ⟨2⟩] := rfl
  obtain ⟨first, second⟩ := tapesPlaying_supplied
  have parts (k c : Nat) := congrArg some (congrArg List.sum (parts_pair first second k c 2))
  refine ⟨rated, ids, ⟨s, s', there, plays, there', (after.2.1 ⟨1⟩ s' there').1⟩,
    (sum 0 1 (by decide) (by decide)).trans ((parts 0 1).trans ?_),
    (sum 1 1 (by decide) (by decide)).trans ((parts 1 1).trans ?_)⟩
  · norm_num [mapChannel]
  · norm_num [mapChannel]

end Jukebox.Audio
