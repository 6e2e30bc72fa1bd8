import Jukebox.Proofs.Audio.Rows
import Jukebox.Proofs.Audio.Tally
/-!
# No access of the mixer is out of bounds

The definitions whose names end in a question mark are those of the mixer with every access checked,
on top of those of the converter. A stream is `Sound` if its buffer and its offset are whole frames,
one within the other, and its converter is sound. Each frame that is taken keeps a stream sound and
is defined at every step; so is a mix, and by induction every run of operations on a mixer.
-/
namespace Jukebox.Audio

variable {σ κ α : Type}

section Mapping

variable [Sample α]

def mapChannel? (frame : Frame α) (channel width : Nat) : Option α :=
  if frame.size = 1 then frame[0]?
  else if width = 1 then some (Sample.mean frame)
  else if channel < frame.size then frame[channel]?
  else some Sample.silence

/-- What some frames add to the sample of a device buffer at a place. -/
def addAt? (channels size : Nat) (fs : Array (Frame α)) (x : α) (i : Nat) : Option α := do
  let n ← div? i channels
  match fs[n]? with
  | none => return x
  | some frame =>
    let channel ← mod? i channels
    let room ← sub? size (n * channels)
    let part ← mapChannel? frame channel (min channels room)
    return Sample.add x part

/-- Adds frames to the buffer of a device, each to one frame of the device. -/
def overlay? (channels : Nat) (out : Array α) (fs : Array (Frame α)) : Option (Array α) :=
  out.zipIdx.mapM fun (x, i) => addAt? channels out.size fs x i

/-- Whatever the frame and the device, no channel of the frame is asked for that it lacks. -/
theorem mapChannel?_eq (frame : Frame α) (channel width : Nat) :
    mapChannel? frame channel width = some (mapChannel frame channel width) := by
  rw [mapChannel?, mapChannel]
  by_cases mono : frame.size = 1
  · rw [if_pos mono, if_pos mono, getElem?_eq_some_getD (by omega)]
  · rw [if_neg mono, if_neg mono]
    by_cases narrow : width = 1
    · rw [if_pos narrow, if_pos narrow]
    · rw [if_neg narrow, if_neg narrow]
      by_cases has : channel < frame.size
      · rw [if_pos has, getElem?_eq_some_getD has]
      · rw [if_neg has, Array.getD_eq_getD_getElem?,
          Array.getElem?_eq_none (Nat.le_of_not_lt has), Option.getD_none]

/-- At a place within the buffer every frame of the device starts within it. -/
theorem addAt?_eq {channels size i : Nat} (pos : 0 < channels) (inside : i < size)
    (fs : Array (Frame α)) (x : α) :
    addAt? channels size fs x i = some (match fs[i / channels]? with
      | none => x
      | some frame => Sample.add x
          (mapChannel frame (i % channels) (min channels (size - i / channels * channels)))) := by
  have start : i / channels * channels ≤ size :=
    Nat.le_trans (Nat.div_mul_le_self i channels) (Nat.le_of_lt inside)
  rw [addAt?, div?_eq i pos, Option.bind_eq_bind, Option.bind_some]
  cases fs[i / channels]? with
  | none => rfl
  | some frame =>
    simp only [mod?_eq i pos, sub?_eq start, mapChannel?_eq, Option.bind_eq_bind,
      Option.bind_some]
    rfl

theorem overlay?_eq {channels : Nat} (pos : 0 < channels) (out : Array α) (fs : Array (Frame α)) :
    overlay? channels out fs = some (overlay channels out fs) := by
  rw [overlay, Array.mapIdx_eq_zipIdx_map]
  refine mapM_eq_some fun p there => ?_
  obtain ⟨inside, _⟩ := Array.getElem?_eq_some_iff.mp (Array.mem_zipIdx_iff_getElem?.mp there)
  exact addAt?_eq pos inside fs p.1

end Mapping

namespace Stream

structure Sound (q : RowResampler κ α) (s : Stream σ (κ × Nat) α) : Prop where
  channels : 0 < s.channels
  buffer : s.channels ∣ s.buffer.size
  offset : s.channels ∣ s.offset
  inside : s.offset ≤ s.buffer.size
  converter : ∀ c, s.converter = some c → c.Sound q ∧ c.channels = s.channels

variable [Sample α] (q : RowResampler κ α) (read : Source σ α)

def refill? (s : Stream σ (κ × Nat) α) : Option (Stream σ (κ × Nat) α) :=
  match s.converter with
  | some c => do
    let ((got, c), source) ← c.pull? q read s.source
    return { s with
      source, converter := some c, buffer := got, offset := 0, exhausted := got.isEmpty }
  | none => do
    let wanted := readFrames * s.channels
    let (answer, source) := read wanted s.source
    let whole ← wholeFrames? s.channels (min answer.count wanted)
    let got := (answer.buffer wanted).extract 0 whole
    return { s with source, buffer := got, offset := 0, exhausted := got.isEmpty }

def take? (s : Stream σ (κ × Nat) α) : Option (Option (Frame α) × Stream σ (κ × Nat) α) := do
  let frame ← slice? s.buffer s.offset (s.offset + s.channels)
  return (some frame, { s with offset := s.offset + s.channels })

/-- Takes the next frame out of the buffer, which is refilled if it is used up. -/
def nextFrame? (s : Stream σ (κ × Nat) α) : Option (Option (Frame α) × Stream σ (κ × Nat) α) :=
  if s.buffer.size ≤ s.offset then do
    let s ← s.refill? q read
    if s.buffer.isEmpty then return (none, s) else s.take?
  else s.take?

/-- Takes up to a number of frames, and stops where the source has nothing more right now. -/
def draw? (s : Stream σ (κ × Nat) α) (count : Nat) (drawn : Array (Frame α)) :
    Option (Array (Frame α) × Stream σ (κ × Nat) α) :=
  match count with
  | 0 => some (drawn, s)
  | count + 1 => do
    match ← s.nextFrame? q read with
    | (none, s) => return (drawn, s)
    | (some frame, s) => draw? s count (drawn.push frame)

variable {q} {s : Stream σ (κ × Nat) α}

/-- Asking for the next samples is defined at every step, and the buffer holds whole frames of
them. -/
theorem Sound.refill? (sound : s.Sound q) (even : q.Even) :
    s.refill? q read = some (s.refill q.framed read) ∧ (s.refill q.framed read).Sound q := by
  unfold Stream.refill? Stream.refill
  cases converted : s.converter with
  | some c =>
    obtain ⟨sound', width⟩ := sound.converter c converted
    obtain ⟨got, c', source, checked, given, after, width', frames⟩ :=
      sound'.pull? even read s.source
    simp only [checked, given, Option.bind_eq_bind, Option.bind_some]
    refine ⟨rfl, sound.channels, width ▸ frames, Nat.dvd_zero _, Nat.zero_le _, ?_⟩
    rintro _ ⟨⟩
    exact ⟨after, width'.trans width⟩
  | none =>
    simp only [wholeFrames?_eq sound.channels, Option.bind_eq_bind, Option.bind_some]
    refine ⟨rfl, sound.channels, Reading.dvd_size_taken _ _ _, Nat.dvd_zero _, Nat.zero_le _, ?_⟩
    rintro _ ⟨⟩

/-- A frame that waits lies within the buffer. -/
theorem Sound.take? (sound : s.Sound q) (waiting : s.offset < s.buffer.size) :
    s.take? = some (s.nextFrame q.framed read) ∧ (s.nextFrame q.framed read).2.Sound q := by
  have room := room_of_dvd sound.offset sound.buffer waiting
  rw [Stream.take?, slice?_eq (Nat.le_add_right _ _) room, nextFrame_of_waiting q.framed waiting]
  exact ⟨rfl, sound.channels, sound.buffer, Nat.dvd_add sound.offset (Nat.dvd_refl _), room,
    sound.converter⟩

/-- Asking for a frame is defined at every step. -/
theorem Sound.nextFrame? (sound : s.Sound q) (even : q.Even) :
    s.nextFrame? q read = some (s.nextFrame q.framed read) ∧
      (s.nextFrame q.framed read).2.Sound q := by
  rcases Nat.lt_or_ge s.offset s.buffer.size with waiting | used
  · rw [Stream.nextFrame?, if_neg (Nat.not_le_of_lt waiting)]
    exact sound.take? read waiting
  · obtain ⟨checked, sound'⟩ := sound.refill? read even
    rw [Stream.nextFrame?, if_pos used, checked, nextFrame_of_used q.framed used,
      Option.bind_eq_bind, Option.bind_some]
    by_cases empty : (s.refill q.framed read).buffer.isEmpty = true
    · rw [if_pos empty, if_pos empty]
      exact ⟨rfl, sound'⟩
    · have waiting : (s.refill q.framed read).offset < (s.refill q.framed read).buffer.size := by
        rw [(refill_fresh q.framed read s).1, Array.size_pos_iff]
        simpa using empty
      rw [if_neg empty, if_neg empty]
      exact sound'.take? read waiting

/-- So is drawing any number of frames. -/
theorem Sound.draw? (sound : s.Sound q) (even : q.Even) (count : Nat) (drawn : Array (Frame α)) :
    s.draw? q read count drawn = some (s.draw q.framed read count drawn) ∧
      (s.draw q.framed read count drawn).2.Sound q := by
  induction count generalizing s drawn with
  | zero => exact ⟨rfl, sound⟩
  | succ count ih =>
    obtain ⟨checked, sound'⟩ := sound.nextFrame? read even
    rw [Stream.draw?, checked, Option.bind_eq_bind, Option.bind_some, Stream.draw]
    generalize s.nextFrame q.framed read = asked at sound' ⊢
    obtain ⟨_ | frame, s'⟩ := asked
    · exact ⟨rfl, sound'⟩
    · exact ih sound' (drawn.push frame)

end Stream

namespace Mixer

structure Sound (q : RowResampler κ α) (m : Mixer σ (κ × Nat) α) : Prop where
  channels : 0 < m.channels
  streams : ∀ p ∈ m.streams, p.2.Sound q

/-- A change that leaves buffers and converters as they are keeps streams sound. -/
theorem Sound.update {q : RowResampler κ α} {m : Mixer σ (κ × Nat) α} (sound : m.Sound q)
    (id : StreamId) (f : Stream σ (κ × Nat) α → Stream σ (κ × Nat) α)
    (keeps : ∀ s : Stream σ (κ × Nat) α, s.Sound q → (f s).Sound q) :
    (m.update id f).Sound q := by
  refine ⟨sound.channels, fun p there => ?_⟩
  obtain ⟨⟨i, s⟩, old, rfl⟩ := List.mem_map.mp there
  by_cases here : i = id
  · simp only [if_pos here]
    exact keeps s (sound.streams _ old)
  · simp only [if_neg here]
    exact sound.streams _ old

theorem Sound.register {q : RowResampler κ α} {m : Mixer σ (κ × Nat) α} (sound : m.Sound q)
    {s : Stream σ (κ × Nat) α} (new : s.Sound q) : (m.register s).Sound q := by
  refine ⟨sound.channels, fun p there => ?_⟩
  rcases List.mem_append.mp there with old | last
  · exact sound.streams p old
  · rw [List.mem_singleton.mp last]
    exact new

variable [Sample α] (q : RowResampler κ α) (read : Source σ α)

def mixStreams? (channels : Nat) (out : Array α) :
    List (StreamId × Stream σ (κ × Nat) α) →
      Option (Array α × List (StreamId × Stream σ (κ × Nat) α))
  | [] => some (out, [])
  | (id, s) :: rest =>
    if s.playing then do
      let count ← div? (out.size + channels - 1) channels
      let (fs, s) ← s.draw? q read count #[]
      let out ← overlay? channels out fs
      let (out, rest) ← mixStreams? channels out rest
      return (out, (id, s) :: rest)
    else do
      let (out, rest) ← mixStreams? channels out rest
      return (out, (id, s) :: rest)

/-- Overwrites a buffer of the device with the mix of the streams that play. -/
def fill? (m : Mixer σ (κ × Nat) α) (out : Array α) : Option (Array α × Mixer σ (κ × Nat) α) := do
  let (out, streams) ← mixStreams? q read m.channels (out.map fun _ => Sample.silence) m.streams
  return (out, { m with streams })

variable {q} {m : Mixer σ (κ × Nat) α}

theorem mixStreams?_eq (even : q.Even) {channels : Nat} (pos : 0 < channels)
    {streams : List (StreamId × Stream σ (κ × Nat) α)} (sound : ∀ p ∈ streams, p.2.Sound q)
    (out : Array α) :
    mixStreams? q read channels out streams = some (mixStreams q.framed read channels out streams) ∧
      ∀ p ∈ (mixStreams q.framed read channels out streams).2, p.2.Sound q := by
  induction streams generalizing out with
  | nil => exact ⟨rfl, fun p there => absurd there List.not_mem_nil⟩
  | cons p rest ih =>
    obtain ⟨id, s⟩ := p
    have first : s.Sound q := sound (id, s) List.mem_cons_self
    have later : ∀ p ∈ rest, p.2.Sound q := fun p there => sound p (List.mem_cons_of_mem _ there)
    rw [mixStreams?, mixStreams]
    by_cases plays : s.playing = true
    · obtain ⟨drawn, sound'⟩ := first.draw? read even
        ((out.size + channels - 1) / channels) #[]
      generalize s.draw q.framed read ((out.size + channels - 1) / channels) #[] = supplied
        at drawn sound'
      obtain ⟨fs, s'⟩ := supplied
      obtain ⟨mixed, sounds⟩ := ih later (overlay channels out fs)
      simp only [if_pos plays, div?_eq _ pos, drawn, overlay?_eq pos, mixed, Option.bind_eq_bind,
        Option.bind_some]
      exact ⟨rfl, List.forall_mem_cons.mpr ⟨sound', sounds⟩⟩
    · obtain ⟨mixed, sounds⟩ := ih later out
      simp only [if_neg plays, mixed, Option.bind_eq_bind, Option.bind_some]
      exact ⟨rfl, List.forall_mem_cons.mpr ⟨first, sounds⟩⟩

def step (r : Resampler κ α) (read : Source σ α) (m : Mixer σ κ α) :
    Operation σ α → Mixer σ κ α
  | .add format source =>
    match m.add r format source with
    | .ok (_, m) => m
    | .error _ => m
  | .setPlaying id playing => m.setPlaying id playing
  | .remove id => m.remove id
  | .mix out => (m.fill r read out).2
  | .stir id change => m.update id fun s => { s with source := change s.source }

def after (r : Resampler κ α) (read : Source σ α) (m : Mixer σ κ α) (ops : List (Operation σ α)) :
    Mixer σ κ α :=
  ops.foldl (step r read) m

/-- The mixer after an operation. Only a mix has steps that may not be defined. -/
def step? (q : RowResampler κ α) (read : Source σ α) (m : Mixer σ (κ × Nat) α) :
    Operation σ α → Option (Mixer σ (κ × Nat) α)
  | .mix out => do
    let (_, m) ← m.fill? q read out
    return m
  | op => some (m.step q.framed read op)

def after? (q : RowResampler κ α) (read : Source σ α) (m : Mixer σ (κ × Nat) α)
    (ops : List (Operation σ α)) : Option (Mixer σ (κ × Nat) α) :=
  ops.foldlM (step? q read) m

namespace Sound

/-- A mix of sound streams is defined at every step. -/
theorem fill? (sound : m.Sound q) (even : q.Even) (out : Array α) :
    m.fill? q read out = some (m.fill q.framed read out) ∧
      (m.fill q.framed read out).2.Sound q := by
  obtain ⟨mixed, sounds⟩ := mixStreams?_eq read even sound.channels sound.streams
    (out.map fun _ => Sample.silence)
  rw [Mixer.fill?, mixed, Option.bind_eq_bind, Option.bind_some, Mixer.fill]
  exact ⟨rfl, sound.channels, sounds⟩

/-- A new stream is sound, at any rate and with any number of channels. -/
theorem add (sound : m.Sound q) (even : q.Even) {format : Format} {source : σ} {id : StreamId}
    {m' : Mixer σ (κ × Nat) α} (added : m.add q.framed format source = .ok (id, m')) :
    m'.Sound q := by
  have pos : 0 < max format.channels 1 := Nat.lt_of_lt_of_le Nat.zero_lt_one (Nat.le_max_right _ _)
  obtain ⟨converter, rfl, made⟩ := add_new added
  refine sound.register ⟨pos, Nat.dvd_zero _, Nat.dvd_zero _, Nat.le_refl _, fun c converted => ?_⟩
  exact Converter.Sound.of_new even pos (made c converted)

theorem step (sound : m.Sound q) (even : q.Even) (op : Operation σ α) :
    (m.step q.framed read op).Sound q := by
  cases op with
  | add format source =>
    cases added : m.add q.framed format source with
    | error f => simpa only [Mixer.step, added] using sound
    | ok registered => simpa only [Mixer.step, added] using sound.add even added
  | setPlaying id playing =>
    exact sound.update id (fun s => { s with playing }) fun _ kept => { kept with }
  | remove id =>
    exact ⟨sound.channels, fun p there => sound.streams p (List.mem_of_mem_filter there)⟩
  | mix out => exact (sound.fill? read even out).2
  | stir id change =>
    exact sound.update id (fun s => { s with source := change s.source }) fun _ kept =>
      { kept with }

theorem step? (sound : m.Sound q) (even : q.Even) (op : Operation σ α) :
    m.step? q read op = some (m.step q.framed read op) := by
  cases op with
  | mix out =>
    rw [Mixer.step?, (sound.fill? read even out).1]
    rfl
  | _ => rfl

theorem after? (sound : m.Sound q) (even : q.Even) (ops : List (Operation σ α)) :
    m.after? q read ops = some (m.after q.framed read ops) ∧
      (m.after q.framed read ops).Sound q := by
  induction ops generalizing m with
  | nil => exact ⟨rfl, sound⟩
  | cons op rest ih =>
    obtain ⟨checked, sound'⟩ := ih (sound.step read even op)
    refine ⟨?_, sound'⟩
    rw [Mixer.after?, List.foldlM_cons, sound.step? read even op]
    exact checked

end Sound

/-- A mixer never reaches out of bounds, divides by zero or loops for ever. Whatever is done to it,
with streams at any rate and with any number of channels, and whatever the sources bring and claim,
a run is defined at every step, a mix in any buffer too. In every stream whole frames are in the
buffer, and whole frames of them are mixed. With its converter whole frames wait, fewer than a chunk
has, and so they do after any pull. Of the resampler no more is asked than even rows and chunks that
are not empty. -/
theorem stays_in_bounds (even : q.Even) (read : Source σ α) {rate channels : Nat}
    {ops : List (Operation σ α)}
    (reached : (Mixer.new rate channels).after q.framed read ops = m) :
    (Mixer.new rate channels).after? q read ops = some m ∧
    (∀ out, m.fill? q read out = some (m.fill q.framed read out)) ∧
    ∀ id s, m.stream? id = some s →
      0 < s.channels ∧ s.channels ∣ s.buffer.size ∧ s.channels ∣ s.offset ∧
      s.offset ≤ s.buffer.size ∧
      ∀ c, s.converter = some c →
        c.channels = s.channels ∧ s.channels ∣ c.pending.size ∧
        c.pending.size < q.needed c.resampler.1 * s.channels ∧
        ∀ source, c.pull? q read source = some (c.pull q.framed read source) ∧
          (c.pull q.framed read source).1.2.Waits q := by
  have start : (Mixer.new rate channels : Mixer σ (κ × Nat) α).Sound q :=
    ⟨Nat.lt_of_lt_of_le Nat.zero_lt_one (Nat.le_max_right _ _), List.forall_mem_nil _⟩
  obtain ⟨checked, sound⟩ := start.after? read even ops
  rw [reached] at checked sound
  refine ⟨checked, fun out => (sound.fill? read even out).1, fun id s there => ?_⟩
  have kept : s.Sound q := sound.streams _ (mem_of_stream? there)
  refine ⟨kept.channels, kept.buffer, kept.offset, kept.inside, fun c converted => ?_⟩
  obtain ⟨converting, width⟩ := kept.converter c converted
  refine ⟨width, width ▸ converting.waits.1, width ▸ converting.waits.2, fun source => ?_⟩
  obtain ⟨got, c', source', pulled, given, after, _⟩ := converting.pull? even read source
  rw [pulled, given]
  exact ⟨rfl, after.waits⟩

end Mixer

/-- A resampler of two channels to twice the rate that has heard nothing but silence. -/
def hushedRows : RowResampler Bool Float32 :=
  let answer (started : Bool) : Option (Array (Array Float32)) × Bool :=
    (some (Array.replicate 2 (Array.replicate (if started then 2048 else 1788) Sample.silence)),
      true)
  { create := fun input output channels =>
      if input = 22050 ∧ output = 44100 ∧ channels = 2 then .ok false else .error "Not at hand"
    needed := fun _ => 1024
    process := fun started _ => answer started
    processPartial := fun started _ => answer started
    reset := fun _ => false
    delay := fun _ => 256 }

theorem hushedRows_even : hushedRows.Even := by
  have two : ∀ {channels k}, hushedRows.Reached channels k → channels = 2 := by
    intro channels k reached
    induction reached with
    | @created input output k made =>
      by_cases known : input = 22050 ∧ output = 44100 ∧ channels = 2
      · exact known.2.2
      · simp [hushedRows, known] at made
    | processed _ _ ih => exact ih
    | finished _ _ ih => exact ih
    | reset _ ih => exact ih
  have alike : ∀ n, EvenRows 2
      (Array.replicate 2 (Array.replicate n (Sample.silence : Float32))) := fun n =>
    ⟨Array.size_replicate, fun row there => by
      rw [Array.eq_of_mem_replicate there]
      rfl⟩
  refine ⟨fun _ => Nat.zero_lt_succ 1023, fun reached answer => ?_, fun reached answer => ?_⟩
  · rw [two reached, ← Option.some.inj answer]
    exact alike _
  · rw [two reached, ← Option.some.inj answer]
    exact alike _

/-- Two frames of silence on a tape that claims three samples more than it gives. -/
def boastfulTape : Tape Float32 :=
  ⟨#[Sample.silence, Sample.silence, Sample.silence, Sample.silence], none, 3⟩

/-- The tape is let play to a device at twice its rate. -/
def boastfulPlaying : List (Operation (Tape Float32) Float32) :=
  [.add ⟨22050, 2⟩ boastfulTape, .setPlaying ⟨1⟩ true]

/-- A buffer of two and a half frames is filled. -/
theorem boastfulTape_in_bounds :
    hushedRows.Even ∧
    (∃ m, (Mixer.new 44100 2).after? hushedRows Tape.read
      (boastfulPlaying ++ [.mix (Array.replicate 5 Sample.silence)]) = some m) ∧
    ∃ m s c, (Mixer.new 44100 2).after hushedRows.framed Tape.read boastfulPlaying = m ∧
      m.stream? ⟨1⟩ = some s ∧ s.converter = some c ∧ c.pending.size < 1024 * 2 ∧
      (c.pull hushedRows.framed Tape.read boastfulTape).1.2.Waits hushedRows := by
  obtain ⟨mixed, _⟩ := Mixer.stays_in_bounds hushedRows_even Tape.read rfl
  obtain ⟨m, s, c, reached, there, converted, width⟩ :
      ∃ m s c, (Mixer.new 44100 2).after hushedRows.framed Tape.read boastfulPlaying = m ∧
        m.stream? ⟨1⟩ = some s ∧ s.converter = some c ∧ s.channels = 2 :=
    ⟨_, _, _, rfl, rfl, rfl, rfl⟩
  obtain ⟨_, _, streams⟩ := Mixer.stays_in_bounds hushedRows_even Tape.read reached
  obtain ⟨_, _, _, _, converters⟩ := streams ⟨1⟩ s there
  obtain ⟨_, _, room, pulls⟩ := converters c converted
  rw [width] at room
  exact ⟨hushedRows_even, ⟨_, mixed⟩, m, s, c, reached, there, converted, room,
    (pulls boastfulTape).2⟩

end Jukebox.Audio
