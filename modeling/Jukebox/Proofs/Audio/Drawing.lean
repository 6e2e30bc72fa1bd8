import Jukebox.Audio.Mixer
/-!
# Drawing frames out of a stream

The mixer takes the frames of a stream one by one out of its buffer and asks the source for the next
block once the buffer is used up. What the source brings is cut down to whole frames and may be
nothing.

`Supplies` is the account of such a stretch: the frames that waited in the buffer and those that
were read are the frames given out and those that wait afterwards, in this order. It is kept by
taking one frame, composes, and so holds of every draw.
-/
namespace Jukebox.Audio

/-- The reads of a source in their order: the samples wanted, and what the source did. -/
abbrev Reads (α : Type) := List (Nat × Reading α)

variable {σ κ α : Type}

/-- A source that keeps a record of its reads. -/
def Source.recorded (read : Source σ α) : Source (σ × Reads α) α := fun wanted (s, reads) =>
  let (a, s) := read wanted s
  (a, (s, reads ++ [(wanted, a)]))

section

variable [Sample α]

/-- The frames that a read brings: whole ones, out of what the source claims and not more than was
wanted. -/
def Reading.brought (a : Reading α) (wanted channels : Nat) : List (Frame α) :=
  (frames channels ((a.buffer wanted).extract 0 (min a.count wanted))).toList

/-- The frames that some reads bring, one after the other. -/
def framesRead (channels : Nat) (reads : Reads α) : List (Frame α) :=
  reads.flatMap fun (wanted, a) => a.brought wanted channels

@[simp] theorem framesRead_nil (channels : Nat) : framesRead channels ([] : Reads α) = [] := rfl

@[simp] theorem framesRead_append (channels : Nat) (reads more : Reads α) :
    framesRead channels (reads ++ more) =
      framesRead channels reads ++ framesRead channels more := by
  simp [framesRead]

@[simp] theorem framesRead_singleton (channels wanted : Nat) (a : Reading α) :
    framesRead channels [(wanted, a)] = a.brought wanted channels := by
  simp [framesRead]

theorem Reading.size_buffer (a : Reading α) (wanted : Nat) : (a.buffer wanted).size = wanted := by
  simp only [buffer, Array.size_append, Array.size_replicate, Array.size_extract]
  omega

end

/-- Whole frames are as many samples as the frames that fit. -/
theorem wholeFrames_eq (channels count : Nat) :
    wholeFrames channels count = count / channels * channels := by
  have split := Nat.div_add_mod count channels
  rw [Nat.mul_comm] at split
  rw [wholeFrames]
  omega

/-- Between two places at whole frames there is a frame at least. -/
theorem room_of_dvd {channels n m : Nat} (start : channels ∣ n) (stop : channels ∣ m)
    (before : n < m) : n + channels ≤ m := by
  have enough := Nat.le_of_dvd (Nat.sub_pos_of_lt before) (Nat.dvd_sub stop start)
  omega

theorem frames_empty (channels : Nat) {samples : Array α} (empty : samples.size = 0) :
    frames channels samples = #[] := by
  simp [frames, empty]

/-- The samples of some frames, one after the other. -/
theorem interleave_append (fs more : List (Frame α)) :
    interleave (fs ++ more).toArray = interleave fs.toArray ++ interleave more.toArray := by
  have shift : ∀ (front : Array α) (fs : List (Frame α)),
      fs.foldl (· ++ ·) front = front ++ fs.foldl (· ++ ·) #[] := by
    intro front fs
    induction fs generalizing front with
    | nil => simp
    | cons f rest ih =>
      rw [List.foldl_cons, List.foldl_cons, ih (front ++ f), ih (#[] ++ f)]
      simp
  simp only [interleave, List.foldl_toArray', List.foldl_append]
  exact shift _ more

/-- The first frame stands in front of the frames of the rest. -/
theorem frames_eq_cons {channels : Nat} {samples : Array α} (pos : 0 < channels)
    (enough : channels ≤ samples.size) :
    (frames channels samples).toList =
      samples.extract 0 channels ::
        (frames channels (samples.extract channels samples.size)).toList := by
  have count : samples.size / channels =
      (samples.extract channels samples.size).size / channels + 1 := by
    rw [Array.size_extract, Nat.min_self, Nat.div_eq_sub_div pos enough]
  simp only [frames, Array.toList_map, Array.toList_range, count, List.range_succ_eq_map,
    List.map_cons, List.map_map, Nat.zero_mul, Nat.zero_add]
  congr 1
  refine List.map_congr_left fun i there => ?_
  -- Frame i of the rest is frame i + 1 of all, and neither extract runs off the end.
  simp only [Function.comp, Array.extract_extract]
  have inside : i < (samples.size - channels) / channels := by simpa using there
  have bound : i * channels + channels ≤ samples.size - channels := by
    rw [← Nat.succ_mul]
    exact (Nat.le_div_iff_mul_le pos).mp inside
  rw [Nat.succ_mul, Nat.min_eq_left (by omega)]
  congr 1 <;> omega

/-- What follows the last whole frame makes no difference to the frames. -/
theorem frames_wholeFrames {channels count : Nat} {samples : Array α}
    (inside : count ≤ samples.size) :
    frames channels (samples.extract 0 (wholeFrames channels count)) =
      frames channels (samples.extract 0 count) := by
  have shorter : wholeFrames channels count ≤ count := Nat.sub_le _ _
  have whole : wholeFrames channels count / channels = count / channels := by
    rcases Nat.eq_zero_or_pos channels with rfl | pos
    · simp
    · rw [wholeFrames_eq, Nat.mul_div_cancel _ pos]
  simp only [frames, Array.size_extract, Nat.sub_zero, Nat.min_eq_left inside,
    Nat.min_eq_left (Nat.le_trans shorter inside), whole]
  refine Array.map_congr_left fun i there => ?_
  have before : i < count / channels := by simpa using there
  have bound : i * channels + channels ≤ wholeFrames channels count := by
    rw [wholeFrames_eq, ← Nat.succ_mul]
    exact Nat.mul_le_mul_right channels (Nat.succ_le_of_lt before)
  simp only [Array.extract_extract, Nat.zero_add, Nat.min_eq_left bound,
    Nat.min_eq_left (Nat.le_trans bound shorter)]

/-- The samples that count as read are the frames that the read brings. -/
theorem Reading.frames_taken [Sample α] (a : Reading α) (wanted channels : Nat) :
    (Audio.frames channels (a.taken wanted channels)).toList = a.brought wanted channels := by
  have inside : min a.count wanted ≤ (a.buffer wanted).size := by
    rw [a.size_buffer]
    exact Nat.min_le_right _ _
  rw [taken, frames_wholeFrames inside, brought]

theorem Reading.size_taken [Sample α] (a : Reading α) (wanted channels : Nat) :
    (a.taken wanted channels).size = wholeFrames channels (min a.count wanted) := by
  have shorter : wholeFrames channels (min a.count wanted) ≤ wanted :=
    Nat.le_trans (Nat.sub_le _ _) (Nat.min_le_right _ _)
  rw [taken, Array.size_extract, a.size_buffer, Nat.min_eq_left shorter, Nat.sub_zero]

theorem Reading.dvd_size_taken [Sample α] (a : Reading α) (wanted channels : Nat) :
    channels ∣ (a.taken wanted channels).size := by
  rw [size_taken, wholeFrames_eq]
  exact Nat.dvd_mul_left channels _

theorem Reading.taken_of_nothing [Sample α] {a : Reading α} (nothing : a.count = 0)
    (wanted channels : Nat) : a.taken wanted channels = #[] := by
  simp [taken, nothing, wholeFrames]

/-- Of a read that claims no more than it gave, the whole frames that it claims count. -/
theorem Reading.taken_of_given [Sample α] {a : Reading α} {wanted : Nat}
    (given : a.count ≤ a.samples.size) (few : a.samples.size ≤ wanted) (channels : Nat) :
    a.taken wanted channels = a.samples.extract 0 (wholeFrames channels a.count) := by
  have whole : wholeFrames channels a.count ≤ a.samples.size := Nat.le_trans (Nat.sub_le _ _) given
  rw [taken, buffer, Array.extract_eq_self_of_le few, Nat.min_eq_left (Nat.le_trans given few)]
  simp [Array.extract_append, Nat.sub_eq_zero_of_le whole]

/-- The frames of a stream that wait in its buffer. -/
def Stream.rest (s : Stream σ κ α) : List (Frame α) :=
  (frames s.channels (s.buffer.extract s.offset s.buffer.size)).toList

def Stream.reads (s : Stream (σ × Reads α) κ α) : Reads α := s.source.2

/-- A stream at the rate of the device between two frames: whole frames are in its buffer, and whole
frames of them are mixed. -/
structure Stream.Fit (s : Stream σ κ α) : Prop where
  unconverted : s.converter = none
  channels : 0 < s.channels
  buffer : s.channels ∣ s.buffer.size
  offset : s.channels ∣ s.offset
  inside : s.offset ≤ s.buffer.size

/-- Streams that differ in no more than the playing flag, and the source beside the record of its
reads. -/
structure Stream.Akin (s s' : Stream (σ × Reads α) κ α) : Prop where
  converter : s'.converter = s.converter
  channels : s'.channels = s.channels
  buffer : s'.buffer = s.buffer
  offset : s'.offset = s.offset
  reads : s'.reads = s.reads

namespace Stream

theorem Akin.refl (s : Stream (σ × Reads α) κ α) : s.Akin s :=
  ⟨rfl, rfl, rfl, rfl, rfl⟩

theorem Akin.rest {s s' : Stream (σ × Reads α) κ α} (akin : s.Akin s') : s'.rest = s.rest := by
  rw [Stream.rest, akin.channels, akin.buffer, akin.offset, Stream.rest]

theorem Akin.fit {s s' : Stream (σ × Reads α) κ α} (akin : s.Akin s') (fit : s.Fit) : s'.Fit where
  unconverted := akin.converter.trans fit.unconverted
  channels := akin.channels ▸ fit.channels
  buffer := akin.channels ▸ akin.buffer ▸ fit.buffer
  offset := akin.channels ▸ akin.offset ▸ fit.offset
  inside := akin.offset ▸ akin.buffer ▸ fit.inside

theorem new_fit (source : σ) {channels : Nat} (pos : 0 < channels) :
    (new source channels none : Stream σ κ α).Fit :=
  ⟨rfl, pos, Nat.dvd_zero _, Nat.dvd_zero _, Nat.le_refl _⟩

theorem rest_new (source : σ) (channels : Nat) (converter : Option (Converter κ α)) :
    (new source channels converter).rest = [] := by
  simp [rest, new, frames_empty]

theorem rest_of_used {s : Stream σ κ α} (used : s.buffer.size ≤ s.offset) : s.rest = [] := by
  have empty : (s.buffer.extract s.offset s.buffer.size).size = 0 := by
    rw [Array.size_extract]
    omega
  rw [rest, frames_empty _ empty]

theorem rest_of_drained {s : Stream σ κ α} (drained : s.isDrained = true) : s.rest = [] := by
  have used : s.exhausted = true ∧ s.buffer.size ≤ s.offset := by simpa [isDrained] using drained
  exact rest_of_used used.2

theorem Fit.room {s : Stream σ κ α} (fit : s.Fit) (waiting : s.offset < s.buffer.size) :
    s.offset + s.channels ≤ s.buffer.size :=
  room_of_dvd fit.offset fit.buffer waiting

/-- The next frame is the first of those that wait. -/
theorem Fit.rest_eq_cons {s : Stream σ κ α} (fit : s.Fit) (waiting : s.offset < s.buffer.size) :
    s.rest = s.buffer.extract s.offset (s.offset + s.channels) ::
      rest { s with offset := s.offset + s.channels } := by
  have room := fit.room waiting
  have enough : s.channels ≤ (s.buffer.extract s.offset s.buffer.size).size := by
    rw [Array.size_extract]
    omega
  have first : (s.buffer.extract s.offset s.buffer.size).extract 0 s.channels =
      s.buffer.extract s.offset (s.offset + s.channels) := by
    rw [Array.extract_extract, Nat.add_zero, Nat.min_eq_left room]
  have later : (s.buffer.extract s.offset s.buffer.size).extract s.channels
      (s.buffer.extract s.offset s.buffer.size).size =
        s.buffer.extract (s.offset + s.channels) s.buffer.size := by
    rw [Array.extract_extract, Array.size_extract, Nat.min_self]
    congr 1
    omega
  rw [rest, frames_eq_cons fit.channels enough, first, later]
  rfl

section

variable [Sample α] (r : Resampler κ α) (read : Source σ α)

/-- A refill starts the buffer afresh and tells whether it brought anything. -/
theorem refill_fresh (s : Stream σ κ α) :
    (s.refill r read).offset = 0 ∧
      (s.refill r read).exhausted = (s.refill r read).buffer.isEmpty := by
  unfold refill
  cases s.converter with
  | none => exact ⟨rfl, rfl⟩
  | some c => exact ⟨rfl, rfl⟩

variable {read} in
/-- A frame that waits in the buffer is taken. -/
theorem nextFrame_of_waiting {s : Stream σ κ α} (waiting : s.offset < s.buffer.size) :
    s.nextFrame r read =
      (some (s.buffer.extract s.offset (s.offset + s.channels)),
        { s with offset := s.offset + s.channels }) := by
  have full : s.buffer ≠ #[] := Array.size_pos_iff.mp (Nat.zero_lt_of_lt waiting)
  simp [nextFrame, Nat.not_le_of_lt waiting, full]

variable {read} in
/-- A buffer that is used up is refilled, and what the refill brought gives the frame. -/
theorem nextFrame_of_used {s : Stream σ κ α} (used : s.buffer.size ≤ s.offset) :
    s.nextFrame r read =
      if (s.refill r read).buffer.isEmpty then (none, s.refill r read)
      else (s.refill r read).nextFrame r read := by
  obtain ⟨start, _⟩ := refill_fresh r read s
  by_cases empty : (s.refill r read).buffer.isEmpty = true
  · simp only [nextFrame, if_pos used, if_pos empty]
  · have waiting : (s.refill r read).offset < (s.refill r read).buffer.size := by
      rw [start, Array.size_pos_iff]
      simpa using empty
    rw [if_neg empty, nextFrame_of_waiting r waiting]
    simp only [nextFrame, if_pos used, if_neg empty]

section

variable {read} {s : Stream σ κ α}

/-- A stream whose source returned nothing to a refill. -/
def emptied (s : Stream σ κ α) (source : σ) : Stream σ κ α :=
  { s with source, buffer := #[], offset := 0, exhausted := true }

theorem refill_unconverted (unconverted : s.converter = none) :
    s.refill r read = { s with
      source := (read (readFrames * s.channels) s.source).2
      buffer := (read (readFrames * s.channels) s.source).1.taken (readFrames * s.channels)
        s.channels
      offset := 0
      exhausted := ((read (readFrames * s.channels) s.source).1.taken (readFrames * s.channels)
        s.channels).isEmpty } := by
  simp only [refill, unconverted]

theorem refill_of_nothing (unconverted : s.converter = none)
    (nothing : (read (readFrames * s.channels) s.source).1.count = 0) :
    s.refill r read = s.emptied (read (readFrames * s.channels) s.source).2 := by
  rw [refill_unconverted r unconverted, Reading.taken_of_nothing nothing]
  rfl

theorem nextFrame_of_nothing (unconverted : s.converter = none)
    (nothing : (read (readFrames * s.channels) s.source).1.count = 0)
    (used : s.buffer.size ≤ s.offset) :
    s.nextFrame r read = (none, s.emptied (read (readFrames * s.channels) s.source).2) := by
  simp [nextFrame, used, refill_of_nothing r unconverted nothing, emptied]

theorem draw_of_waiting (waiting : s.offset < s.buffer.size) (count : Nat)
    (drawn : Array (Frame α)) :
    s.draw r read (count + 1) drawn =
      draw r read { s with offset := s.offset + s.channels } count
        (drawn.push (s.buffer.extract s.offset (s.offset + s.channels))) := by
  rw [draw, nextFrame_of_waiting r waiting]

theorem draw_of_nothing (unconverted : s.converter = none)
    (nothing : (read (readFrames * s.channels) s.source).1.count = 0)
    (used : s.buffer.size ≤ s.offset) (count : Nat) (drawn : Array (Frame α)) :
    s.draw r read (count + 1) drawn =
      (drawn, s.emptied (read (readFrames * s.channels) s.source).2) := by
  rw [draw, nextFrame_of_nothing r unconverted nothing used]

/-- A buffer that is used up is refilled, and the frames are drawn out of what the refill brought. -/
theorem draw_of_used (used : s.buffer.size ≤ s.offset)
    (brings : (s.refill r read).buffer.isEmpty = false) (count : Nat) (drawn : Array (Frame α)) :
    s.draw r read (count + 1) drawn = (s.refill r read).draw r read (count + 1) drawn := by
  rw [draw, draw, nextFrame_of_used r used, brings, if_neg Bool.false_ne_true]

end

/-- A stream without a next frame is drained. -/
theorem isDrained_of_nextFrame {s s' : Stream σ κ α} (dry : s.nextFrame r read = (none, s')) :
    s'.isDrained = true := by
  unfold nextFrame at dry
  by_cases used : s.buffer.size ≤ s.offset
  · -- A refill that brings nothing leaves an empty buffer and the flag set.
    obtain ⟨start, flag⟩ := refill_fresh r read s
    simp only [if_pos used] at dry
    by_cases empty : (s.refill r read).buffer.isEmpty = true
    · rw [if_pos empty] at dry
      obtain rfl := (Prod.mk.inj dry).2
      have nothing : (s.refill r read).buffer = #[] := by simpa using empty
      simp [isDrained, start, flag, nothing]
    · rw [if_neg empty] at dry
      cases dry
  · -- A frame that waits would have been taken.
    have waiting : s.offset < s.buffer.size := Nat.lt_of_not_le used
    have full : s.buffer ≠ #[] := Array.size_pos_iff.mp (Nat.zero_lt_of_lt waiting)
    simp [used, full] at dry

/-- A stream that gives fewer frames than it was asked for is drained. -/
theorem isDrained_of_draw {s : Stream σ κ α} {count : Nat} {drawn : Array (Frame α)}
    (short : (s.draw r read count drawn).1.size < drawn.size + count) :
    (s.draw r read count drawn).2.isDrained = true := by
  induction count generalizing s drawn with
  | zero => exact absurd short (Nat.lt_irrefl _)
  | succ count ih =>
    rcases asked : s.nextFrame r read with ⟨_ | frame, s'⟩
    · simp only [draw, asked]
      exact isDrained_of_nextFrame r read asked
    · simp only [draw, asked] at short ⊢
      refine ih ?_
      rw [Array.size_push]
      omega

end

end Stream

section

variable [Sample α]

/-- A stretch in the life of a stream in which frames are given out and reads are made: what waited
and was read is what was given out and waits. -/
structure Supplies (s : Stream (σ × Reads α) κ α) (given : List (Frame α)) (asked : Reads α)
    (s' : Stream (σ × Reads α) κ α) : Prop where
  fit : s'.Fit
  channels : s'.channels = s.channels
  playing : s'.playing = s.playing
  reads : s'.reads = s.reads ++ asked
  balance : s.rest ++ framesRead s.channels asked = given ++ s'.rest

/-- The last read brought no frame. -/
def RanDry (channels : Nat) (asked : Reads α) : Prop :=
  ∃ before wanted a, asked = before ++ [(wanted, a)] ∧ a.brought wanted channels = []

variable {s s' s'' : Stream (σ × Reads α) κ α} {given more : List (Frame α)} {asked later : Reads α}

namespace Supplies

theorem refl (fit : s.Fit) : Supplies s [] [] s :=
  ⟨fit, rfl, rfl, (List.append_nil _).symm, List.append_nil _⟩

theorem trans (first : Supplies s given asked s') (second : Supplies s' more later s'') :
    Supplies s (given ++ more) (asked ++ later) s'' where
  fit := second.fit
  channels := second.channels.trans first.channels
  playing := second.playing.trans first.playing
  reads := by rw [second.reads, first.reads, List.append_assoc]
  balance := by
    have one := first.balance
    have two := second.balance
    rw [first.channels] at two
    calc s.rest ++ framesRead s.channels (asked ++ later)
        = s.rest ++ framesRead s.channels asked ++ framesRead s.channels later := by
          rw [framesRead_append, List.append_assoc]
      _ = given ++ (s'.rest ++ framesRead s.channels later) := by rw [one, List.append_assoc]
      _ = given ++ more ++ s''.rest := by rw [two, List.append_assoc]

end Supplies

theorem RanDry.after (dry : RanDry s.channels later) (asked : Reads α) :
    RanDry s.channels (asked ++ later) := by
  obtain ⟨before, wanted, a, rfl, nothing⟩ := dry
  exact ⟨asked ++ before, wanted, a, (List.append_assoc ..).symm, nothing⟩

namespace Stream

variable (r : Resampler κ α) (read : Source σ α)

def advanced (s : Stream σ κ α) : Stream σ κ α :=
  { s with offset := s.offset + s.channels }

/-- Taking a frame that waits in the buffer. -/
theorem Fit.take (fit : s.Fit) (waiting : s.offset < s.buffer.size) :
    Supplies s [s.buffer.extract s.offset (s.offset + s.channels)] [] s.advanced where
  fit := ⟨fit.unconverted, fit.channels, fit.buffer,
    Nat.dvd_add fit.offset (Nat.dvd_refl _), fit.room waiting⟩
  channels := rfl
  playing := rfl
  reads := (List.append_nil _).symm
  balance := by
    rw [framesRead_nil, List.append_nil, fit.rest_eq_cons waiting]
    rfl

/-- Without a converter the next block is what the source brings. -/
theorem Fit.refill_eq (fit : s.Fit) {wanted : Nat} (all : wanted = readFrames * s.channels) :
    s.refill r read.recorded = { s with
      source := ((read wanted s.source.1).2, s.reads ++ [(wanted, (read wanted s.source.1).1)])
      buffer := (read wanted s.source.1).1.taken wanted s.channels
      offset := 0
      exhausted := ((read wanted s.source.1).1.taken wanted s.channels).isEmpty } := by
  subst all
  rw [refill_unconverted r fit.unconverted]
  rfl

/-- A refill of a buffer that is used up. -/
theorem Fit.refill (fit : s.Fit) (used : s.buffer.size ≤ s.offset) :
    ∃ wanted a, Supplies s [] [(wanted, a)] (s.refill r read.recorded) ∧
      (s.refill r read.recorded).rest = a.brought wanted s.channels := by
  have eq := fit.refill_eq r read rfl
  generalize (read (readFrames * s.channels) s.source.1) = answer at eq
  refine ⟨readFrames * s.channels, answer.1, ?_⟩
  rw [eq]
  have waits : rest { s with
      source := (answer.2, s.reads ++ [(readFrames * s.channels, answer.1)])
      buffer := answer.1.taken (readFrames * s.channels) s.channels
      offset := 0
      exhausted := (answer.1.taken (readFrames * s.channels) s.channels).isEmpty } =
      answer.1.brought (readFrames * s.channels) s.channels := by
    rw [← Reading.frames_taken]
    simp [rest]
  refine ⟨⟨?_, rfl, rfl, rfl, ?_⟩, waits⟩
  · exact ⟨fit.unconverted, fit.channels, Reading.dvd_size_taken _ _ _, Nat.dvd_zero _,
      Nat.zero_le _⟩
  · rw [rest_of_used used, framesRead_singleton, waits]

/-- Asking a stream for a frame gives the next one, or the source has run dry. -/
theorem Fit.nextFrame (fit : s.Fit) :
    (∃ asked s', s.nextFrame r read.recorded = (none, s') ∧ Supplies s [] asked s' ∧
      RanDry s.channels asked) ∨
    ∃ frame asked s', s.nextFrame r read.recorded = (some frame, s') ∧
      Supplies s [frame] asked s' := by
  by_cases used : s.buffer.size ≤ s.offset
  · obtain ⟨wanted, a, filled, waits⟩ := fit.refill r read used
    obtain ⟨start, _⟩ := refill_fresh r read.recorded s
    generalize refilled : s.refill r read.recorded = s₁ at filled waits start
    by_cases empty : s₁.buffer = #[]
    · refine Or.inl ⟨[(wanted, a)], s₁, ?_, filled, [], wanted, a, rfl, ?_⟩
      · simp [Stream.nextFrame, used, refilled, empty]
      · rw [← waits]
        exact rest_of_used (by simp [empty])
    · have waiting : s₁.offset < s₁.buffer.size := start ▸ Array.size_pos_iff.mpr empty
      have taken := filled.trans (filled.fit.take waiting)
      refine Or.inr ⟨_, [(wanted, a)] ++ [], s₁.advanced, ?_, taken⟩
      simp [Stream.nextFrame, used, refilled, empty, advanced]
  · have waiting : s.offset < s.buffer.size := Nat.lt_of_not_le used
    have full : s.buffer ≠ #[] := Array.size_pos_iff.mp (Nat.zero_lt_of_lt waiting)
    refine Or.inr ⟨_, [], s.advanced, ?_, fit.take waiting⟩
    simp [Stream.nextFrame, used, full, advanced]

/-- A draw gives the next frames in order, as many as were asked for unless the source runs dry. -/
theorem Fit.draw (fit : s.Fit) (count : Nat) (drawn : Array (Frame α)) :
    ∃ fs asked s', s.draw r read.recorded count drawn = (drawn ++ fs.toArray, s') ∧
      Supplies s fs asked s' ∧ fs.length ≤ count ∧
      (fs.length < count → RanDry s.channels asked) := by
  induction count generalizing s drawn with
  | zero =>
    exact ⟨[], [], s, by simp [Stream.draw], .refl fit, Nat.le_refl _,
      fun short => absurd short (Nat.lt_irrefl _)⟩
  | succ count ih =>
    rcases fit.nextFrame r read with ⟨asked, s₁, eq, given, dry⟩ | ⟨frame, asked, s₁, eq, given⟩
    · refine ⟨[], asked, s₁, ?_, given, Nat.zero_le _, fun _ => dry⟩
      simp [Stream.draw, eq]
    · obtain ⟨fs, later, s₂, rest, supplies, few, short⟩ := ih given.fit (drawn.push frame)
      refine ⟨frame :: fs, asked ++ later, s₂, ?_, given.trans supplies, Nat.succ_le_succ few, ?_⟩
      · simp [Stream.draw, eq, rest]
      · intro fewer
        have dry := short (Nat.lt_of_succ_lt_succ fewer)
        rw [given.channels] at dry
        exact dry.after asked

end Stream

end

end Jukebox.Audio
