import Mathlib.Data.List.Forall2
import Jukebox.Audio.Stream
import Jukebox.Proofs.Audio.Tally
/-!
# Mixing in pieces

A device asks for its samples in buffers of any sizes. A mix of some frames and then a mix of others
come to the mix of all of them, as long as a source that has returned nothing returns nothing from
then on. In the one mix a stream that runs dry is not asked again, and in the two mixes it is. All
that this changes is the source, which has nothing in either case.
-/
namespace Jukebox.Audio

variable {σ κ α : Type}

namespace Source

/-- What a source returns to the refills of a stream, one after the other. -/
def returned (read : Source σ α) (channels : Nat) : Nat → σ → Nat
  | 0, s => (read (readFrames * channels) s).1.count
  | k + 1, s => returned read channels k (read (readFrames * channels) s).2

/-- A source that has nothing more. -/
def Spent (read : Source σ α) (channels : Nat) (s : σ) : Prop :=
  ∀ k, read.returned channels k s = 0

/-- A source that delivers whole frames and, once it returned 0, returns 0 for ever. -/
structure Lasting (read : Source σ α) (channels : Nat) (s : σ) : Prop where
  whole : ∀ k, channels ∣ read.returned channels k s
  ends : ∀ k, read.returned channels k s = 0 → ∀ later, k ≤ later →
    read.returned channels later s = 0

variable {read : Source σ α} {channels : Nat} {s : σ}

theorem Spent.next (spent : read.Spent channels s) :
    read.Spent channels (read (readFrames * channels) s).2 :=
  fun k => spent (k + 1)

theorem Lasting.next (lasting : read.Lasting channels s) :
    read.Lasting channels (read (readFrames * channels) s).2 :=
  ⟨fun k => lasting.whole (k + 1),
    fun k none later after => lasting.ends (k + 1) none (later + 1) (Nat.succ_le_succ after)⟩

theorem Lasting.spent (lasting : read.Lasting channels s)
    (none : (read (readFrames * channels) s).1.count = 0) :
    read.Spent channels (read (readFrames * channels) s).2 :=
  fun k => lasting.ends 0 none (k + 1) (Nat.zero_le _)

end Source

section

variable [Sample α]

/-- A read that delivers whole frames brings samples unless it returns 0. -/
theorem Reading.count_of_taken {a : Reading α} {channels : Nat} (whole : channels ∣ a.count)
    (empty : (a.taken (readFrames * channels) channels).isEmpty = true) : a.count = 0 := by
  rcases Nat.eq_zero_or_pos channels with rfl | pos
  · exact Nat.zero_dvd.mp whole
  have aligned : channels ∣ min a.count (readFrames * channels) := by
    rcases Nat.le_total a.count (readFrames * channels) with le | le
    · rwa [Nat.min_eq_left le]
    · rw [Nat.min_eq_right le]
      exact Nat.dvd_mul_left ..
  have none : (a.taken (readFrames * channels) channels).size = 0 := by simpa using empty
  rw [taken, Array.size_extract, a.size_buffer, wholeFrames, Nat.mod_eq_zero_of_dvd aligned] at none
  have block : 0 < readFrames * channels := Nat.mul_pos (by decide) pos
  omega

end

namespace Stream

structure Steady (read : Source σ α) (s : Stream σ κ α) : Prop where
  unconverted : s.converter = none
  source : read.Lasting s.channels s.source

/-- Streams that differ in their sources only, and those have nothing more. -/
structure Same (read : Source σ α) (s s' : Stream σ κ α) : Prop where
  rest : s' = { s with source := s'.source }
  source : s'.source = s.source ∨ read.Spent s.channels s.source ∧ read.Spent s.channels s'.source

variable {read : Source σ α} {s s' : Stream σ κ α}

theorem Same.refl (read : Source σ α) (s : Stream σ κ α) : s.Same read s :=
  ⟨rfl, Or.inl rfl⟩

theorem Same.isDrained (same : s.Same read s') : s'.isDrained = s.isDrained := by
  rw [same.rest]
  rfl

variable [Sample α] (r : Resampler κ α)

/-- Streams that are the same up to a source that has nothing more give the same frame, and stay the
same. -/
theorem Same.nextFrame (same : s.Same read s') (unconverted : s.converter = none) :
    (s'.nextFrame r read).1 = (s.nextFrame r read).1 ∧
      (s.nextFrame r read).2.Same read (s'.nextFrame r read).2 := by
  obtain ⟨rest, sources⟩ := same
  generalize s'.source = source' at rest sources
  subst rest
  rcases sources with rfl | ⟨spent, spent'⟩
  · exact ⟨rfl, .refl read _⟩
  rcases Nat.lt_or_ge s.offset s.buffer.size with waiting | used
  · rw [nextFrame_of_waiting r waiting,
      nextFrame_of_waiting r (s := { s with source := source' }) waiting]
    exact ⟨rfl, rfl, Or.inr ⟨spent, spent'⟩⟩
  · rw [nextFrame_of_nothing r unconverted (spent 0) used,
      nextFrame_of_nothing r (s := { s with source := source' }) unconverted (spent' 0) used]
    exact ⟨rfl, rfl, Or.inr ⟨spent.next, spent'.next⟩⟩

variable (read) in
/-- Taking a frame changes nothing but the source and what waits. -/
theorem emptied_nextFrame (unconverted : s.converter = none) (source : σ) :
    (s.nextFrame r read).2.emptied source = s.emptied source := by
  rcases Nat.lt_or_ge s.offset s.buffer.size with waiting | used
  · rw [nextFrame_of_waiting r waiting]
    rfl
  · unfold Stream.nextFrame
    simp only [if_pos used, refill_unconverted r unconverted]
    split <;> rfl

theorem Steady.nextFrame (steady : s.Steady read) : (s.nextFrame r read).2.Steady read := by
  rcases Nat.lt_or_ge s.offset s.buffer.size with waiting | used
  · rw [nextFrame_of_waiting r waiting]
    exact ⟨steady.unconverted, steady.source⟩
  · have refilled : (s.refill r read).Steady read := by
      rw [refill_unconverted r steady.unconverted]
      exact ⟨steady.unconverted, steady.source.next⟩
    unfold Stream.nextFrame
    simp only [if_pos used]
    split
    · exact refilled
    · exact ⟨refilled.unconverted, refilled.source⟩

/-- A stream without a next frame is used up, and its source has nothing more. -/
theorem Steady.emptied_of_dry (steady : s.Steady read) (dry : (s.nextFrame r read).1 = none) :
    ∃ source, (s.nextFrame r read).2 = s.emptied source ∧ read.Spent s.channels source := by
  rcases Nat.lt_or_ge s.offset s.buffer.size with waiting | used
  · rw [nextFrame_of_waiting r waiting] at dry
    cases dry
  · have nothing : (read (readFrames * s.channels) s.source).1.count = 0 := by
      refine Reading.count_of_taken (steady.source.whole 0) ?_
      unfold Stream.nextFrame at dry
      simp only [if_pos used, refill_unconverted r steady.unconverted] at dry
      split at dry
      · assumption
      · cases dry
    rw [nextFrame_of_nothing r steady.unconverted nothing used]
    exact ⟨_, rfl, steady.source.spent nothing⟩

theorem draw_emptied (unconverted : s.converter = none) {source : σ}
    (spent : read.Spent s.channels source) (count : Nat) (drawn : Array (Frame α)) :
    ∃ source', (s.emptied source).draw r read count drawn = (drawn, s.emptied source') ∧
      read.Spent s.channels source' := by
  cases count with
  | zero => exact ⟨source, rfl, spent⟩
  | succ count =>
    have dry := draw_of_nothing r (s := s.emptied source) unconverted (spent 0) (Nat.zero_le _)
    exact ⟨_, dry count drawn, spent.next⟩

variable (read) in
theorem draw_append (s : Stream σ κ α) (count : Nat) (drawn : Array (Frame α)) :
    s.draw r read count drawn =
      (drawn ++ (s.draw r read count #[]).1, (s.draw r read count #[]).2) := by
  induction count generalizing s drawn with
  | zero => simp [draw]
  | succ count ih =>
    rcases asked : s.nextFrame r read with ⟨_ | frame, s'⟩
    · simp [draw, asked]
    · simp only [draw, asked]
      rw [ih s' (drawn.push frame), ih s' (#[].push frame)]
      simp

variable (read) in
theorem size_draw (s : Stream σ κ α) (count : Nat) (drawn : Array (Frame α)) :
    (s.draw r read count drawn).1.size ≤ drawn.size + count := by
  induction count generalizing s drawn with
  | zero => exact Nat.le_refl _
  | succ count ih =>
    rcases asked : s.nextFrame r read with ⟨_ | frame, s'⟩
    · simp only [draw, asked]
      exact Nat.le_add_right _ _
    · simp only [draw, asked]
      have few := ih s' (drawn.push frame)
      rw [Array.size_push] at few
      omega

variable (read) in
theorem emptied_draw (unconverted : s.converter = none) (count : Nat) (drawn : Array (Frame α))
    (source : σ) : (s.draw r read count drawn).2.emptied source = s.emptied source := by
  induction count generalizing s drawn with
  | zero => rfl
  | succ count ih =>
    have kept := emptied_nextFrame read r unconverted
    rcases asked : s.nextFrame r read with ⟨_ | frame, s'⟩
    · simp only [draw, asked] at kept ⊢
      exact kept source
    · simp only [draw, asked] at kept ⊢
      have same : s'.converter = s.converter := congrArg (·.converter) (kept source)
      exact (ih (same.trans unconverted) (drawn.push frame)).trans (kept source)

/-- Streams that are the same give the same to any number of frames, and stay the same. -/
theorem Same.draw (same : s.Same read s') (unconverted : s.converter = none) (count : Nat)
    (drawn : Array (Frame α)) :
    (s'.draw r read count drawn).1 = (s.draw r read count drawn).1 ∧
      (s.draw r read count drawn).2.Same read (s'.draw r read count drawn).2 := by
  induction count generalizing s s' drawn with
  | zero => exact ⟨rfl, same⟩
  | succ count ih =>
    have kept := emptied_nextFrame read r unconverted s.source
    obtain ⟨frames, next⟩ := same.nextFrame r unconverted
    rcases asked : s.nextFrame r read with ⟨given, s₁⟩
    rcases asked' : s'.nextFrame r read with ⟨given', s₁'⟩
    simp only [asked, asked'] at frames kept next
    subst frames
    simp only [Stream.draw, asked, asked']
    cases given' with
    | none => exact ⟨rfl, next⟩
    | some frame =>
      have unconverted' : s₁.converter = s.converter := congrArg (·.converter) kept
      exact ih next (unconverted'.trans unconverted) (drawn.push frame)

namespace Steady

theorem draw (steady : s.Steady read) (count : Nat) (drawn : Array (Frame α)) :
    (s.draw r read count drawn).2.Steady read := by
  induction count generalizing s drawn with
  | zero => exact steady
  | succ count ih =>
    have steady' := steady.nextFrame r
    rcases asked : s.nextFrame r read with ⟨_ | frame, s'⟩
    · simp only [Stream.draw, asked] at steady' ⊢
      exact steady'
    · simp only [Stream.draw, asked] at steady' ⊢
      exact ih steady' (drawn.push frame)

/-- A draw that brings too few frames leaves the stream used up. -/
theorem emptied_of_draw (steady : s.Steady read) {count : Nat} {drawn : Array (Frame α)}
    (short : (s.draw r read count drawn).1.size < drawn.size + count) :
    ∃ source, (s.draw r read count drawn).2 = s.emptied source ∧
      read.Spent s.channels source := by
  induction count generalizing s drawn with
  | zero => exact absurd short (Nat.lt_irrefl _)
  | succ count ih =>
    rcases asked : s.nextFrame r read with ⟨_ | frame, s'⟩
    · have dry := steady.emptied_of_dry r (congrArg Prod.fst asked)
      simp only [Stream.draw, asked]
      rwa [asked] at dry
    · have kept := emptied_nextFrame read r steady.unconverted
      have steady' := steady.nextFrame r
      simp only [asked] at kept steady'
      simp only [Stream.draw, asked] at short ⊢
      rw [Nat.add_comm count, ← Nat.add_assoc, ← Array.size_push frame] at short
      obtain ⟨source, left, spent⟩ := ih steady' short
      have width : s'.channels = s.channels := congrArg (·.channels) (kept source)
      exact ⟨source, left.trans (kept source), width ▸ spent⟩

/-- Drawing on after a draw comes to one draw. Where the first one stops early, the second one asks
a source that has nothing more. -/
theorem draw_add (steady : s.Steady read) (n k : Nat) (drawn : Array (Frame α)) :
    ((s.draw r read n drawn).2.draw r read k (s.draw r read n drawn).1).1 =
        (s.draw r read (n + k) drawn).1 ∧
      (s.draw r read (n + k) drawn).2.Same read
        ((s.draw r read n drawn).2.draw r read k (s.draw r read n drawn).1).2 := by
  induction n generalizing s drawn with
  | zero =>
    rw [Nat.zero_add]
    exact ⟨rfl, .refl read _⟩
  | succ n ih =>
    rw [Nat.succ_add]
    rcases asked : s.nextFrame r read with ⟨_ | frame, s'⟩
    · obtain ⟨source, rfl, spent⟩ : ∃ source, s' = s.emptied source ∧
          read.Spent s.channels source := by
        have dry := steady.emptied_of_dry r (congrArg Prod.fst asked)
        rwa [asked] at dry
      obtain ⟨source', again, spent'⟩ := draw_emptied r steady.unconverted spent k drawn
      simp only [Stream.draw, asked, again, true_and]
      exact ⟨rfl, Or.inr ⟨spent, spent'⟩⟩
    · have steady' := steady.nextFrame r
      simp only [Stream.draw, asked] at steady' ⊢
      exact ih steady' (drawn.push frame)

/-- What a stream gives to a number of frames and then to another is what it gives to all of them:
the second gets nothing where the first got too few. -/
theorem supply_add (steady : s.Steady read) (n k : Nat) :
    (s.supply r read (n + k)).1 =
        (s.supply r read n).1 ++ ((s.supply r read n).2.supply r read k).1 ∧
      (s.supply r read n).1.size ≤ n ∧
      ((s.supply r read n).1.size < n → ((s.supply r read n).2.supply r read k).1 = #[]) ∧
      (s.supply r read (n + k)).2.Same read ((s.supply r read n).2.supply r read k).2 := by
  rcases playing : s.playing with _ | _
  · rw [supply_held r read playing, supply_held r read playing, supply_held r read playing]
    exact ⟨rfl, Nat.zero_le _, fun _ => rfl, .refl read s⟩
  have plays : (s.draw r read n #[]).2.playing = s.playing :=
    congrArg (·.playing) (emptied_draw read r steady.unconverted n #[] s.source)
  obtain ⟨frames, same⟩ := steady.draw_add r n k #[]
  rw [draw_append read r (s.draw r read n #[]).2] at frames same
  have few := size_draw read r s n #[]
  simp only [supply, playing, plays, if_true]
  refine ⟨frames.symm, by simpa using few, fun short => ?_, same⟩
  have early : (s.draw r read n #[]).1.size < (#[] : Array (Frame α)).size + n := by
    simpa using short
  obtain ⟨source, used, spent⟩ := steady.emptied_of_draw r early
  obtain ⟨source', dry, _⟩ := draw_emptied r steady.unconverted spent k #[]
  rw [used, dry]

theorem getElem?_supply_before (steady : s.Steady read) {n i : Nat} (k : Nat) (before : i < n) :
    (s.supply r read (n + k)).1[i]? = (s.supply r read n).1[i]? := by
  obtain ⟨frames, few, short, _⟩ := steady.supply_add r n k
  rw [frames]
  rcases Nat.lt_or_ge i (s.supply r read n).1.size with given | missing
  · exact Array.getElem?_append_left given
  · rw [short (Nat.lt_of_le_of_lt missing before), Array.append_empty]

theorem getElem?_supply_after (steady : s.Steady read) (n k i : Nat) :
    (s.supply r read (n + k)).1[n + i]? = ((s.supply r read n).2.supply r read k).1[i]? := by
  obtain ⟨frames, few, short, _⟩ := steady.supply_add r n k
  rw [frames]
  rcases Nat.lt_or_ge (s.supply r read n).1.size n with missing | all
  · rw [short missing, Array.append_empty, Array.getElem?_eq_none (by omega)]
    rfl
  · rw [Array.getElem?_append_right (by omega)]
    congr 1
    omega

theorem supply (steady : s.Steady read) (count : Nat) : (s.supply r read count).2.Steady read := by
  unfold Stream.supply
  split
  · exact steady.draw r count #[]
  · exact steady

end Steady

/-- Streams that are the same give the same to a mix, and stay the same. -/
theorem Same.supply (same : s.Same read s') (unconverted : s.converter = none) (count : Nat) :
    (s'.supply r read count).1 = (s.supply r read count).1 ∧
      (s.supply r read count).2.Same read (s'.supply r read count).2 := by
  have playing : s'.playing = s.playing := congrArg (·.playing) same.rest
  unfold Stream.supply
  rw [playing]
  split
  · exact same.draw r unconverted count #[]
  · exact ⟨rfl, same⟩

end Stream

theorem deviceFrames_add (channels n k : Nat) :
    deviceFrames channels ((n + k) * channels) =
      deviceFrames channels (n * channels) + deviceFrames channels (k * channels) := by
  rcases Nat.eq_zero_or_pos channels with rfl | pos
  · simp only [deviceFrames, Nat.div_zero]
  · rw [deviceFrames_mul pos, deviceFrames_mul pos, deviceFrames_mul pos]

/-- In a buffer of whole frames no frame is cut short. -/
theorem part_of_whole [Sample α] {channels n i : Nat} (inside : i < n * channels)
    (fs : Array (Frame α)) :
    part channels (n * channels) i fs =
      (fs[i / channels]?).map fun frame => mapChannel frame (i % channels) channels := by
  have pos : 0 < channels := Nat.pos_of_mul_pos_left (Nat.zero_lt_of_lt inside)
  have room : (i / channels + 1) * channels ≤ n * channels :=
    Nat.mul_le_mul_right _ ((Nat.div_lt_iff_lt_mul pos).mpr inside)
  rw [Nat.succ_mul] at room
  rw [part, Nat.min_eq_left (by omega)]

namespace Mixer

/-- Mixers whose streams are the same, in the same order. -/
structure Same (read : Source σ α) (m m' : Mixer σ κ α) : Prop where
  rate : m'.rate = m.rate
  channels : m'.channels = m.channels
  next : m'.next = m.next
  streams : List.Forall₂ (fun p p' => p'.1 = p.1 ∧ p.2.Same read p'.2) m.streams m'.streams

/-- A mixer whose streams all run at the rate of the device and have sources that last. -/
def Steady (read : Source σ α) (m : Mixer σ κ α) : Prop :=
  ∀ p ∈ m.streams, p.2.Steady read

variable {read : Source σ α} {m m' : Mixer σ κ α}

theorem Same.isDrained (same : m.Same read m') (id : StreamId) :
    m'.isDrained id = m.isDrained id := by
  obtain ⟨rate, channels, next, streams⟩ := m
  obtain ⟨rate', channels', next', streams'⟩ := m'
  have alike := same.streams
  simp only [Mixer.isDrained, stream?]
  simp only at alike
  clear same
  induction alike with
  | nil => rfl
  | @cons p p' _ _ head _ ih =>
    rw [List.find?_cons, List.find?_cons, head.1]
    by_cases here : p.1 = id
    · simp [here, head.2.isDrained]
    · simpa [here] using ih

variable [Sample α] (r : Resampler κ α)

/-- Mixers that are the same mix the same, and stay the same. -/
theorem Same.fill (same : m.Same read m') (steady : m.Steady read) (out : Array α) :
    (m'.fill r read out).1 = (m.fill r read out).1 ∧
      (m.fill r read out).2.Same read (m'.fill r read out).2 := by
  generalize width : deviceFrames m.channels out.size = count
  have supplied : List.Forall₂ (fun p p' =>
      (p'.2.supply r read count).1 = (p.2.supply r read count).1 ∧ p'.1 = p.1 ∧
        (p.2.supply r read count).2.Same read (p'.2.supply r read count).2)
      m.streams m'.streams := by
    refine List.Forall₂.imp ?_ ((List.forall₂_and_left _ _).mpr ⟨steady, same.streams⟩)
    rintro p p' ⟨steady, number, alike⟩
    obtain ⟨frames, after⟩ := alike.supply r steady.unconverted count
    exact ⟨frames, number, after⟩
  refine ⟨?_, same.rate, same.channels, same.next, ?_⟩
  · have frames : (m'.streams.map fun p => (p.2.supply r read count).1) =
        m.streams.map fun p => (p.2.supply r read count).1 := by
      rw [eq_comm, ← List.forall₂_eq_eq_eq, List.forall₂_map_left_iff, List.forall₂_map_right_iff]
      exact supplied.imp fun _ _ alike => alike.1.symm
    simp only [Mixer.fill, mixStreams_eq, same.channels, Array.size_map, width, frames]
  · rw [fill_streams, fill_streams, same.channels, width]
    simp only [List.forall₂_map_left_iff, List.forall₂_map_right_iff]
    exact supplied.imp fun _ _ alike => alike.2

theorem Steady.fill (steady : m.Steady read) (out : Array α) :
    (m.fill r read out).2.Steady read := by
  rw [fill_streams]
  rintro p there
  obtain ⟨q, old, rfl⟩ := List.mem_map.mp there
  exact (steady q old).supply r _

/-- The samples before the cut are those of the first mix. -/
theorem getElem?_fill_before (steady : m.Steady read) {n i : Nat} (k : Nat) {out first : Array α}
    (all : out.size = (n + k) * m.channels) (before : first.size = n * m.channels)
    (inside : i < n * m.channels) :
    (m.fill r read out).1[i]? = (m.fill r read first).1[i]? := by
  have pos : 0 < m.channels := Nat.pos_of_mul_pos_left (Nat.zero_lt_of_lt inside)
  have inside' : i < (n + k) * m.channels := by
    rw [Nat.add_mul]
    omega
  have frame : i / m.channels < n := (Nat.div_lt_iff_lt_mul pos).mpr inside
  rw [getElem?_fill r read m out (all ▸ inside'), getElem?_fill r read m first (before ▸ inside)]
  congr 2
  refine List.filterMap_congr fun p there => ?_
  rw [all, before, part_of_whole inside', part_of_whole inside, deviceFrames_mul pos,
    deviceFrames_mul pos, (steady p there).getElem?_supply_before r k frame]

/-- The samples after the cut are those of the second mix. -/
theorem getElem?_fill_after (steady : m.Steady read) {n k i : Nat} {out first second : Array α}
    (all : out.size = (n + k) * m.channels) (before : first.size = n * m.channels)
    (after : second.size = k * m.channels) (inside : i < k * m.channels) :
    (m.fill r read out).1[n * m.channels + i]? =
      ((m.fill r read first).2.fill r read second).1[i]? := by
  have pos : 0 < m.channels := Nat.pos_of_mul_pos_left (Nat.zero_lt_of_lt inside)
  have inside' : n * m.channels + i < (n + k) * m.channels := by
    rw [Nat.add_mul]
    omega
  rw [getElem?_fill r read m out (all ▸ inside'),
    getElem?_fill r read _ second (after ▸ inside), fill_streams, List.filterMap_map]
  congr 2
  refine List.filterMap_congr fun p there => ?_
  rw [Function.comp, all, before, after, part_of_whole inside', part_of_whole inside,
    deviceFrames_mul pos, deviceFrames_mul pos, deviceFrames_mul pos, Nat.mul_comm n,
    Nat.mul_add_div pos, Nat.mul_add_mod, (steady p there).getElem?_supply_after r]

/-- A mix of some frames and a mix of others leave what one mix of all of them leaves. -/
theorem Steady.same_fill (steady : m.Steady read) (n k : Nat) {out first second : Array α}
    (all : out.size = (n + k) * m.channels) (before : first.size = n * m.channels)
    (after : second.size = k * m.channels) :
    (m.fill r read out).2.Same read ((m.fill r read first).2.fill r read second).2 := by
  rw [fill_streams r read m out, fill_streams r read _ second, fill_streams r read m first]
  refine ⟨rfl, rfl, rfl, ?_⟩
  simp only [List.map_map, List.forall₂_map_left_iff, List.forall₂_map_right_iff,
    List.forall₂_same, Function.comp, true_and]
  intro p there
  rw [all, before, after, deviceFrames_add]
  exact ((steady p there).supply_add r _ _).2.2.2

/-- A mix of some frames and a mix of others come to one mix of all of them. They write the same
samples and leave the same mixer, which tells the same of every stream and mixes the same from then
on. -/
theorem fill_in_pieces (steady : m.Steady read) (n k : Nat) {out first second : Array α}
    (all : out.size = (n + k) * m.channels) (before : first.size = n * m.channels)
    (after : second.size = k * m.channels) :
    (m.fill r read out).1 =
        (m.fill r read first).1 ++ ((m.fill r read first).2.fill r read second).1 ∧
      (m.fill r read out).2.Same read ((m.fill r read first).2.fill r read second).2 ∧
      (∀ id, ((m.fill r read first).2.fill r read second).2.isDrained id =
        (m.fill r read out).2.isDrained id) ∧
      ∀ later, (((m.fill r read first).2.fill r read second).2.fill r read later).1 =
        ((m.fill r read out).2.fill r read later).1 := by
  have same := steady.same_fill r n k all before after
  refine ⟨Array.ext_getElem? fun i => ?_, same, same.isDrained,
    fun later => (same.fill r (steady.fill r out) later).1⟩
  rcases Nat.lt_or_ge i (n * m.channels) with inside | beyond
  · rw [Array.getElem?_append_left (by rwa [size_fill, before]),
      getElem?_fill_before r steady k all before inside]
  · obtain ⟨j, rfl⟩ := Nat.exists_eq_add_of_le beyond
    rw [Array.getElem?_append_right (by rw [size_fill, before]; exact beyond), size_fill, before,
      Nat.add_sub_cancel_left]
    rcases Nat.lt_or_ge j (k * m.channels) with inside | beyond
    · exact getElem?_fill_after r steady all before after inside
    · rw [Array.getElem?_eq_none (by rw [size_fill, all, Nat.add_mul]; omega),
        Array.getElem?_eq_none (by rw [size_fill, after]; exact beyond)]

end Mixer

namespace Tape

/-- A tape that gives all that is asked for and claims what it gave. -/
structure Honest (t : Tape α) : Prop where
  most : t.most = none
  excess : t.excess = 0

variable {t : Tape α}

theorem Honest.count_read (honest : t.Honest) (wanted : Nat) :
    (read wanted t).1.count = min wanted t.samples.size := by
  unfold read
  by_cases empty : t.samples = #[]
  · simp [empty]
  · have full : ¬t.samples.isEmpty = true := by simpa using empty
    simp only [if_neg full, honest.most, honest.excess, Option.getD_none, Nat.min_self,
      Int.add_zero, Int.toNat_natCast, Array.size_extract, Nat.sub_zero]

theorem Honest.size_read (honest : t.Honest) (wanted : Nat) :
    (read wanted t).2.samples.size = t.samples.size - wanted := by
  unfold read
  by_cases empty : t.samples = #[]
  · simp [empty]
  · simp [empty, honest.most]
    omega

theorem Honest.read (honest : t.Honest) (wanted : Nat) : (read wanted t).2.Honest := by
  unfold Tape.read
  split
  · exact honest
  · exact ⟨honest.most, honest.excess⟩

theorem Honest.returned_eq (honest : t.Honest) (channels k : Nat) :
    Source.returned Tape.read channels k t =
      min (readFrames * channels) (t.samples.size - k * (readFrames * channels)) := by
  induction k generalizing t with
  | zero => rw [Source.returned, honest.count_read, Nat.zero_mul, Nat.sub_zero]
  | succ k ih =>
    rw [Source.returned, ih (honest.read _), honest.size_read, Nat.succ_mul, Nat.sub_sub,
      Nat.add_comm]

/-- A tape of whole frames lasts. -/
theorem Honest.lasting (honest : t.Honest) {channels : Nat} (whole : channels ∣ t.samples.size) :
    Source.Lasting Tape.read channels t where
  whole k := by
    have block : channels ∣ readFrames * channels := Nat.dvd_mul_left ..
    have left : channels ∣ t.samples.size - k * (readFrames * channels) :=
      Nat.dvd_sub whole (Nat.dvd_mul_left_of_dvd block k)
    rw [honest.returned_eq]
    rcases Nat.le_total (readFrames * channels) (t.samples.size - k * (readFrames * channels)) with
      le | le
    · rwa [Nat.min_eq_left le]
    · rwa [Nat.min_eq_right le]
  ends k none later after := by
    rw [honest.returned_eq] at none ⊢
    have further := Nat.mul_le_mul_right (readFrames * channels) after
    omega

end Tape

/-- A stream of which three frames wait and whose tape is at its end, and a stream with frames on
its tape, play to a device of two channels. -/
def tapesToCut : Mixer (Tape ℚ) Unit ℚ :=
  ⟨44100, 2, 3, [
    (⟨1⟩, ⟨⟨#[], none, 0⟩, 1, none, true, false, #[1, 2, 3], 0⟩),
    (⟨2⟩, ⟨⟨#[7, 8, 9, 10], none, 0⟩, 2, none, true, false, #[1, 2, 3, 4, 5, 6], 2⟩)]⟩

/-- The first stream runs dry within the first of two mixes and is asked again in the second. -/
theorem tapesToCut_in_pieces :
    tapesToCut.Steady Tape.read ∧
    (let first := tapesToCut.fill .idle Tape.read (Array.replicate 8 1)
     let second := first.2.fill .idle Tape.read (Array.replicate 4 1)
     let whole := tapesToCut.fill .idle Tape.read (Array.replicate 12 1)
     tapesToCut.isDrained ⟨1⟩ = false ∧ first.2.isDrained ⟨1⟩ = true ∧
      whole.1 = first.1 ++ second.1 ∧ whole.2.Same Tape.read second.2 ∧
      second.2.isDrained ⟨2⟩ = whole.2.isDrained ⟨2⟩) := by
  have steady : tapesToCut.Steady Tape.read := by
    intro p there
    rcases List.mem_pair.mp there with rfl | rfl
    · exact ⟨rfl, Tape.Honest.lasting ⟨rfl, rfl⟩ (by decide)⟩
    · exact ⟨rfl, Tape.Honest.lasting ⟨rfl, rfl⟩ (by decide)⟩
  obtain ⟨samples, same, drained, _⟩ := Mixer.fill_in_pieces Resampler.idle steady 4 2
    (show (Array.replicate 12 1).size = (4 + 2) * tapesToCut.channels by decide)
    (show (Array.replicate 8 1).size = 4 * tapesToCut.channels by decide)
    (show (Array.replicate 4 1).size = 2 * tapesToCut.channels by decide)
  refine ⟨steady, rfl, ?_, samples, same, drained ⟨2⟩⟩
  have there : tapesToCut.stream? ⟨1⟩ =
      some ⟨⟨#[], none, 0⟩, 1, none, true, false, #[1, 2, 3], 0⟩ := rfl
  have four : deviceFrames tapesToCut.channels 8 = 4 := rfl
  rw [Mixer.isDrained, Mixer.stream?_fill, there, Array.size_replicate, four, Option.map_some,
    Stream.supply, if_pos rfl, Stream.draw_of_waiting _ (by decide),
    Stream.draw_of_waiting _ (by decide), Stream.draw_of_waiting _ (by decide),
    Stream.draw_of_nothing _ rfl rfl (by decide)]
  rfl

end Jukebox.Audio
