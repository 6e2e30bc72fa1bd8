import Jukebox.Proofs.Audio.Restarting
import Jukebox.Proofs.Audio.Rounding
/-!
# What a conversion comes to

A source is handed to the resampler in full chunks, then its rest filled up with silence, then one
chunk of silence. Of all that the resampler answers, a converter gives out what is left without the
delay at the head, cut to the length that the frames of the source amount to. The counters that do
this are known at every chunk by what the resampler has given so far: as long as that is no more
than the delay and the length up to there, nothing is cut before the end.
-/
namespace Jukebox.Audio

open Interpolator (chunkFrames)

variable {σ κ α : Type}

section Frames

def framesOf (channels : Nat) (stock : List α) : List (Frame α) :=
  (frames channels stock.toArray).toList

variable {channels : Nat} {stock : List α}

@[simp] theorem length_framesOf (channels : Nat) (stock : List α) :
    (framesOf channels stock).length = stock.length / channels := by
  simp [framesOf, frames]

/-- A frame holds the samples at its place. -/
theorem getElem?_framesOf (channels : Nat) (stock : List α) (i : Nat) :
    (framesOf channels stock)[i]? =
      if i < stock.length / channels then
        some ((stock.drop (i * channels)).take channels).toArray
      else none := by
  rw [framesOf, frames, Array.toList_map, Array.toList_range, List.getElem?_map, List.size_toArray]
  by_cases inside : i < stock.length / channels
  · simp [inside]
  · rw [List.getElem?_eq_none (by simpa using inside), if_neg inside, Option.map_none]

theorem framesOf_take (pos : 0 < channels) {n : Nat} (enough : n * channels ≤ stock.length) :
    framesOf channels (stock.take (n * channels)) = (framesOf channels stock).take n := by
  have fit : n ≤ stock.length / channels := (Nat.le_div_iff_mul_le pos).mpr enough
  refine List.ext_getElem? fun i => ?_
  rw [List.getElem?_take, getElem?_framesOf, getElem?_framesOf, List.length_take,
    Nat.min_eq_left enough, Nat.mul_div_cancel _ pos]
  by_cases inside : i < n
  · have room : channels ≤ n * channels - i * channels := by
      rw [← Nat.sub_mul]
      exact Nat.le_mul_of_pos_left channels (Nat.sub_pos_of_lt inside)
    rw [if_pos inside, if_pos inside, if_pos (Nat.lt_of_lt_of_le inside fit), List.drop_take,
      List.take_take, Nat.min_eq_left room]
  · rw [if_neg inside, if_neg inside]

theorem framesOf_drop (channels : Nat) (stock : List α) (n : Nat) :
    framesOf channels (stock.drop (n * channels)) = (framesOf channels stock).drop n := by
  refine List.ext_getElem? fun i => ?_
  rw [List.getElem?_drop, getElem?_framesOf, getElem?_framesOf, List.length_drop, List.drop_drop,
    ← Nat.add_mul, Nat.mul_comm n, Nat.sub_mul_div]
  simp only [Nat.lt_sub_iff_add_lt']

theorem size_of_mem_framesOf {f : Frame α} (there : f ∈ framesOf channels stock) :
    f.size = channels := by
  obtain ⟨i, place⟩ := List.mem_iff_getElem?.mp there
  rw [getElem?_framesOf] at place
  split at place
  next inside =>
    obtain rfl := Option.some.inj place
    have room := Nat.mul_le_mul_right channels (Nat.succ_le_of_lt inside)
    have whole := Nat.div_mul_le_self stock.length channels
    rw [Nat.succ_mul] at room
    rw [List.size_toArray, List.length_take, List.length_drop]
    omega
  next => cases place

end Frames

section Feeding

variable [Sample α] (channels : Nat)

def padded (fs : List (Frame α)) : Array (Frame α) :=
  (fs ++ List.replicate (chunkFrames - fs.length)
    (Array.replicate channels Sample.silence)).toArray

/-- What is handed to a resampler in the course of a conversion: full chunks, the rest filled up
with silence, and a chunk of silence. -/
def feed (fs : List (Frame α)) : List (Array (Frame α)) :=
  if _full : chunkFrames ≤ fs.length then
    (fs.take chunkFrames).toArray :: feed (fs.drop chunkFrames)
  else [padded channels fs, padded channels []]
termination_by fs.length
decreasing_by
  have some_taken : 0 < chunkFrames := by decide
  rw [List.length_drop]
  omega

variable {channels} {fs : List (Frame α)}

theorem feed_full (full : chunkFrames ≤ fs.length) :
    feed channels fs = (fs.take chunkFrames).toArray :: feed channels (fs.drop chunkFrames) := by
  rw [feed, dif_pos full]

theorem feed_short (short : fs.length < chunkFrames) :
    feed channels fs = [padded channels fs, padded channels []] := by
  rw [feed, dif_neg (Nat.not_le_of_lt short)]

theorem length_feed (channels : Nat) (fs : List (Frame α)) :
    (feed channels fs).length = fs.length / chunkFrames + 2 := by
  fun_induction feed channels fs with
  | case1 fs full ih =>
    rw [List.length_cons, ih, List.length_drop, Nat.div_eq_sub_div (by decide) full,
      Nat.add_right_comm]
  | case2 fs short =>
    rw [Nat.div_eq_of_lt (Nat.lt_of_not_le short)]
    rfl

theorem length_take_feed (channels : Nat) {n : Nat} (few : n * chunkFrames ≤ fs.length) :
    ((feed channels fs).take n).length = n := by
  have fit : n ≤ fs.length / chunkFrames := (Nat.le_div_iff_mul_le (by decide)).mpr few
  rw [List.length_take, length_feed]
  omega

end Feeding

namespace Resampler

variable (r : Resampler κ α)

def outputs (k : κ) : List (Array (Frame α)) → List (Frame α)
  | [] => []
  | chunk :: rest =>
    let (answer, k) := r.process k chunk
    (answer.getD #[]).toList ++ outputs k rest

def after (k : κ) (chunks : List (Array (Frame α))) : κ :=
  chunks.foldl (fun k chunk => (r.process k chunk).2) k

/-- What a conversion of some frames comes to: all that the resampler gives, less the delay and cut
to the length that the frames amount to. -/
def conversion [Sample α] (k : κ) (input output channels : Nat) (fs : List (Frame α)) :
    List (Frame α) :=
  ((r.outputs k (feed channels fs)).drop (r.delay k)).take (convertedLength input output fs.length)

theorem outputs_append (k : κ) (chunks more : List (Array (Frame α))) :
    r.outputs k (chunks ++ more) = r.outputs k chunks ++ r.outputs (r.after k chunks) more := by
  induction chunks generalizing k with
  | nil => rfl
  | cons chunk rest ih =>
    simp only [List.cons_append, outputs, ih, List.append_assoc]
    rfl

theorem after_append (k : κ) (chunks more : List (Array (Frame α))) :
    r.after k (chunks ++ more) = r.after (r.after k chunks) more :=
  List.foldl_append

structure Full (channels : Nat) (chunk : Array (Frame α)) : Prop where
  size : chunk.size = chunkFrames
  width : ∀ f ∈ chunk, f.size = channels

/-- A resampler that always asks for chunks of the same size and never fails. A chunk that is short
or missing is taken as one filled up with silence. -/
structure Regular [Sample α] (channels : Nat) (start : κ) : Prop where
  needed : ∀ k, r.Reached start k → r.needed k = chunkFrames
  renewed : ∀ k, r.Reached start k → r.needed (r.reset k) = chunkFrames
  answers : ∀ k, r.Reached start k → ∀ chunk, Full channels chunk → (r.process k chunk).1.isSome
  rest : ∀ k, r.Reached start k → ∀ fs : List (Frame α), 0 < fs.length →
    fs.length < chunkFrames → (∀ f ∈ fs, f.size = channels) →
      r.processPartial k (some fs.toArray) = r.process k (padded channels fs)
  none : ∀ k, r.Reached start k → r.processPartial k none = r.process k (padded channels [])

end Resampler

theorem Resampler.full_take {channels : Nat} {stock : List α}
    (full : chunkFrames ≤ (framesOf channels stock).length) :
    Full channels ((framesOf channels stock).take chunkFrames).toArray where
  size := by rw [List.size_toArray, List.length_take, Nat.min_eq_left full]
  width f there := size_of_mem_framesOf (List.mem_of_mem_take (by simpa using there))

theorem Resampler.full_padded [Sample α] {channels : Nat} {fs : List (Frame α)}
    (short : fs.length < chunkFrames) (width : ∀ f ∈ fs, f.size = channels) :
    Full channels (padded channels fs) where
  size := by
    rw [padded, List.size_toArray, List.length_append, List.length_replicate]
    omega
  width f there := by
    rw [padded, List.mem_toArray, List.mem_append] at there
    rcases there with own | silent
    · exact width f own
    · rw [List.eq_of_mem_replicate silent, Array.size_replicate]

namespace Converter

/-- What is given out of what a resampler gave: all but the delay, up to a limit. -/
def trimmed (delay limit : Nat) (fs : List (Frame α)) : List (Frame α) :=
  (fs.drop delay).take limit

structure Trims (delay limit : Nat) (given : List (Frame α)) (c : Converter κ α) : Prop where
  skip : c.skip = delay - given.length
  framesOut : c.framesOut = (trimmed delay limit given).length

variable {c : Converter κ α} {delay limit : Nat} {given : List (Frame α)}

theorem trimmed_append (delay limit : Nat) (given more : List (Frame α)) :
    trimmed delay limit (given ++ more) = trimmed delay limit given ++
      (more.drop (delay - given.length)).take (limit - (trimmed delay limit given).length) := by
  rw [trimmed, trimmed, List.drop_append, List.take_append, List.length_take]
  congr 2
  omega

/-- What is given out next continues what was given out. -/
theorem Trims.emit (trims : Trims delay limit given c)
    (up_to : convertedLength c.input c.output c.framesIn = limit) (fs : List (Frame α)) :
    Trims delay limit (given ++ fs) (c.emit fs.toArray).2 ∧
      ∃ out, (c.emit fs.toArray).1 = interleave out.toArray ∧
        trimmed delay limit (given ++ fs) = trimmed delay limit given ++ out := by
  have kept : fs.toArray.extract c.skip (c.skip + (limit - c.framesOut)) =
      ((fs.drop (delay - given.length)).take
        (limit - (trimmed delay limit given).length)).toArray := by
    rw [trims.skip, trims.framesOut, List.extract_toArray, List.extract_eq_take_drop,
      Nat.add_sub_cancel_left]
  refine ⟨⟨?_, ?_⟩, _, ?_, trimmed_append ..⟩
  · rw [Converter.emit]
    simp only [List.size_toArray, List.length_append, trims.skip]
    omega
  · rw [Converter.emit]
    simp only [up_to, kept]
    rw [trimmed_append, List.length_append, trims.framesOut, List.size_toArray]
  · rw [Converter.emit]
    simp only [up_to, kept]

@[simp] theorem emit_resampler (c : Converter κ α) (fs : Array (Frame α)) :
    (c.emit fs).2.resampler = c.resampler := rfl

/-- The two answers to a flush continue what was given out, up to the length of all that was handed
in. -/
theorem Trims.flush {r : Resampler κ α} (trims : Trims delay limit given c)
    (up_to : convertedLength c.input c.output
      (c.framesIn + (frames c.channels c.pending).size) = limit)
    {head tail : Array (Frame α)} {k k' : κ}
    (first : r.processPartial c.resampler
      (if c.pending.isEmpty then none else some (frames c.channels c.pending)) = (some head, k))
    (second : r.processPartial k none = (some tail, k')) :
    ∃ out, (c.flush r).1 = interleave out.toArray ∧
      trimmed delay limit (given ++ head.toList ++ tail.toList) =
        trimmed delay limit given ++ out := by
  obtain ⟨trims₁, out₁, given₁, continued₁⟩ := Trims.emit
    (c := { c with
      pending := #[], framesIn := c.framesIn + (frames c.channels c.pending).size, resampler := k })
    ⟨trims.skip, trims.framesOut⟩ up_to head.toList
  obtain ⟨_, out₂, given₂, continued₂⟩ := Trims.emit
    (c := { (Converter.emit { c with
        pending := #[]
        framesIn := c.framesIn + (frames c.channels c.pending).size
        resampler := k } head.toList.toArray).2 with resampler := k' })
    ⟨trims₁.skip, trims₁.framesOut⟩ up_to tail.toList
  refine ⟨out₁ ++ out₂, ?_, by rw [continued₂, continued₁, List.append_assoc]⟩
  rw [interleave_append, ← given₁, ← given₂, Array.toArray_toList, Array.toArray_toList]
  simp only [Converter.flush, first, emitAnswer, emit_resampler, second]

/-- A conversion under way, some chunks of which are handed to the resampler. What it has given is
given out, less the delay. -/
structure Handed (r : Resampler κ α) (start : Converter κ α) (chunks : List (Array (Frame α)))
    (c : Converter κ α) : Prop where
  underway : Underway r start c
  resampler : c.resampler = r.after start.resampler chunks
  framesIn : c.framesIn = chunks.length * chunkFrames
  skip : c.skip = r.delay start.resampler - (r.outputs start.resampler chunks).length
  framesOut : c.framesOut = (r.outputs start.resampler chunks).length - r.delay start.resampler

/-- What a resampler gives for some chunks is no more than its delay and the length that their
frames amount to. -/
def Within (r : Resampler κ α) (start : Converter κ α) (chunks : List (Array (Frame α))) : Prop :=
  (r.outputs start.resampler chunks).length ≤ r.delay start.resampler +
    convertedLength start.input start.output (chunks.length * chunkFrames)

section

variable {r : Resampler κ α} {start : Converter κ α} {chunks : List (Array (Frame α))}
  {stock : List α}

theorem Fresh.handed (fresh : start.Fresh r) : Handed r start [] start where
  underway := fresh.underway
  resampler := rfl
  framesIn := by rw [fresh.framesIn, List.length_nil, Nat.zero_mul]
  skip := fresh.skip
  framesOut := by rw [fresh.framesOut, Resampler.outputs, List.length_nil, Nat.zero_sub]

/-- Under a limit that was not reached nothing is cut. -/
theorem trimmed_of_le {delay limit : Nat} {given : List (Frame α)}
    (room : given.length ≤ delay + limit) : trimmed delay limit given = given.drop delay := by
  rw [trimmed, List.take_of_length_le]
  rw [List.length_drop]
  omega

theorem Handed.trims (handed : Handed r start chunks c) {limit : Nat}
    (room : (r.outputs start.resampler chunks).length ≤ r.delay start.resampler + limit) :
    Trims (r.delay start.resampler) limit (r.outputs start.resampler chunks) c where
  skip := handed.skip
  framesOut := by rw [handed.framesOut, trimmed_of_le room, List.length_drop]

end

variable [Sample α] {r : Resampler κ α} {start : Converter κ α} {chunks : List (Array (Frame α))}
  {stock : List α}

omit [Sample α] in
/-- A full chunk is made of the first frames. -/
theorem digest_eq_of_full (pos : 0 < c.channels) (needed : r.needed c.resampler = chunkFrames)
    (full : chunkFrames ≤ (framesOf c.channels stock).length) :
    c.digest r stock =
      { c with pending := #[], framesIn := c.framesIn + chunkFrames, flushed := false }.emitAnswer
        (r.process c.resampler ((framesOf c.channels stock).take chunkFrames).toArray) := by
  have enough : chunkFrames * c.channels ≤ stock.length := by
    rw [length_framesOf] at full
    exact (Nat.le_div_iff_mul_le pos).mp full
  have first : frames c.channels (stock.take (chunkFrames * c.channels)).toArray =
      ((framesOf c.channels stock).take chunkFrames).toArray := by
    rw [← framesOf_take pos enough, framesOf]
  have all : (stock.take (chunkFrames * c.channels)).toArray.extract 0 (chunkFrames * c.channels) =
      (stock.take (chunkFrames * c.channels)).toArray := by
    simp
  have none_left : (stock.take (chunkFrames * c.channels)).toArray.extract
      (chunkFrames * c.channels) (stock.take (chunkFrames * c.channels)).toArray.size = #[] := by
    simp
  rw [digest]
  simp only [needed, if_pos enough, convertChunk, all, first, none_left, Nat.mul_div_cancel _ pos]

/-- A full chunk is handed in, and nothing of what the resampler answers is cut. -/
theorem Handed.digest_full (handed : Handed r start chunks c) (pos : 0 < start.channels)
    (regular : r.Regular start.channels start.resampler)
    (full : chunkFrames ≤ (framesOf start.channels stock).length) {chunk : Array (Frame α)}
    (next : chunk = ((framesOf start.channels stock).take chunkFrames).toArray)
    (within : Within r start (chunks ++ [chunk])) :
    Handed r start (chunks ++ [chunk]) (c.digest r stock).2 ∧
      ∃ out, (c.digest r stock).1 = interleave out.toArray ∧
        (r.outputs start.resampler (chunks ++ [chunk])).drop (r.delay start.resampler) =
          (r.outputs start.resampler chunks).drop (r.delay start.resampler) ++ out := by
  have underway := handed.underway
  have needed := regular.needed _ underway.reached
  have whole : Resampler.Full start.channels chunk := next ▸ Resampler.full_take full
  have answers := regular.answers _ underway.reached chunk whole
  have after : Underway r start (c.digest r stock).2 := by
    refine underway.digest_full ?_
    rw [length_framesOf] at full
    rw [needed, underway.channels]
    exact (Nat.le_div_iff_mul_le pos).mp full
  rw [digest_eq_of_full (underway.channels ▸ pos) needed (underway.channels ▸ full),
    underway.channels, ← next] at after ⊢
  have count : (chunks ++ [chunk]).length * chunkFrames = c.framesIn + chunkFrames := by
    rw [handed.framesIn, List.length_append, List.length_singleton, Nat.succ_mul]
  rcases answer : r.process c.resampler chunk with ⟨_ | fs, k⟩
  · rw [answer] at answers
    cases answers
  have total : r.outputs start.resampler (chunks ++ [chunk]) =
      r.outputs start.resampler chunks ++ fs.toList := by
    rw [Resampler.outputs_append, ← handed.resampler]
    simp [Resampler.outputs, answer]
  have state : r.after start.resampler (chunks ++ [chunk]) = k := by
    rw [Resampler.after_append, ← handed.resampler]
    simp [Resampler.after, answer]
  rw [Within, count, ← underway.input, ← underway.output] at within
  have before : (r.outputs start.resampler chunks).length ≤
      (r.outputs start.resampler (chunks ++ [chunk])).length := by
    rw [total, List.length_append]
    exact Nat.le_add_right ..
  obtain ⟨skip, framesOut⟩ := handed.trims (Nat.le_trans before within)
  -- The counters are those of the converter before the chunk; only the limit has grown.
  obtain ⟨trims, out, given, continued⟩ := Trims.emit
    (c := { c with
      pending := #[], framesIn := c.framesIn + chunkFrames, flushed := false, resampler := k })
    ⟨skip, framesOut⟩ rfl fs.toList
  rw [answer] at after
  rw [← total] at trims continued
  rw [trimmed_of_le within, trimmed_of_le (Nat.le_trans before within)] at continued
  refine ⟨⟨after, ?_, ?_, ?_, ?_⟩, out, given, continued⟩
  · rw [state]
    rfl
  · rw [count]
    rfl
  · exact trims.skip
  · rw [← List.length_drop, ← trimmed_of_le within]
    exact trims.framesOut

/-- A short rest and the chunk of silence behind it are answered as full chunks are. -/
theorem Handed.answers (handed : Handed r start chunks c)
    (regular : r.Regular start.channels start.resampler) {fs : List (Frame α)}
    (short : fs.length < chunkFrames) (width : ∀ f ∈ fs, f.size = start.channels) :
    ∃ head k tail k', r.process c.resampler (padded start.channels fs) = (some head, k) ∧
      r.process k (padded start.channels []) = (some tail, k') ∧ r.Reached start.resampler k ∧
      r.outputs start.resampler (chunks ++ feed start.channels fs) =
        r.outputs start.resampler chunks ++ head.toList ++ tail.toList := by
  have reached := handed.underway.reached
  have reached' := reached.processed (padded start.channels fs)
  have first := regular.answers _ reached _ (Resampler.full_padded short width)
  have second := regular.answers _ reached' _
    (Resampler.full_padded (show ([] : List (Frame α)).length < chunkFrames from Nat.zero_lt_succ _)
      (List.forall_mem_nil _))
  rcases head_eq : r.process c.resampler (padded start.channels fs) with ⟨_ | head, k⟩
  · rw [head_eq] at first
    cases first
  rw [head_eq] at reached' second
  rcases tail_eq : r.process k (padded start.channels []) with ⟨_ | tail, k'⟩
  · rw [tail_eq] at second
    cases second
  refine ⟨head, k, tail, k', rfl, tail_eq, reached', ?_⟩
  rw [Resampler.outputs_append, ← handed.resampler, feed_short short]
  simp [Resampler.outputs, head_eq, tail_eq]

omit [Sample α] in
/-- What makes no chunk is pushed out with the tail. -/
theorem digest_eq_of_short (pos : 0 < c.channels) (needed : r.needed c.resampler = chunkFrames)
    (fresh : c.flushed = false) (short : (framesOf c.channels stock).length < chunkFrames) :
    c.digest r stock = { c with pending := stock.toArray }.flush r := by
  have few : stock.length < chunkFrames * c.channels := by
    rw [length_framesOf] at short
    exact (Nat.div_lt_iff_lt_mul pos).mp short
  rw [digest]
  simp only [needed, if_neg (Nat.not_le_of_lt few), List.take_of_length_le (Nat.le_of_lt few), fresh,
    Bool.false_eq_true, if_false]

/-- The rest is answered as a chunk that is filled up, and so is no rest. -/
theorem rest_eq {k : κ} (regular : r.Regular start.channels start.resampler)
    (reached : r.Reached start.resampler k) (pos : 0 < start.channels)
    (whole : start.channels ∣ stock.length)
    (short : (framesOf start.channels stock).length < chunkFrames) :
    r.processPartial k
        (if stock.toArray.isEmpty then none else some (frames start.channels stock.toArray)) =
      r.process k (padded start.channels (framesOf start.channels stock)) := by
  by_cases empty : stock = []
  · subst empty
    have none_left : framesOf start.channels ([] : List α) = [] := by simp [framesOf, frames]
    rw [none_left]
    exact regular.none k reached
  · have some_left : 0 < (framesOf start.channels stock).length := by
      rw [length_framesOf]
      exact Nat.div_pos (Nat.le_of_dvd (List.length_pos_iff.mpr empty) whole) pos
    rw [if_neg (by simpa using empty)]
    exact regular.rest k reached _ some_left short fun f there => size_of_mem_framesOf there

/-- A flush leaves a converter at rest that asks for chunks of the same size. -/
theorem Underway.flush_rested (underway : Underway r start c)
    (regular : r.Regular start.channels start.resampler) (pending : Array α) :
    ∃ start', ({ c with pending }.flush r).2 = rested start' [] ∧
      start'.channels = start.channels ∧ r.needed start'.resampler = chunkFrames := by
  obtain ⟨last, reaches, flushed⟩ := flush_eq r { c with pending }
  rw [flushed]
  exact ⟨{ c with
    resampler := r.reset last, skip := r.delay (r.reset last), framesIn := 0, framesOut := 0 },
    rfl, underway.channels, regular.renewed _ (reaches _ underway.reached)⟩

/-- The rest and the tail are given out up to the length of all that was handed in. -/
theorem Handed.digest_last (handed : Handed r start chunks c) (pos : 0 < start.channels)
    (regular : r.Regular start.channels start.resampler) (whole : start.channels ∣ stock.length)
    (short : (framesOf start.channels stock).length < chunkFrames)
    (within : Within r start chunks) :
    (∃ start', (c.digest r stock).2 = rested start' [] ∧ start'.channels = start.channels ∧
      r.needed start'.resampler = chunkFrames) ∧
      ∃ out, (c.digest r stock).1 = interleave out.toArray ∧
        trimmed (r.delay start.resampler) (convertedLength start.input start.output
          (chunks.length * chunkFrames + (framesOf start.channels stock).length))
          (r.outputs start.resampler
            (chunks ++ feed start.channels (framesOf start.channels stock))) =
          (r.outputs start.resampler chunks).drop (r.delay start.resampler) ++ out := by
  have underway := handed.underway
  obtain ⟨head, k, tail, k', head_eq, tail_eq, reached, total⟩ :=
    handed.answers regular short fun f there => size_of_mem_framesOf there
  have first := (rest_eq regular underway.reached pos whole short).trans head_eq
  have second := (regular.none k reached).trans tail_eq
  -- More frames never amount to a lower limit, so nothing given out so far is past it.
  have room : (r.outputs start.resampler chunks).length ≤ r.delay start.resampler +
      convertedLength start.input start.output
        (chunks.length * chunkFrames + (framesOf start.channels stock).length) :=
    Nat.le_trans within (Nat.add_le_add_left (convertedLength_mono _ _ (Nat.le_add_right ..)) _)
  have up_to : convertedLength c.input c.output
      (c.framesIn + (frames c.channels stock.toArray).size) =
        convertedLength start.input start.output
          (chunks.length * chunkFrames + (framesOf start.channels stock).length) := by
    rw [underway.input, underway.output, underway.channels, handed.framesIn]
    rfl
  obtain ⟨skip, framesOut⟩ := handed.trims room
  rw [digest_eq_of_short (underway.channels ▸ pos) (regular.needed _ underway.reached)
    underway.flushed (underway.channels ▸ short)]
  refine ⟨underway.flush_rested regular _, ?_⟩
  rw [← underway.channels] at first
  obtain ⟨out, given, continued⟩ := Trims.flush (c := { c with pending := stock.toArray })
    ⟨skip, framesOut⟩ up_to first second
  rw [← total, trimmed_of_le room] at continued
  exact ⟨out, given, continued⟩

/-- A pull that takes the last samples and leaves the converter at rest is the last one, or the next
one is. -/
theorem rested_drains {read : Source σ α} {held : σ → List α} {s : σ} {out : Array α}
    (delivers : Delivers read start.channels held)
    (room : 0 < r.needed start.resampler * start.channels)
    (pulls : (c.pull r read s).1 = (out, start.rested [])) (dry : held (c.pull r read s).2 = []) :
    ∃ s', Drains r read held c s out (start.rested []) s' := by
  by_cases settles : held s = [] ∧ out = #[]
  · obtain ⟨none_left, rfl⟩ := settles
    exact ⟨_, .stop pulls none_left⟩
  · obtain ⟨s', settled⟩ := rested_settled (p := []) delivers (Nat.dvd_zero _) room dry
    have drains := Drains.step pulls settles settled
    rw [Array.append_empty] at drains
    exact ⟨s', drains⟩

/-- A conversion under way comes to its end, and has then given out all that the resampler gave,
less the delay and up to the length of all frames. -/
theorem Handed.drains {read : Source σ α} {held : σ → List α} (pos : 0 < start.channels)
    (regular : r.Regular start.channels start.resampler)
    (delivers : Delivers read start.channels held) (handed : Handed r start chunks c) (s : σ)
    (within : ∀ n, n * chunkFrames ≤ (framesOf start.channels (held s)).length →
      Within r start (chunks ++ (feed start.channels (framesOf start.channels (held s))).take n)) :
    ∃ out c' s', Drains r read held c s (interleave out.toArray) c' s' ∧
      trimmed (r.delay start.resampler) (convertedLength start.input start.output
        (chunks.length * chunkFrames + (framesOf start.channels (held s)).length))
        (r.outputs start.resampler
          (chunks ++ feed start.channels (framesOf start.channels (held s)))) =
        (r.outputs start.resampler chunks).drop (r.delay start.resampler) ++ out := by
  induction left : (held s).length using Nat.strongRecOn generalizing c s chunks with
  | ind n ih =>
    have underway := handed.underway
    obtain ⟨pulls, rest⟩ := underway.pull_eq delivers s
    rw [regular.needed _ underway.reached, underway.channels] at rest
    have within_none : Within r start chunks := by
      have none_taken := within 0 (by rw [Nat.zero_mul]; exact Nat.zero_le _)
      rwa [List.take_zero, List.append_nil] at none_taken
    rcases Nat.lt_or_ge (framesOf start.channels (held s)).length chunkFrames with short | full
    · -- the rest and the tail are pushed out
      obtain ⟨⟨start', state, width, needed⟩, out, given, continued⟩ :=
        handed.digest_last pos regular (delivers.whole s) short within_none
      rw [← pulls] at given state
      have dry : held (c.pull r read s).2 = [] := by
        rw [length_framesOf] at short
        rw [rest, List.drop_of_length_le (Nat.le_of_lt ((Nat.div_lt_iff_lt_mul pos).mp short))]
      have pulls' : (c.pull r read s).1 = (interleave out.toArray, start'.rested []) :=
        Prod.ext given state
      have room : 0 < r.needed start'.resampler * start'.channels := by
        rw [needed, width]
        exact Nat.mul_pos (by decide) pos
      obtain ⟨s', drains⟩ := rested_drains (width ▸ delivers) room pulls' dry
      exact ⟨out, _, s', drains, continued⟩
    · -- a chunk is taken
      have fed : feed start.channels (framesOf start.channels (held s)) = _ := feed_full full
      have within_one := within 1 (by rwa [Nat.one_mul])
      rw [fed, List.take_succ_cons, List.take_zero] at within_one
      obtain ⟨handed', out, given, continued⟩ :=
        handed.digest_full pos regular full rfl within_one
      rw [← pulls] at handed' given
      have left_frames : framesOf start.channels (held (c.pull r read s).2) =
          (framesOf start.channels (held s)).drop chunkFrames := by
        rw [rest, framesOf_drop]
      have enough : chunkFrames * start.channels ≤ (held s).length := by
        rw [length_framesOf] at full
        exact (Nat.le_div_iff_mul_le pos).mp full
      have some_taken : 0 < chunkFrames * start.channels := Nat.mul_pos (by decide) pos
      have less : (held (c.pull r read s).2).length < n := by
        rw [rest, List.length_drop]
        omega
      obtain ⟨later, c', s', drains, total⟩ := ih _ less handed' _ (fun n few => by
        rw [left_frames, List.append_assoc, List.singleton_append, ← List.take_succ_cons, ← fed]
        refine within (n + 1) ?_
        rw [left_frames, List.length_drop] at few
        rw [Nat.succ_mul]
        omega) rfl
      have wet : held s ≠ [] := List.ne_nil_of_length_pos (Nat.lt_of_lt_of_le some_taken enough)
      have count :
          (chunks ++ [((framesOf start.channels (held s)).take chunkFrames).toArray]).length *
            chunkFrames + ((framesOf start.channels (held s)).drop chunkFrames).length =
            chunks.length * chunkFrames + (framesOf start.channels (held s)).length := by
        rw [List.length_append, List.length_singleton, List.length_drop, Nat.succ_mul]
        omega
      rw [left_frames, count, continued, List.append_assoc chunks, List.singleton_append, ← fed,
        List.append_assoc] at total
      refine ⟨out ++ later, c', s', ?_, total⟩
      rw [interleave_append]
      exact .step (Prod.ext given rfl) (fun settles => wet settles.1) drains

omit [Sample α] in
theorem rates_of_new {input output channels : Nat}
    (created : Converter.new r input output channels = .ok start) :
    start.input = input ∧ start.output = output := by
  unfold Converter.new at created
  split at created
  · cases created
  · cases created
    exact ⟨rfl, rfl⟩

/-- The pulls from a new converter up to the end of a source give what the resampler gives for all
that the source holds, less the delay and cut to the length that its frames amount to. How the
source cuts what it delivers makes no difference. It is assumed that the resampler does not fail and
always asks for chunks of the same size, and that for the full chunks of this source it never gives
more than its delay and the length up to there. -/
theorem drains_length {input output channels : Nat}
    (created : Converter.new r input output channels = .ok start) (pos : 0 < channels)
    (regular : r.Regular channels start.resampler) {read : Source σ α} {held : σ → List α}
    (delivers : Delivers read channels held) (s : σ)
    (within : ∀ n, n * chunkFrames ≤ (framesOf channels (held s)).length →
      (r.outputs start.resampler ((feed channels (framesOf channels (held s))).take n)).length ≤
        r.delay start.resampler + convertedLength input output (n * chunkFrames)) :
    (∃ c s', Drains r read held start s (interleave (r.conversion start.resampler input output
      channels (framesOf channels (held s))).toArray) c s') ∧
    ∀ out c s', Drains r read held start s out c s' →
      out = interleave (r.conversion start.resampler input output channels
        (framesOf channels (held s))).toArray := by
  obtain ⟨rfl, rfl⟩ := rates_of_new created
  obtain ⟨fresh, rfl⟩ := Fresh.of_new created
  have within' : ∀ n, n * chunkFrames ≤ (framesOf start.channels (held s)).length →
      Within r start ([] ++ (feed start.channels (framesOf start.channels (held s))).take n) := by
    intro n few
    rw [List.nil_append, Within, length_take_feed _ few]
    exact within n few
  obtain ⟨out, c, s', drains, total⟩ := fresh.handed.drains pos regular delivers s within'
  rw [List.length_nil, Nat.zero_mul, Nat.zero_add, List.nil_append, Resampler.outputs,
    List.drop_nil, List.nil_append] at total
  rw [← total] at drains
  exact ⟨⟨c, s', drains⟩, fun out' c' s'' again => (drains.unique again).1⟩

end Converter

/-- A resampler of one channel to twice the rate that has heard nothing but silence. It gives less
for its first chunk, as its filter reaches ahead. -/
def hushedDoubler : Resampler Bool Float32 :=
  let answer (started : Bool) : Option (Array (Frame Float32)) × Bool :=
    (some (Array.replicate (if started then 2048 else 1788) #[Sample.silence]), true)
  { create := fun input output channels =>
      if input = 22050 ∧ output = 44100 ∧ channels = 1 then .ok false else .error "Not at hand"
    needed := fun _ => chunkFrames
    process := fun started _ => answer started
    processPartial := fun started _ => answer started
    reset := fun _ => false
    delay := fun _ => 256 }

theorem hushedDoubler_regular (start : Bool) : hushedDoubler.Regular 1 start where
  needed _ _ := rfl
  renewed _ _ := rfl
  answers _ _ _ _ := rfl
  rest _ _ _ _ _ _ := rfl
  none _ _ := rfl

/-- All chunks but the first are doubled. -/
theorem length_hushedDoubler (chunk : Array (Frame Float32))
    (rest : List (Array (Frame Float32))) :
    (hushedDoubler.outputs false (chunk :: rest)).length = 1788 + rest.length * 2048 := by
  have started : ∀ chunks : List (Array (Frame Float32)),
      (hushedDoubler.outputs true chunks).length = chunks.length * 2048 := by
    intro chunks
    induction chunks with
    | nil => rfl
    | cons chunk rest ih =>
      have answer : hushedDoubler.outputs true (chunk :: rest) =
          (Array.replicate 2048 #[Sample.silence]).toList ++ hushedDoubler.outputs true rest := rfl
      rw [answer, List.length_append, Array.length_toList, Array.size_replicate, ih,
        List.length_cons, Nat.succ_mul, Nat.add_comm]
  have answer : hushedDoubler.outputs false (chunk :: rest) =
      (Array.replicate 1788 #[Sample.silence]).toList ++ hushedDoubler.outputs true rest := rfl
  rw [answer, List.length_append, Array.length_toList, Array.size_replicate, started]

namespace Converter

/-- Three thousand frames of silence come to six thousand. What the resampler gives beyond that, for
the silence behind them, is cut. -/
theorem hushedDoubler_drains_length :
    ∃ start, ∃ out : List (Frame Float32), ∃ c s,
      Converter.new hushedDoubler 22050 44100 1 = .ok start ∧
      Drains hushedDoubler (quiet Float32 1) (hush Float32 1) start 3000
        (interleave out.toArray) c s ∧
      out.length = 6000 := by
  have frames_eq : (framesOf 1 (hush Float32 1 3000)).length = 3000 := by simp
  obtain ⟨start, created⟩ : ∃ start, Converter.new hushedDoubler 22050 44100 1 = .ok start :=
    ⟨_, rfl⟩
  have first : start.resampler = false := by
    cases created
    rfl
  have within : ∀ n, n * chunkFrames ≤ (framesOf 1 (hush Float32 1 3000)).length →
      (hushedDoubler.outputs start.resampler
        ((feed 1 (framesOf 1 (hush Float32 1 3000))).take n)).length ≤
        hushedDoubler.delay start.resampler + convertedLength 22050 44100 (n * chunkFrames) := by
    intro n few
    have count := length_take_feed 1 few
    rw [frames_eq] at few
    have upto : n < 3 := by
      unfold chunkFrames at few
      omega
    have amounts : ∀ n < 3, convertedLength 22050 44100 (n * chunkFrames) = n * 2048 := by
      decide +kernel
    rw [amounts n upto, first]
    rcases chunks : (feed 1 (framesOf 1 (hush Float32 1 3000))).take n with _ | ⟨chunk, rest⟩
    · exact Nat.zero_le _
    · rw [chunks, List.length_cons] at count
      rw [length_hushedDoubler]
      omega
  obtain ⟨⟨c, s, drains⟩, _⟩ := drains_length created Nat.one_pos (hushedDoubler_regular _)
    (quiet_delivers Float32 Nat.one_pos) 3000 within
  refine ⟨start, _, c, s, created, drains, ?_⟩
  have whole : convertedLength 22050 44100 3000 = 6000 := by decide +kernel
  have chunks := length_feed 1 (framesOf 1 (hush Float32 1 3000))
  rw [frames_eq] at chunks
  rw [Resampler.conversion, frames_eq, whole, List.length_take, List.length_drop, first]
  rcases fed : feed 1 (framesOf 1 (hush Float32 1 3000)) with _ | ⟨chunk, rest⟩
  · rw [fed] at chunks
    cases chunks
  · rw [fed, List.length_cons] at chunks
    rw [length_hushedDoubler]
    have delay : hushedDoubler.delay false = 256 := rfl
    have tail : rest.length = 3 := by
      unfold chunkFrames at chunks
      omega
    omega

end Converter

end Jukebox.Audio
