import Jukebox.Proofs.Audio.Restarting
/-!
# Conversion with every access checked

A `RowResampler` takes and gives one row of samples for each channel, as resamplers do that are
handed audio by channels; `RowResampler.framed` is the resampler that it makes.

The definitions whose names end in a question mark are those of the converter, written out with
every step that is not defined for all numbers: a slice that may run off an array, a difference that
may be negative, a division, an index into a row, and a loop that may go on for ever. Where such a
step is not defined there is no result. A converter that is `Sound` always has one, it is the one of
the converter, and the converter is sound afterwards.
-/
namespace Jukebox.Audio

variable {σ κ α : Type}

section Partial

/-- A part of an array that has to lie within. -/
def slice? (xs : Array α) (start stop : Nat) : Option (Array α) :=
  if start ≤ stop ∧ stop ≤ xs.size then some (xs.extract start stop) else none

/-- A difference that must not be negative. -/
def sub? (n m : Nat) : Option Nat :=
  if m ≤ n then some (n - m) else none

def div? (n d : Nat) : Option Nat :=
  if d = 0 then none else some (n / d)

def mod? (n d : Nat) : Option Nat :=
  if d = 0 then none else some (n % d)

/-- The largest part of a count of samples that is made of whole frames. -/
def wholeFrames? (channels count : Nat) : Option Nat := do
  let rest ← mod? count channels
  sub? count rest

theorem slice?_eq {xs : Array α} {start stop : Nat} (order : start ≤ stop) (room : stop ≤ xs.size) :
    slice? xs start stop = some (xs.extract start stop) :=
  if_pos ⟨order, room⟩

theorem sub?_eq {n m : Nat} (less : m ≤ n) : sub? n m = some (n - m) :=
  if_pos less

theorem div?_eq (n : Nat) {d : Nat} (pos : 0 < d) : div? n d = some (n / d) :=
  if_neg (Nat.ne_of_gt pos)

theorem mod?_eq (n : Nat) {d : Nat} (pos : 0 < d) : mod? n d = some (n % d) :=
  if_neg (Nat.ne_of_gt pos)

theorem wholeFrames?_eq {channels : Nat} (pos : 0 < channels) (count : Nat) :
    wholeFrames? channels count = some (wholeFrames channels count) := by
  rw [wholeFrames?, mod?_eq count pos, Option.bind_eq_bind, Option.bind_some,
    sub?_eq (Nat.mod_le count channels), wholeFrames]

theorem getElem?_eq_some_getD {xs : Array α} {i : Nat} (inside : i < xs.size) (x : α) :
    xs[i]? = some (xs.getD i x) := by
  rw [Array.getD_eq_getD_getElem?, Array.getElem?_eq_getElem inside, Option.getD_some]

/-- A step that is defined for each element is defined for all of them. -/
theorem mapM_eq_some {β : Type} {f : α → Option β} {g : α → β} {xs : Array α}
    (each : ∀ x ∈ xs, f x = some (g x)) : xs.mapM f = some (xs.map g) := by
  have list : ∀ l : List α, (∀ x ∈ l, f x = some (g x)) → l.mapM f = some (l.map g) := by
    intro l each
    induction l with
    | nil => rfl
    | cons x rest ih =>
      rw [List.mapM_cons, each x List.mem_cons_self,
        ih fun y later => each y (List.mem_cons_of_mem x later)]
      rfl
  rw [Array.mapM_eq_mapM_toList,
    list xs.toList fun x there => each x (Array.mem_toList_iff.mp there), ← Array.toList_map]
  rfl

end Partial

structure RowResampler (κ α : Type) where
  create : (input output channels : Nat) → Except String κ
  needed : κ → Nat
  process : κ → Array (Array α) → Option (Array (Array α)) × κ
  processPartial : κ → Option (Array (Array α)) → Option (Array (Array α)) × κ
  reset : κ → κ
  delay : κ → Nat

section Rows

variable [Sample α]

def across (rows : Array (Array α)) (i : Nat) : Array α :=
  rows.map (·.getD i Sample.silence)

/-- At a place that every row has, each of them is accessed within its bounds. -/
theorem mapM_getElem? {rows : Array (Array α)} {i : Nat} (inside : ∀ row ∈ rows, i < row.size) :
    rows.mapM (·[i]?) = some (across rows i) :=
  mapM_eq_some fun row there => getElem?_eq_some_getD (inside row there) _

def height (rows : Array (Array α)) : Nat :=
  (rows[0]?).elim 0 Array.size

def columns (rows : Array (Array α)) : Array (Frame α) :=
  (Array.range (height rows)).map (across rows)

/-- The rows of some frames, one for each channel. -/
def rowsOf (channels : Nat) (fs : Array (Frame α)) : Array (Array α) :=
  (Array.range channels).map (across fs)

/-- A resampler by rows that is handed frames. It keeps the number of channels. -/
def RowResampler.framed (q : RowResampler κ α) : Resampler (κ × Nat) α where
  create input output channels := (q.create input output channels).map (·, channels)
  needed k := q.needed k.1
  process k fs :=
    let (answer, k') := q.process k.1 (rowsOf k.2 fs)
    (answer.map columns, (k', k.2))
  processPartial k fs :=
    let (answer, k') := q.processPartial k.1 (fs.map (rowsOf k.2))
    (answer.map columns, (k', k.2))
  reset k := (q.reset k.1, k.2)
  delay k := q.delay k.1

theorem RowResampler.framed_create (q : RowResampler κ α) (input output channels : Nat) :
    q.framed.create input output channels =
      (q.create input output channels).map (·, channels) :=
  rfl

theorem RowResampler.framed_process (q : RowResampler κ α) (k : κ × Nat) (fs : Array (Frame α)) :
    q.framed.process k fs =
      ((q.process k.1 (rowsOf k.2 fs)).1.map columns, ((q.process k.1 (rowsOf k.2 fs)).2, k.2)) :=
  rfl

theorem RowResampler.framed_processPartial (q : RowResampler κ α) (k : κ × Nat)
    (fs : Option (Array (Frame α))) :
    q.framed.processPartial k fs =
      ((q.processPartial k.1 (fs.map (rowsOf k.2))).1.map columns,
        ((q.processPartial k.1 (fs.map (rowsOf k.2))).2, k.2)) :=
  rfl

end Rows

structure EvenRows (channels : Nat) (rows : Array (Array α)) : Prop where
  count : rows.size = channels
  length : ∀ row ∈ rows, row.size = height rows

namespace RowResampler

inductive Reached (q : RowResampler κ α) (channels : Nat) : κ → Prop
  | created {input output : Nat} {k : κ} (made : q.create input output channels = .ok k) :
      Reached q channels k
  | processed {k : κ} (rows : Array (Array α)) (before : Reached q channels k) :
      Reached q channels (q.process k rows).2
  | finished {k : κ} (rows : Option (Array (Array α))) (before : Reached q channels k) :
      Reached q channels (q.processPartial k rows).2
  | reset {k : κ} (before : Reached q channels k) : Reached q channels (q.reset k)

/-- What is asked of a resampler: it gives one row for each channel, all of one length, and wants
some frames at once. Nothing is said of how long the rows are, how many frames it wants or whether
it fails. -/
structure Even (q : RowResampler κ α) : Prop where
  needed {channels : Nat} {k : κ} : q.Reached channels k → 0 < q.needed k
  process {channels : Nat} {k : κ} {rows answer : Array (Array α)} : q.Reached channels k →
    (q.process k rows).1 = some answer → EvenRows channels answer
  processPartial {channels : Nat} {k : κ} {rows : Option (Array (Array α))}
    {answer : Array (Array α)} : q.Reached channels k →
    (q.processPartial k rows).1 = some answer → EvenRows channels answer

end RowResampler

theorem dvd_size_interleave {channels : Nat} {fs : List (Frame α)}
    (wide : ∀ f ∈ fs, f.size = channels) : channels ∣ (interleave fs.toArray).size := by
  induction fs with
  | nil => exact Nat.dvd_zero _
  | cons f rest ih =>
    have first := interleave_append [f] rest
    rw [List.singleton_append] at first
    rw [first, Array.size_append]
    refine Nat.dvd_add ?_ (ih fun g later => wide g (List.mem_cons_of_mem f later))
    simp [interleave, wide f List.mem_cons_self]

namespace Converter

theorem dvd_size_emit {channels : Nat} (c : Converter κ α) {fs : Array (Frame α)}
    (wide : ∀ f ∈ fs, f.size = channels) : channels ∣ (c.emit fs).1.size := by
  have kept : ∀ f ∈ (fs.extract c.skip (c.skip +
      (convertedLength c.input c.output c.framesIn - c.framesOut))).toList, f.size = channels := by
    intro f there
    rw [Array.toList_extract, List.extract_eq_take_drop] at there
    exact wide f (Array.mem_toList_iff.mp (List.mem_of_mem_drop (List.mem_of_mem_take there)))
  exact dvd_size_interleave kept

section Filling

variable [Sample α] (read : Source σ α)

/-- Reads until a chunk is full or the source gives no whole frame, a number of times at most. -/
def fill? (channels needed rounds : Nat) (pending : Array α) (s : σ) : Option (Array α × σ) :=
  if pending.size < needed then
    match rounds with
    | 0 => none
    | rounds + 1 => do
      let room ← sub? needed pending.size
      let handed ← slice? (pending ++ Array.replicate room Sample.silence) pending.size needed
      let (a, s) := read handed.size s
      let whole ← wholeFrames? channels (min a.count room)
      let pending := (pending ++ a.buffer handed.size).extract 0 (pending.size + whole)
      if whole = 0 then return (pending, s)
      fill? channels needed rounds pending s
  else some (pending, s)

variable {channels needed : Nat} {pending : Array α} {s : σ}

/-- One round of the loop: what is handed over is what is missing. -/
theorem fill?_succ (pos : 0 < channels) (rounds : Nat) (missing : pending.size < needed) :
    fill? read channels needed (rounds + 1) pending s =
      let a := (read (needed - pending.size) s).1
      let s := (read (needed - pending.size) s).2
      let got := a.taken (needed - pending.size) channels
      if got.size = 0 then some (pending, s)
      else fill? read channels needed rounds (pending ++ got) s := by
  have handed : ((pending ++ Array.replicate (needed - pending.size) Sample.silence).extract
      pending.size needed).size = needed - pending.size := by
    simp only [Array.size_extract, Array.size_append, Array.size_replicate]
    omega
  have room : needed ≤
      (pending ++ Array.replicate (needed - pending.size) (Sample.silence : α)).size := by
    simp only [Array.size_append, Array.size_replicate]
    omega
  rw [fill?.eq_def, if_pos missing]
  simp only [sub?_eq (Nat.le_of_lt missing), slice?_eq (Nat.le_of_lt missing) room, handed,
    wholeFrames?_eq pos, Option.bind_eq_bind, Option.bind_some]
  generalize read (needed - pending.size) s = answer
  obtain ⟨a, s⟩ := answer
  have truncated : (pending ++ a.buffer (needed - pending.size)).extract 0
      (pending.size + wholeFrames channels (min a.count (needed - pending.size))) =
        pending ++ a.taken (needed - pending.size) channels := by
    rw [Array.extract_append, Nat.zero_sub, Nat.add_sub_cancel_left, Reading.taken,
      Array.extract_eq_self_of_le (Nat.le_add_right _ _)]
  rw [truncated, a.size_taken]
  by_cases dry : wholeFrames channels (min a.count (needed - pending.size)) = 0
  · have nothing : a.taken (needed - pending.size) channels = #[] :=
      Array.size_eq_zero_iff.mp ((a.size_taken _ _).trans dry)
    rw [if_pos dry, if_pos dry, nothing, Array.append_empty]
    rfl
  · rw [if_neg dry, if_neg dry]

/-- Each round brings a frame at least, so the loop ends in time. -/
theorem fill?_eq (pos : 0 < channels) {rounds : Nat}
    (enough : needed ≤ pending.size + rounds * channels) :
    fill? read channels needed rounds pending s = some (fill read channels needed pending s) := by
  induction rounds generalizing pending s with
  | zero =>
    have full : ¬pending.size < needed := by omega
    rw [fill?.eq_def, fill, if_neg full, dif_neg full]
  | succ rounds ih =>
    by_cases missing : pending.size < needed
    · rw [fill?_succ read pos rounds missing, fill, dif_pos missing]
      generalize read (needed - pending.size) s = answer
      obtain ⟨a, s⟩ := answer
      by_cases dry : (a.taken (needed - pending.size) channels).size = 0
      · simp only [if_pos dry, dif_pos dry]
      · have frame : channels ≤ (a.taken (needed - pending.size) channels).size :=
          Nat.le_of_dvd (Nat.pos_of_ne_zero dry) (a.dvd_size_taken _ _)
        rw [Nat.succ_mul] at enough
        simp only [if_neg dry, dif_neg dry]
        refine ih ?_
        rw [Array.size_append]
        omega
    · rw [fill?.eq_def, fill, if_neg missing, dif_neg missing]

theorem dvd_size_fill (whole : channels ∣ pending.size) :
    channels ∣ (fill read channels needed pending s).1.size := by
  fun_induction fill read channels needed pending s with
  | case1 => exact whole
  | case2 pending s missing a s' reading got more ih =>
    refine ih ?_
    rw [Array.size_append]
    exact Nat.dvd_add whole (a.dvd_size_taken _ _)
  | case3 => exact whole

theorem size_fill_le (room : pending.size ≤ needed) :
    (fill read channels needed pending s).1.size ≤ needed := by
  fun_induction fill read channels needed pending s with
  | case1 => exact room
  | case2 pending s missing a s' reading got more ih =>
    refine ih ?_
    have few : got.size ≤ needed - pending.size := a.size_taken_le _ channels
    rw [Array.size_append]
    omega
  | case3 => exact room

end Filling

section Emitting

variable [Sample α]

/-- Gives out the frames of some rows at some places, less those to drop and those past the
length. -/
def emitAt? (rows : Array (Array α)) (limit : Nat) :
    List Nat → Array α → Converter κ α → Option (Array α × Converter κ α)
  | [], out, c => some (out, c)
  | i :: later, out, c =>
    if 0 < c.skip then emitAt? rows limit later out { c with skip := c.skip - 1 }
    else if limit ≤ c.framesOut then some (out, c)
    else do
      let frame ← rows.mapM (·[i]?)
      emitAt? rows limit later (out ++ frame) { c with framesOut := c.framesOut + 1 }

/-- Gives out the frames of the resampler, less those to drop and those past the length. -/
def emit? (c : Converter κ α) (rows : Array (Array α)) : Option (Array α × Converter κ α) :=
  emitAt? rows (convertedLength c.input c.output c.framesIn) (List.range (height rows)) #[] c

def emitAnswer? (c : Converter (κ × Nat) α) (answer : Option (Array (Array α)) × κ) :
    Option (Array α × Converter (κ × Nat) α) :=
  let c := { c with resampler := (answer.2, c.resampler.2) }
  match answer.1 with
  | some rows => c.emit? rows
  | none => some (#[], c)

variable {rows : Array (Array α)} {c : Converter κ α}

/-- Among places that every row has, the loop gives out what is left of their frames. -/
theorem emitAt?_eq (limit : Nat) {places : List Nat} (out : Array α)
    (inside : ∀ i ∈ places, ∀ row ∈ rows, i < row.size) :
    emitAt? rows limit places out c =
      some (out ++ interleave (((places.map (across rows)).drop c.skip).take
          (limit - c.framesOut)).toArray,
        { c with
          skip := c.skip - places.length
          framesOut := c.framesOut + (((places.map (across rows)).drop c.skip).take
            (limit - c.framesOut)).length }) := by
  induction places generalizing out c with
  | nil => simp [emitAt?, interleave]
  | cons i later ih =>
    have inside' : ∀ j ∈ later, ∀ row ∈ rows, j < row.size := fun j there =>
      inside j (List.mem_cons_of_mem i there)
    obtain ⟨k, input, output, channels, pending, skip, framesIn, framesOut, flushed⟩ := c
    cases skip with
    | succ skip =>
      -- a frame of the delay
      rw [emitAt?, if_pos (Nat.succ_pos skip), ih _ inside']
      simp
    | zero =>
      by_cases late : limit ≤ framesOut
      · -- the length is reached
        rw [emitAt?, if_neg (Nat.lt_irrefl 0), if_pos late, Nat.sub_eq_zero_of_le late]
        simp [interleave]
      · have frame := mapM_getElem? (inside i List.mem_cons_self)
        have room : limit - framesOut = (limit - (framesOut + 1)) + 1 := by omega
        have alone : interleave [across rows i].toArray = across rows i := by simp [interleave]
        have first := interleave_append [across rows i]
          ((later.map (across rows)).take (limit - (framesOut + 1)))
        rw [alone, List.singleton_append] at first
        rw [emitAt?, if_neg (Nat.lt_irrefl 0), if_neg late, frame, Option.bind_eq_bind,
          Option.bind_some, ih _ inside', room]
        simp only [List.drop_zero, List.map_cons, List.take_succ_cons, List.length_cons, first,
          Array.append_assoc, Nat.zero_sub, Nat.add_assoc, Nat.add_comm 1]

/-- Every row has the places of the first one, so what is given out are frames of the resampler. -/
theorem emit?_eq {channels : Nat} (c : Converter κ α) (even : EvenRows channels rows) :
    c.emit? rows = some (c.emit (columns rows)) := by
  have inside : ∀ i ∈ List.range (height rows), ∀ row ∈ rows, i < row.size := by
    intro i there row member
    rw [even.length row member]
    exact List.mem_range.mp there
  have kept : ∀ skip n, (((List.range (height rows)).map (across rows)).drop skip).take n =
      ((columns rows).extract skip (skip + n)).toList := by
    intro skip n
    rw [columns, Array.toList_extract, Array.toList_map, Array.toList_range,
      List.extract_eq_take_drop, Nat.add_sub_cancel_left]
  have count : (columns rows).size = (List.range (height rows)).length := by simp [columns]
  rw [emit?, emitAt?_eq _ #[] inside, ← count, kept, Array.toArray_toList, Array.empty_append,
    Array.length_toList, emit]

theorem emitAnswer?_eq {channels : Nat} (c : Converter (κ × Nat) α)
    {answer : Option (Array (Array α)) × κ}
    (even : ∀ rows, answer.1 = some rows → EvenRows channels rows) :
    c.emitAnswer? answer =
      some (c.emitAnswer (answer.1.map columns, (answer.2, c.resampler.2))) := by
  obtain ⟨answered | rows, k⟩ := answer
  · rfl
  · exact emit?_eq _ (even rows rfl)

theorem size_of_mem_columns {channels : Nat} (even : EvenRows channels rows) {f : Frame α}
    (there : f ∈ columns rows) : f.size = channels := by
  obtain ⟨i, _, rfl⟩ := Array.mem_map.mp there
  rw [across, Array.size_map, even.count]

theorem dvd_size_emitAnswer {channels : Nat} (c : Converter κ α)
    {answer : Option (Array (Array α))} (k : κ)
    (even : ∀ rows, answer = some rows → EvenRows channels rows) :
    channels ∣ (c.emitAnswer (answer.map columns, k)).1.size := by
  cases answer with
  | none => exact Nat.dvd_zero _
  | some rows => exact dvd_size_emit _ fun f there => size_of_mem_columns (even rows rfl) there

end Emitting

/-- Whole frames wait, fewer than a chunk has. -/
def Waits (q : RowResampler κ α) (c : Converter (κ × Nat) α) : Prop :=
  c.channels ∣ c.pending.size ∧ c.pending.size < q.needed c.resampler.1 * c.channels

instance (q : RowResampler κ α) (c : Converter (κ × Nat) α) : Decidable (c.Waits q) :=
  inferInstanceAs (Decidable (_ ∧ _))

structure Fitted (q : RowResampler κ α) (c : Converter (κ × Nat) α) : Prop where
  channels : 0 < c.channels
  width : c.resampler.2 = c.channels
  reached : q.Reached c.channels c.resampler.1

structure Sound (q : RowResampler κ α) (c : Converter (κ × Nat) α) : Prop extends c.Fitted q where
  waits : c.Waits q

/-- A resampler that gave an answer is still one for the channels of the converter. -/
theorem Fitted.emitAnswer {q : RowResampler κ α} {c : Converter (κ × Nat) α} (fitted : c.Fitted q)
    {k : κ} (reached : q.Reached c.channels k) (answer : Option (Array (Frame α))) :
    (c.emitAnswer (answer, (k, c.resampler.2))).2.Fitted q := by
  refine ⟨?_, ?_, ?_⟩
  · rw [emitAnswer_channels]
    exact fitted.channels
  · rw [emitAnswer_channels, emitAnswer_resampler]
    exact fitted.width
  · rw [emitAnswer_channels, emitAnswer_resampler]
    exact reached

/-- With nothing pending, fewer samples wait than a chunk has, since a chunk is not empty. -/
theorem Fitted.sound {q : RowResampler κ α} {c : Converter (κ × Nat) α} (fitted : c.Fitted q)
    (even : q.Even) (none_pending : c.pending = #[]) : c.Sound q := by
  refine ⟨fitted, ?_, ?_⟩
  · rw [none_pending]
    exact Nat.dvd_zero _
  · rw [none_pending]
    exact Nat.mul_pos (even.needed fitted.reached) fitted.channels

section Pulling

variable [Sample α] (q : RowResampler κ α)

/-- Samples of whole frames as one row for each channel. -/
def deinterleave? (samples : Array α) (channels : Nat) : Option (Array (Array α)) := do
  let _count ← div? samples.size channels
  return rowsOf channels (frames channels samples)

def convertChunk? (c : Converter (κ × Nat) α) (needed : Nat) :
    Option (Array α × Converter (κ × Nat) α) := do
  let chunk ← slice? c.pending 0 needed
  let rows ← deinterleave? chunk c.channels
  let pending ← slice? c.pending needed c.pending.size
  let count ← div? needed c.channels
  let c := { c with pending, framesIn := c.framesIn + count, flushed := false }
  c.emitAnswer? (q.process c.resampler.1 rows)

/-- What waits as rows, if anything does, and the number of its frames. -/
def rest? (c : Converter (κ × Nat) α) : Option (Option (Array (Array α)) × Nat) :=
  if c.pending.isEmpty then some (none, 0)
  else do
    let rows ← deinterleave? c.pending c.channels
    let count ← div? c.pending.size c.channels
    return (some rows, count)

/-- Pushes the rest and the tail out of the resampler and starts afresh. -/
def flush? (c : Converter (κ × Nat) α) : Option (Array α × Converter (κ × Nat) α) := do
  let (handed, count) ← c.rest?
  let c := { c with pending := #[], framesIn := c.framesIn + count }
  let (head, c) ← c.emitAnswer? (q.processPartial c.resampler.1 handed)
  let (tail, c) ← c.emitAnswer? (q.processPartial c.resampler.1 none)
  let k := q.reset c.resampler.1
  return (head ++ tail,
    { c with
      resampler := (k, c.resampler.2), skip := q.delay k, framesIn := 0, framesOut := 0,
      flushed := true })

/-- Gives out the next converted samples. Afterwards whole frames wait, fewer than a chunk has. -/
def pull? (read : Source σ α) (c : Converter (κ × Nat) α) (s : σ) :
    Option ((Array α × Converter (κ × Nat) α) × σ) := do
  let needed := q.needed c.resampler.1 * c.channels
  let (pending, s) ← fill? read c.channels needed (q.needed c.resampler.1) c.pending s
  let c := { c with pending }
  let (got, c) ←
    if needed ≤ pending.size then c.convertChunk? q needed
    else if c.flushed then some (#[], c)
    else c.flush? q
  if c.Waits q then return ((got, c), s) else none

variable {q} {c : Converter (κ × Nat) α}

theorem deinterleave?_eq {samples : Array α} {channels : Nat} (pos : 0 < channels) :
    deinterleave? samples channels = some (rowsOf channels (frames channels samples)) := by
  rw [deinterleave?, div?_eq _ pos]
  rfl

/-- An answer of the resampler is given out in whole frames. -/
theorem Fitted.emitAnswer? (fitted : c.Fitted q) {answer : Option (Array (Array α)) × κ}
    (even : ∀ rows, answer.1 = some rows → EvenRows c.channels rows)
    (reached : q.Reached c.channels answer.2) :
    ∃ got c', c.emitAnswer? answer = some (got, c') ∧
      c.emitAnswer (answer.1.map columns, (answer.2, c.resampler.2)) = (got, c') ∧
      c'.Fitted q ∧ c'.channels = c.channels ∧ c'.pending = c.pending ∧
      c.channels ∣ got.size := by
  exact ⟨_, _, emitAnswer?_eq c even, rfl, fitted.emitAnswer reached _, emitAnswer_channels ..,
    emitAnswer_pending .., dvd_size_emitAnswer c _ even⟩

/-- A full chunk lies within what waits. -/
theorem Fitted.convertChunk? (fitted : c.Fitted q) (even : q.Even) {needed : Nat}
    (full : needed ≤ c.pending.size) :
    ∃ got c', c.convertChunk? q needed = some (got, c') ∧
      c.convertChunk q.framed needed = (got, c') ∧ c'.Fitted q ∧ c'.channels = c.channels ∧
      c'.pending = c.pending.extract needed c.pending.size ∧ c.channels ∣ got.size := by
  simp only [Converter.convertChunk?, slice?_eq (Nat.zero_le _) full,
    slice?_eq full (Nat.le_refl _), deinterleave?_eq fitted.channels, div?_eq _ fitted.channels,
    Option.bind_eq_bind, Option.bind_some]
  have fitted' : Fitted q { c with
      pending := c.pending.extract needed c.pending.size
      framesIn := c.framesIn + needed / c.channels
      flushed := false } := ⟨fitted.channels, fitted.width, fitted.reached⟩
  obtain ⟨got, c', checked, given, after⟩ := fitted'.emitAnswer?
    (fun rows => even.process fitted.reached) (fitted.reached.processed _)
  refine ⟨got, c', checked, ?_, after⟩
  rw [← given, Converter.convertChunk, RowResampler.framed_process, fitted.width]

theorem rest?_eq (pos : 0 < c.channels) :
    c.rest? = some
      ((if c.pending.isEmpty then none else some (frames c.channels c.pending)).map
          (rowsOf c.channels), (frames c.channels c.pending).size) := by
  by_cases empty : c.pending.isEmpty = true
  · have nothing : c.pending.size = 0 := by simpa using empty
    rw [rest?, if_pos empty, if_pos empty, frames_empty _ nothing]
    rfl
  · have count : (frames c.channels c.pending).size = c.pending.size / c.channels := by
      simp [frames]
    rw [rest?, if_neg empty, if_neg empty, deinterleave?_eq pos, div?_eq _ pos, count]
    rfl

/-- Nothing waits after the tail is out. -/
theorem Fitted.flush? (fitted : c.Fitted q) (even : q.Even) :
    ∃ got c', c.flush? q = some (got, c') ∧ c.flush q.framed = (got, c') ∧ c'.Fitted q ∧
      c'.channels = c.channels ∧ c'.pending = #[] ∧ c.channels ∣ got.size := by
  have started : Fitted q { c with
      pending := #[], framesIn := c.framesIn + (frames c.channels c.pending).size } :=
    ⟨fitted.channels, fitted.width, fitted.reached⟩
  obtain ⟨head, c₁, checked, given, fitted₁, width₁, empty₁, whole₁⟩ := started.emitAnswer?
    (fun rows => even.processPartial fitted.reached) (fitted.reached.finished
      ((if c.pending.isEmpty then none else some (frames c.channels c.pending)).map
        (rowsOf c.channels)))
  obtain ⟨tail, c₂, checked₂, given₂, fitted₂, width₂, empty₂, whole₂⟩ := fitted₁.emitAnswer?
    (fun rows => even.processPartial fitted₁.reached) (fitted₁.reached.finished none)
  refine ⟨head ++ tail, { c₂ with
    resampler := (q.reset c₂.resampler.1, c₂.resampler.2)
    skip := q.delay (q.reset c₂.resampler.1)
    framesIn := 0
    framesOut := 0
    flushed := true }, ?_, ?_, ⟨fitted₂.channels, fitted₂.width, fitted₂.reached.reset⟩,
    width₂.trans width₁, empty₂.trans empty₁, ?_⟩
  · simp only [Converter.flush?, rest?_eq fitted.channels, Option.bind_eq_bind, Option.bind_some,
      checked, checked₂]
    rfl
  · have first := RowResampler.framed_processPartial q c.resampler
      (if c.pending.isEmpty then none else some (frames c.channels c.pending))
    have second := RowResampler.framed_processPartial q c₁.resampler none
    rw [fitted.width] at first
    simp only [Converter.flush, first, fitted.width ▸ given, second, Option.map_none, given₂]
    rfl
  · rw [Array.size_append]
    exact Nat.dvd_add whole₁ (width₁ ▸ whole₂)

/-- A pull is defined at every step, whatever the source does, and leaves less than a chunk. -/
theorem Sound.pull? (sound : c.Sound q) (even : q.Even) (read : Source σ α) (s : σ) :
    ∃ got c' s', c.pull? q read s = some ((got, c'), s') ∧
      c.pull q.framed read s = ((got, c'), s') ∧ c'.Sound q ∧ c'.channels = c.channels ∧
      c.channels ∣ got.size := by
  have loop := fill?_eq read (s := s) sound.channels
    (Nat.le_add_left (q.needed c.resampler.1 * c.channels) c.pending.size)
  have whole : c.channels ∣ (fill read c.channels (q.needed c.resampler.1 * c.channels)
    c.pending s).1.size := dvd_size_fill read sound.waits.1
  have room : (fill read c.channels (q.needed c.resampler.1 * c.channels)
    c.pending s).1.size ≤ q.needed c.resampler.1 * c.channels :=
      size_fill_le read (Nat.le_of_lt sound.waits.2)
  have same : q.framed.needed c.resampler = q.needed c.resampler.1 := rfl
  simp only [Converter.pull?, Converter.pull, same, loop, Option.bind_eq_bind, Option.bind_some]
  generalize fill read c.channels (q.needed c.resampler.1 * c.channels) c.pending s = filled
    at whole room
  obtain ⟨pending, s'⟩ := filled
  have filled : Fitted q { c with pending } := ⟨sound.channels, sound.width, sound.reached⟩
  by_cases full : q.needed c.resampler.1 * c.channels ≤ pending.size
  · obtain ⟨got, c', checked, given, fitted, width, left, frames⟩ :=
      filled.convertChunk? even full
    have nothing : c'.pending = #[] := by
      rw [left]
      exact Array.extract_empty_of_stop_le_start room
    have sound' := fitted.sound even nothing
    rw [if_pos full, if_pos full, checked, given, Option.bind_some, if_pos sound'.waits]
    exact ⟨got, c', s', rfl, rfl, sound', width, frames⟩
  · have short := Nat.lt_of_not_le full
    rw [if_neg full, if_neg full]
    by_cases flushed : c.flushed = true
    · have sound' : Sound q { c with pending } := ⟨filled, whole, short⟩
      rw [if_pos flushed, if_pos flushed, if_pos sound'.waits]
      exact ⟨#[], _, s', rfl, rfl, sound', rfl, Nat.dvd_zero _⟩
    · obtain ⟨got, c', checked, given, fitted, width, nothing, frames⟩ := filled.flush? even
      have sound' := fitted.sound even nothing
      rw [if_neg flushed, if_neg flushed, checked, given, Option.bind_some,
        if_pos sound'.waits]
      exact ⟨got, c', s', rfl, rfl, sound', width, frames⟩

/-- A new converter is sound. -/
theorem Sound.of_new (even : q.Even) {input output channels : Nat} (pos : 0 < channels)
    (created : Converter.new q.framed input output channels = .ok c) :
    c.Sound q ∧ c.channels = channels := by
  obtain ⟨fresh, width⟩ := Fresh.of_new created
  cases made : q.create input output channels with
  | error reason =>
    rw [Converter.new, RowResampler.framed_create, made] at created
    cases created
  | ok k =>
    rw [Converter.new, RowResampler.framed_create, made] at created
    cases created
    exact ⟨Fitted.sound ⟨pos, rfl, .created made⟩ even fresh.pending, width⟩

end Pulling

end Converter

end Jukebox.Audio
