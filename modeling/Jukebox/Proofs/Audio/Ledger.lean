import Jukebox.Audio.Output
import Jukebox.Proofs.Audio.Mixing
/-!
# The output as a map of streams

To the client of an output its streams are a map from numbers to streams, and a `Ledger` is this map
with the numbers that were issued. A registered stream plays or is held, and has a source, the
samples that wait between the source and the device, and a mark that the last frame asked for was
not there. There is no buffer with a place in it, and no number is looked for in a list.

Calls on an output are answered as by a ledger, in every order and with any numbers. What the calls
do to the other streams is read off the output itself: nothing.
-/
namespace Jukebox.Audio

variable {σ κ α : Type}

structure Registration (σ κ α : Type) where
  source : σ
  channels : Nat
  /-- There is none if the source runs at the rate of the device. -/
  converter : Option (Converter κ α)
  playing : Bool
  /-- Samples that the source brought and that are not mixed yet. -/
  waiting : Array α
  /-- The last frame that was asked for was not there. -/
  dry : Bool

namespace Registration

section

variable [Sample α] (r : Resampler κ α) (read : Source σ α)

/-- Asks the source for the next samples, which then wait. -/
def fetch (e : Registration σ κ α) : Registration σ κ α :=
  match e.converter with
  | some c =>
    let ((got, c), source) := c.pull r read e.source
    { e with source, converter := some c, waiting := got }
  | none =>
    let (answer, source) := read (readFrames * e.channels) e.source
    { e with source, waiting := answer.taken (readFrames * e.channels) e.channels }

/-- The next frame, out of what waits or else out of what the source brings. -/
def next (e : Registration σ κ α) : Option (Frame α) × Registration σ κ α :=
  let e := if e.waiting.isEmpty then e.fetch r read else e
  if e.waiting.isEmpty then (none, { e with dry := true })
  else
    (some (e.waiting.extract 0 e.channels),
      { e with waiting := e.waiting.extract e.channels e.waiting.size, dry := false })

/-- The next frames, up to a number or to one that is not there. -/
def take (e : Registration σ κ α) : Nat → List (Frame α) × Registration σ κ α
  | 0 => ([], e)
  | n + 1 =>
    match e.next r read with
    | (none, e) => ([], e)
    | (some frame, e) =>
      let (later, e) := e.take n
      (frame :: later, e)

/-- What a stream gives to a number of device frames. A stream that is held gives nothing. -/
def supply (e : Registration σ κ α) (n : Nat) : List (Frame α) × Registration σ κ α :=
  if e.playing then e.take r read n else ([], e)

variable {e : Registration σ κ α}

theorem next_of_waiting (waits : e.waiting ≠ #[]) :
    e.next r read =
      (some (e.waiting.extract 0 e.channels),
        { e with waiting := e.waiting.extract e.channels e.waiting.size, dry := false }) := by
  simp [next, waits]

/-- To a stream with samples that wait the mark makes no difference. -/
theorem next_marked (waits : e.waiting ≠ #[]) (dry : Bool) :
    { e with dry }.next r read = e.next r read := by
  rw [next_of_waiting r read waits]
  exact next_of_waiting r read (e := { e with dry }) waits

theorem next_of_nothing (nothing : e.waiting = #[]) :
    e.next r read =
      if (e.fetch r read).waiting = #[] then (none, { e.fetch r read with dry := true })
      else (e.fetch r read).next r read := by
  by_cases brought : (e.fetch r read).waiting = #[]
  · simp [next, nothing, brought]
  · rw [if_neg brought, next_of_waiting r read brought]
    simp [next, nothing, brought]

end

end Registration

structure Ledger (σ κ α : Type) where
  issued : List StreamId
  stream? : StreamId → Option (Registration σ κ α)

inductive Output.Call (σ : Type) where
  | add (format : Format) (source : σ)
  | play (id : StreamId)
  | pause (id : StreamId)
  | remove (id : StreamId)
  | isDrained (id : StreamId)
  | size
  | mix (count : Nat)

inductive Output.Answer (α : Type) where
  | added (outcome : Except Fault StreamId)
  | done
  | drained (drained : Bool)
  | counted (count : Nat)
  | mixed (samples : Array α)

namespace Ledger

def empty : Ledger σ κ α :=
  ⟨[], fun _ => none⟩

def standing (l : Ledger σ κ α) : List StreamId :=
  l.issued.filter fun id => (l.stream? id).isSome

/-- Registers a stream under a number that was not issued before. -/
def register (l : Ledger σ κ α) (e : Registration σ κ α) : StreamId × Ledger σ κ α :=
  let id : StreamId := ⟨l.issued.length + 1⟩
  (id, ⟨l.issued ++ [id], fun i => if i = id then some e else l.stream? i⟩)

/-- Lets the stream of a number play or holds it, if there is one. -/
def setPlaying (l : Ledger σ κ α) (id : StreamId) (playing : Bool) : Ledger σ κ α :=
  { l with stream? := fun i =>
      if i = id then (l.stream? i).map fun e => { e with playing } else l.stream? i }

def remove (l : Ledger σ κ α) (id : StreamId) : Ledger σ κ α :=
  { l with stream? := fun i => if i = id then none else l.stream? i }

section

variable {l : Ledger σ κ α}

theorem stream?_register (e : Registration σ κ α) (id : StreamId) :
    (l.register e).2.stream? id = if id = ⟨l.issued.length + 1⟩ then some e else l.stream? id := rfl

theorem stream?_setPlaying (id i : StreamId) (playing : Bool) :
    (l.setPlaying id playing).stream? i =
      if i = id then (l.stream? i).map fun e => { e with playing } else l.stream? i := rfl

theorem stream?_remove (id i : StreamId) :
    (l.remove id).stream? i = if i = id then none else l.stream? i := rfl

theorem standing_congr {l' : Ledger σ κ α} (issued : l'.issued = l.issued)
    (same : ∀ id, (l'.stream? id).isSome = (l.stream? id).isSome) : l'.standing = l.standing := by
  simp only [standing, issued, same]

theorem standing_register (fresh : (⟨l.issued.length + 1⟩ : StreamId) ∉ l.issued)
    (e : Registration σ κ α) :
    (l.register e).2.standing = l.standing ++ [⟨l.issued.length + 1⟩] := by
  have others : ∀ id ∈ l.issued, ((l.register e).2.stream? id).isSome = (l.stream? id).isSome := by
    intro id issued
    have other : id ≠ ⟨l.issued.length + 1⟩ := fun same => fresh (same ▸ issued)
    rw [stream?_register, if_neg other]
  rw [standing, standing, ← List.filter_congr others]
  simp [register]

@[simp] theorem standing_setPlaying (l : Ledger σ κ α) (id : StreamId) (playing : Bool) :
    (l.setPlaying id playing).standing = l.standing := by
  refine standing_congr rfl fun i => ?_
  by_cases here : i = id <;> simp [stream?_setPlaying, here]

theorem standing_remove (l : Ledger σ κ α) (id : StreamId) :
    (l.remove id).standing = l.standing.filter (· ≠ id) := by
  rw [standing, standing, List.filter_filter]
  refine List.filter_congr fun i _ => ?_
  by_cases here : i = id <;> simp [stream?_remove, here]

end

section

variable [Sample α] (r : Resampler κ α) (read : Source σ α) (device : Format)

/-- Each sample is silence to which the standing streams add their parts in the order of their
numbers. -/
def mix (l : Ledger σ κ α) (count : Nat) : Array α × Ledger σ κ α :=
  let n := deviceFrames device.channels count
  ((Array.range count).map fun i => (l.standing.filterMap fun id => (l.stream? id).bind fun e =>
      part device.channels count i (e.supply r read n).1.toArray).foldl Sample.add Sample.silence,
    { l with stream? := fun id => (l.stream? id).map fun e => (e.supply r read n).2 })

@[simp] theorem standing_mix (l : Ledger σ κ α) (count : Nat) :
    (l.mix r read device count).2.standing = l.standing :=
  standing_congr rfl fun _ => Option.isSome_map

/-- A stream without a rate or without channels is refused, and one that cannot be converted to the
rate of the device. -/
def registration (format : Format) (source : σ) : Except Fault (Registration σ κ α) :=
  if format.rate = 0 ∨ format.channels = 0 then
    .error (.output ("Unsupported stream format: " ++ toString format.rate ++ " Hz, " ++
      toString format.channels ++ " channels"))
  else if format.rate = device.rate then
    .ok ⟨source, format.channels, none, false, #[], false⟩
  else
    (Converter.new r format.rate device.rate format.channels).map fun c =>
      ⟨source, format.channels, some c, false, #[], false⟩

/-- What a call returns, and the ledger after it. -/
def answer (l : Ledger σ κ α) : Output.Call σ → Output.Answer α × Ledger σ κ α
  | .add format source =>
    match registration r device format source with
    | .error f => (.added (.error f), l)
    | .ok e => (.added (.ok (l.register e).1), (l.register e).2)
  | .play id => (.done, l.setPlaying id true)
  | .pause id => (.done, l.setPlaying id false)
  | .remove id => (.done, l.remove id)
  | .isDrained id => (.drained ((l.stream? id).elim true (·.dry)), l)
  | .size => (.counted l.standing.length, l)
  | .mix count => (.mixed (l.mix r read device count).1, (l.mix r read device count).2)

/-- The answers to some calls, one after the other, and the ledger after them. -/
def answers (l : Ledger σ κ α) :
    List (Output.Call σ) → List (Output.Answer α) × Ledger σ κ α
  | [] => ([], l)
  | call :: rest =>
    let (first, l) := l.answer r read device call
    let (later, l) := l.answers rest
    (first :: later, l)

end

end Ledger

namespace Output

variable [Sample α] (r : Resampler κ α) (read : Source σ α)

def opened (device : Format) (name : Option String) : Output σ κ α :=
  ⟨.new device.rate device.channels, name⟩

/-- What a call returns, and the output after it. -/
def answer (out : Output σ κ α) : Call σ → Answer α × Output σ κ α
  | .add format source =>
    match out.add r format source with
    | .error f => (.added (.error f), out)
    | .ok (id, out) => (.added (.ok id), out)
  | .play id => (.done, out.play id)
  | .pause id => (.done, out.pause id)
  | .remove id => (.done, out.remove id)
  | .isDrained id => (.drained (out.isDrained id), out)
  | .size => (.counted out.size, out)
  | .mix count => (.mixed (out.mix r read count).1, (out.mix r read count).2)

/-- The answers to some calls, one after the other, and the output after them. -/
def answers (out : Output σ κ α) : List (Call σ) → List (Answer α) × Output σ κ α
  | [] => ([], out)
  | call :: rest =>
    let (first, out) := out.answer r read call
    let (later, out) := out.answers rest
    (first :: later, out)

end Output

/-- Past the end there is nothing to extract. -/
theorem extract_min_size (xs : Array α) (start stop : Nat) :
    xs.extract start (min stop xs.size) = xs.extract start stop := by
  refine Array.ext (by simp only [Array.size_extract]; omega) fun i _ _ => ?_
  rw [Array.getElem_extract, Array.getElem_extract]

/-- A stream of the mixer as its client knows it. -/
def Stream.registration (s : Stream σ κ α) : Registration σ κ α :=
  ⟨s.source, s.channels, s.converter, s.playing, s.buffer.extract s.offset s.buffer.size,
    s.isDrained⟩

/-- If the last refill brought nothing, the buffer is empty. -/
def Stream.Settled (s : Stream σ κ α) : Prop :=
  s.exhausted = true → s.buffer = #[]

namespace Stream

variable [Sample α] (r : Resampler κ α) (read : Source σ α) {s : Stream σ κ α}

theorem refill_settled (s : Stream σ κ α) : (s.refill r read).Settled := by
  intro exhausted
  rw [(refill_fresh r read s).2] at exhausted
  simpa using exhausted

/-- What a refill brings waits, and the stream is drained if it brings nothing. -/
theorem registration_refill (s : Stream σ κ α) :
    (s.refill r read).registration =
      { s.registration.fetch r read with dry := (s.refill r read).buffer.isEmpty } ∧
    (s.registration.fetch r read).waiting = (s.refill r read).buffer := by
  obtain ⟨start, flag⟩ := refill_fresh r read s
  have drained : (s.refill r read).isDrained = (s.refill r read).buffer.isEmpty := by
    rw [isDrained, start, flag]
    by_cases empty : (s.refill r read).buffer = #[] <;> simp [empty]
  rw [registration, drained, start, Array.extract_size]
  unfold refill Registration.fetch
  cases unconverted : s.converter with
  | none => simp only [registration, unconverted, and_self]
  | some c => simp only [registration, unconverted, and_self]

/-- A frame that waits is the one that the client expects. -/
theorem Settled.next_of_waiting (settled : s.Settled) (waiting : s.offset < s.buffer.size) :
    s.registration.next r read =
        ((s.nextFrame r read).1, (s.nextFrame r read).2.registration) ∧
      (s.nextFrame r read).2.Settled := by
  have full : s.buffer ≠ #[] := Array.size_pos_iff.mp (Nat.zero_lt_of_lt waiting)
  have wet : s.exhausted = false := Bool.eq_false_iff.mpr fun exhausted =>
    full (settled exhausted)
  have waits : s.registration.waiting ≠ #[] := by
    rw [registration, ne_eq, ← Array.size_eq_zero_iff, Array.size_extract]
    omega
  have first : s.registration.waiting.extract 0 s.channels =
      s.buffer.extract s.offset (s.offset + s.channels) := by
    rw [registration, Array.extract_extract, Nat.add_zero, extract_min_size]
  have later : s.registration.waiting.extract s.channels s.registration.waiting.size =
      s.buffer.extract (s.offset + s.channels) s.buffer.size := by
    rw [registration, Array.extract_extract, Array.size_extract, Nat.min_self]
    congr 1
    omega
  have undrained : isDrained { s with offset := s.offset + s.channels } = false := by
    rw [isDrained, wet, Bool.false_and]
  have same : s.registration.channels = s.channels := rfl
  rw [Registration.next_of_waiting r read waits, nextFrame_of_waiting r waiting, same, first, later]
  refine ⟨?_, settled⟩
  simp only [registration, undrained]

/-- A stream gives the frame that its client expects. -/
theorem Settled.next (settled : s.Settled) :
    s.registration.next r read =
        ((s.nextFrame r read).1, (s.nextFrame r read).2.registration) ∧
      (s.nextFrame r read).2.Settled := by
  rcases Nat.lt_or_ge s.offset s.buffer.size with waiting | used
  · exact settled.next_of_waiting r read waiting
  · obtain ⟨refilled, brought⟩ := registration_refill r read s
    have nothing : s.registration.waiting = #[] := by
      rw [registration, ← Array.size_eq_zero_iff, Array.size_extract]
      omega
    rw [nextFrame_of_used r used, Registration.next_of_nothing r read nothing, brought]
    by_cases empty : (s.refill r read).buffer = #[]
    · rw [if_pos empty, if_pos (Array.isEmpty_iff.mpr empty), refilled, empty]
      exact ⟨rfl, refill_settled r read s⟩
    · have waiting : (s.refill r read).offset < (s.refill r read).buffer.size := by
        rw [(refill_fresh r read s).1]
        exact Array.size_pos_iff.mpr empty
      obtain ⟨given, settled⟩ := (refill_settled r read s).next_of_waiting r read waiting
      have waits : (s.registration.fetch r read).waiting ≠ #[] := brought ▸ empty
      rw [if_neg empty, if_neg (mt Array.isEmpty_iff.mp empty), ← given, refilled]
      exact ⟨(Registration.next_marked r read waits _).symm, settled⟩

/-- A draw gives the frames that the client expects. -/
theorem Settled.draw (settled : s.Settled) (count : Nat) (drawn : Array (Frame α)) :
    (s.draw r read count drawn).1 =
        drawn ++ (s.registration.take r read count).1.toArray ∧
      (s.draw r read count drawn).2.registration = (s.registration.take r read count).2 ∧
      (s.draw r read count drawn).2.Settled := by
  induction count generalizing s drawn with
  | zero => exact ⟨by simp [Stream.draw, Registration.take], rfl, settled⟩
  | succ count ih =>
    obtain ⟨given, settled'⟩ := settled.next r read
    rcases asked : s.nextFrame r read with ⟨_ | frame, s'⟩
    · rw [asked] at given settled'
      simp only [Stream.draw, asked, Registration.take, given]
      exact ⟨by simp, trivial, settled'⟩
    · rw [asked] at given settled'
      obtain ⟨frames, after, settled''⟩ := ih settled' (drawn.push frame)
      simp only [Stream.draw, asked, Registration.take, given]
      refine ⟨?_, after, settled''⟩
      rw [frames]
      simp

/-- A stream gives to a mix what the client expects. -/
theorem Settled.supply (settled : s.Settled) (count : Nat) :
    (s.supply r read count).1 = (s.registration.supply r read count).1.toArray ∧
      (s.supply r read count).2.registration = (s.registration.supply r read count).2 ∧
      (s.supply r read count).2.Settled := by
  have playing : s.registration.playing = s.playing := rfl
  rw [Stream.supply, Registration.supply, playing]
  by_cases plays : s.playing = true
  · obtain ⟨frames, after, settled'⟩ := settled.draw r read count #[]
    rw [if_pos plays, if_pos plays]
    exact ⟨by simpa using frames, after, settled'⟩
  · rw [if_neg plays, if_neg plays]
    exact ⟨rfl, rfl, settled⟩

end Stream

end Jukebox.Audio
