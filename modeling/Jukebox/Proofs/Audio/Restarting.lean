import Jukebox.Audio.Interpolator
import Jukebox.Proofs.Audio.Filling
/-!
# Conversion that starts afresh

When a source has run dry and its tail is out, the resampler is where it was at the start. Should
the source deliver again, a full chunk makes the converter what a new one is after that chunk, so
the conversion from then on is one from the start. What is less than a chunk is kept and waits for
more, and is not converted for as long as no more comes.

`Drains` is such a conversion: pulls until one of a dry source gives nothing. Its output depends on
the converter and on what the source holds, and the sources may differ in everything else.
-/
namespace Jukebox.Audio

variable {σ σ' κ α : Type}

inductive Resampler.Reached (r : Resampler κ α) (start : κ) : κ → Prop
  | start : Reached r start start
  | processed {k : κ} (chunk : Array (Frame α)) (before : Reached r start k) :
      Reached r start (r.process k chunk).2
  | finished {k : κ} (rest : Option (Array (Frame α))) (before : Reached r start k) :
      Reached r start (r.processPartial k rest).2

/-- From wherever it is, a resampler starts afresh in its first state, and it never takes empty
chunks. -/
structure Resampler.Restores (r : Resampler κ α) (start : κ) : Prop where
  reset : ∀ k, r.Reached start k → r.reset k = start
  needed : ∀ k, r.Reached start k → 0 < r.needed k

namespace Converter

structure Fresh (r : Resampler κ α) (c : Converter κ α) : Prop where
  pending : c.pending = #[]
  skip : c.skip = r.delay c.resampler
  framesIn : c.framesIn = 0
  framesOut : c.framesOut = 0
  flushed : c.flushed = false

/-- A converter with a conversion under way that was at a start before. -/
structure Underway (r : Resampler κ α) (start c : Converter κ α) : Prop where
  input : c.input = start.input
  output : c.output = start.output
  channels : c.channels = start.channels
  pending : c.pending = #[]
  flushed : c.flushed = false
  reached : r.Reached start.resampler c.resampler

/-- A converter after a conversion, with what it was given since. -/
def rested (start : Converter κ α) (pending : List α) : Converter κ α :=
  { start with pending := pending.toArray, flushed := true }

/-- Pulls up to one that gives nothing while the source is dry, and all that they give. -/
inductive Drains [Sample α] (r : Resampler κ α) (read : Source σ α) (held : σ → List α) :
    Converter κ α → σ → Array α → Converter κ α → σ → Prop
  | settled {c : Converter κ α} {s : σ} (dry : held s = [])
      (nothing : (c.pull r read s).1.1 = #[]) :
      Drains r read held c s #[] (c.pull r read s).1.2 (c.pull r read s).2
  | pulled {c c' : Converter κ α} {s s' : σ} {out : Array α}
      (unsettled : ¬(held s = [] ∧ (c.pull r read s).1.1 = #[]))
      (rest : Drains r read held (c.pull r read s).1.2 (c.pull r read s).2 out c' s') :
      Drains r read held c s ((c.pull r read s).1.1 ++ out) c' s'

/-- Converters after one or more conversions, the source being filled up in between. -/
inductive Rested [Sample α] (r : Resampler κ α) (read : Source σ α) (held : σ → List α)
    (start : Converter κ α) : Converter κ α → Prop
  | first {s s' : σ} {out : Array α} {c : Converter κ α}
      (drains : Drains r read held start s out c s') : Rested r read held start c
  | again {s s' : σ} {out : Array α} {c c' : Converter κ α} (before : Rested r read held start c)
      (drains : Drains r read held c s out c' s') : Rested r read held start c'

section Answers

variable (c : Converter κ α) (answer : Option (Array (Frame α)) × κ)

@[simp] theorem emitAnswer_resampler : (c.emitAnswer answer).2.resampler = answer.2 := by
  rcases answer with ⟨_ | _, _⟩ <;> rfl

@[simp] theorem emitAnswer_input : (c.emitAnswer answer).2.input = c.input := by
  rcases answer with ⟨_ | _, _⟩ <;> rfl

@[simp] theorem emitAnswer_output : (c.emitAnswer answer).2.output = c.output := by
  rcases answer with ⟨_ | _, _⟩ <;> rfl

@[simp] theorem emitAnswer_channels : (c.emitAnswer answer).2.channels = c.channels := by
  rcases answer with ⟨_ | _, _⟩ <;> rfl

@[simp] theorem emitAnswer_pending : (c.emitAnswer answer).2.pending = c.pending := by
  rcases answer with ⟨_ | _, _⟩ <;> rfl

@[simp] theorem emitAnswer_flushed : (c.emitAnswer answer).2.flushed = c.flushed := by
  rcases answer with ⟨_ | _, _⟩ <;> rfl

end Answers

section Steps

variable {r : Resampler κ α} {start c : Converter κ α} {stock p : List α}

theorem Fresh.of_new {input output channels : Nat}
    (created : Converter.new r input output channels = .ok start) :
    start.Fresh r ∧ start.channels = channels := by
  unfold Converter.new at created
  split at created
  · cases created
  · cases created
    exact ⟨⟨rfl, rfl, rfl, rfl, rfl⟩, rfl⟩

theorem Fresh.underway (fresh : start.Fresh r) : Underway r start start :=
  ⟨rfl, rfl, rfl, fresh.pending, fresh.flushed, .start⟩

/-- A chunk is not empty. -/
theorem Underway.chunk_pos (underway : Underway r start c)
    (restores : r.Restores start.resampler) (pos : 0 < start.channels) :
    0 < r.needed c.resampler * c.channels :=
  Nat.mul_pos (restores.needed _ underway.reached) (underway.channels ▸ pos)

/-- A full chunk leaves a conversion under way, with nothing pending. -/
theorem Underway.convertChunk (underway : Underway r start c) {wanted : Nat} {pending : Array α}
    (size : pending.size = wanted) :
    Underway r start ({ c with pending }.convertChunk r wanted).2 := by
  refine ⟨?_, ?_, ?_, ?_, ?_, ?_⟩
  · exact (emitAnswer_input _ _).trans underway.input
  · exact (emitAnswer_output _ _).trans underway.output
  · exact (emitAnswer_channels _ _).trans underway.channels
  · refine (emitAnswer_pending _ _).trans ?_
    simp [size]
  · exact emitAnswer_flushed _ _
  · have answered := underway.reached.processed (frames c.channels (pending.extract 0 wanted))
    rwa [← emitAnswer_resampler] at answered

/-- A flush ends in a reset of the resampler, from a state it has come to. -/
theorem flush_eq (r : Resampler κ α) (c : Converter κ α) :
    ∃ k, (∀ first, r.Reached first c.resampler → r.Reached first k) ∧
      (c.flush r).2 = { c with
        resampler := r.reset k
        pending := #[]
        skip := r.delay (r.reset k)
        framesIn := 0
        framesOut := 0
        flushed := true } := by
  let rest := if c.pending.isEmpty then none else some (frames c.channels c.pending)
  refine ⟨_, fun first reached => (reached.finished rest).finished none, ?_⟩
  simp [flush, rest]

/-- A flush brings the converter back to where it was at the start. -/
theorem Underway.flush (underway : Underway r start c) (fresh : start.Fresh r)
    (restores : r.Restores start.resampler) (pending : Array α) :
    ({ c with pending }.flush r).2 = start.rested [] := by
  obtain ⟨k, reaches, flushed⟩ := flush_eq r { c with pending }
  rw [flushed, restores.reset k (reaches _ underway.reached), underway.input, underway.output,
    underway.channels]
  simp only [rested, fresh.skip, fresh.framesIn, fresh.framesOut]

theorem Underway.digest_full (underway : Underway r start c)
    (full : r.needed c.resampler * c.channels ≤ stock.length) :
    Underway r start (c.digest r stock).2 := by
  rw [digest]
  simp only [if_pos full]
  refine underway.convertChunk ?_
  rw [List.size_toArray, List.length_take, Nat.min_eq_left full]

theorem Underway.digest_last (underway : Underway r start c) (fresh : start.Fresh r)
    (restores : r.Restores start.resampler)
    (short : stock.length < r.needed c.resampler * c.channels) :
    (c.digest r stock).2 = start.rested [] := by
  have off : ¬c.flushed = true := by rw [underway.flushed]; exact Bool.false_ne_true
  rw [digest]
  simp only [if_neg (Nat.not_le_of_lt short), if_neg off]
  exact underway.flush fresh restores _

/-- What is less than a chunk is kept. -/
theorem digest_rested_short (short : stock.length < r.needed start.resampler * start.channels) :
    (start.rested p).digest r stock = (#[], start.rested stock) := by
  have all : stock.take (r.needed start.resampler * start.channels) = stock :=
    List.take_of_length_le (Nat.le_of_lt short)
  rw [digest]
  simp only [rested, if_neg (Nat.not_le_of_lt short), if_true, all]

/-- A chunk makes the converter what a new one is after that chunk. -/
theorem digest_rested_full (full : r.needed start.resampler * start.channels ≤ stock.length) :
    (start.rested p).digest r stock = start.digest r stock := by
  rw [digest, digest]
  simp only [rested, if_pos full]
  rfl

end Steps

section Series

variable [Sample α] {r : Resampler κ α} {read : Source σ α} {held : σ → List α}
  {start c c' : Converter κ α} {s s' : σ} {out : Array α} {p : List α}

/-- Pulls come to one end only. -/
theorem Drains.unique {out' : Array α} {c'' : Converter κ α} {s'' : σ}
    (drains : Drains r read held c s out c' s') (again : Drains r read held c s out' c'' s'') :
    out' = out ∧ c'' = c' ∧ s'' = s' := by
  induction drains generalizing out' with
  | settled dry nothing =>
    cases again with
    | settled _ _ => exact ⟨rfl, rfl, rfl⟩
    | pulled unsettled _ => exact absurd ⟨dry, nothing⟩ unsettled
  | pulled unsettled _ ih =>
    cases again with
    | settled dry nothing => exact absurd ⟨dry, nothing⟩ unsettled
    | pulled _ rest =>
      obtain ⟨rfl, rfl, rfl⟩ := ih rest
      exact ⟨rfl, rfl, rfl⟩

theorem Drains.step {a : Array α} {c₁ : Converter κ α} (pulls : (c.pull r read s).1 = (a, c₁))
    (unsettled : ¬(held s = [] ∧ a = #[]))
    (rest : Drains r read held c₁ (c.pull r read s).2 out c' s') :
    Drains r read held c s (a ++ out) c' s' := by
  have pulled : Drains r read held c s _ c' s' := .pulled (by rwa [pulls]) (by rwa [pulls])
  rwa [pulls] at pulled

theorem Drains.stop (pulls : (c.pull r read s).1 = (#[], c')) (dry : held s = []) :
    Drains r read held c s #[] c' (c.pull r read s).2 := by
  have settled : Drains r read held c s _ _ _ := .settled dry (by rw [pulls])
  rwa [pulls] at settled

variable (delivers : Delivers read start.channels held)

include delivers

theorem Underway.pull_eq (underway : Underway r start c) (s : σ) :
    (c.pull r read s).1 = c.digest r (held s) ∧
      held (c.pull r read s).2 = (held s).drop (r.needed c.resampler * c.channels) := by
  have none_pending : c.pending.toList = [] := by rw [underway.pending]
  have size : c.pending.size = 0 := by rw [underway.pending]; rfl
  have pulls := Converter.pull_eq r (underway.channels ▸ delivers) (size ▸ Nat.dvd_zero _)
    (size ▸ Nat.zero_le _) s
  rwa [none_pending, List.nil_append] at pulls

theorem rested_pull_eq (whole : start.channels ∣ p.length)
    (room : p.length < r.needed start.resampler * start.channels) (s : σ) :
    ((start.rested p).pull r read s).1 = (start.rested p).digest r (p ++ held s) ∧
      held ((start.rested p).pull r read s).2 =
        (p ++ held s).drop (r.needed start.resampler * start.channels) :=
  Converter.pull_eq (c := start.rested p) r delivers whole (Nat.le_of_lt room) s

/-- While its source is dry, a converter at rest gives nothing and stays as it is. -/
theorem rested_still (whole : start.channels ∣ p.length)
    (room : p.length < r.needed start.resampler * start.channels) (dry : held s = []) :
    ((start.rested p).pull r read s).1 = (#[], start.rested p) := by
  rw [(rested_pull_eq delivers whole room s).1, dry, List.append_nil, digest_rested_short room]

theorem rested_settled (whole : start.channels ∣ p.length)
    (room : p.length < r.needed start.resampler * start.channels) (dry : held s = []) :
    ∃ s', Drains r read held (start.rested p) s #[] (start.rested p) s' :=
  ⟨_, .stop (rested_still delivers whole room dry) dry⟩

/-- What does not make a chunk with what was kept is kept, too. -/
theorem rested_keeps (whole : start.channels ∣ p.length)
    (short : (p ++ held s).length < r.needed start.resampler * start.channels) :
    ∃ s', Drains r read held (start.rested p) s #[] (start.rested (p ++ held s)) s' := by
  have room : p.length < r.needed start.resampler * start.channels := by
    rw [List.length_append] at short
    omega
  by_cases dry : held s = []
  · rw [dry, List.append_nil]
    exact rested_settled delivers whole room dry
  · obtain ⟨pulls, rest⟩ := rested_pull_eq delivers whole room s
    rw [digest_rested_short short] at pulls
    rw [List.drop_of_length_le (Nat.le_of_lt short)] at rest
    obtain ⟨s', settled⟩ :=
      rested_settled delivers (delivers.dvd_append whole s) short rest
    exact ⟨s', .step pulls (fun settles => dry settles.1) settled⟩

end Series

section Conversions

variable [Sample α] {r : Resampler κ α} {start c : Converter κ α}
  (fresh : start.Fresh r) (restores : r.Restores start.resampler) (pos : 0 < start.channels)

include fresh restores pos in
/-- A conversion under way comes to its end, after which the converter is at rest and keeps nothing.
What it gives is the same for all sources that hold the same. -/
theorem Underway.drains (underway : Underway r start c) (stock : List α) :
    ∃ out, ∀ {σ : Type} (read : Source σ α) (held : σ → List α),
      Delivers read start.channels held → ∀ s, held s = stock →
        ∃ s', Drains r read held c s out (start.rested []) s' := by
  induction left : stock.length using Nat.strongRecOn generalizing c stock with
  | ind n ih =>
    have chunk := underway.chunk_pos restores pos
    by_cases full : r.needed c.resampler * c.channels ≤ stock.length
    · -- a chunk is taken
      have less : (stock.drop (r.needed c.resampler * c.channels)).length < n := by
        rw [List.length_drop]
        omega
      obtain ⟨out, later⟩ := ih _ less (underway.digest_full full) _ rfl
      refine ⟨(c.digest r stock).1 ++ out, fun read held delivers s holds => ?_⟩
      obtain ⟨pulls, rest⟩ := underway.pull_eq delivers s
      rw [holds] at pulls rest
      obtain ⟨s', drains⟩ := later read held delivers _ rest
      have wet : held s ≠ [] := List.ne_nil_of_length_pos (holds ▸ Nat.lt_of_lt_of_le chunk full)
      exact ⟨s', .step pulls (fun settles => wet settles.1) drains⟩
    · -- the rest and the tail are pushed out
      have short := Nat.lt_of_not_le full
      rcases answer : c.digest r stock with ⟨out, c'⟩
      obtain rfl : c' = start.rested [] := by
        rw [← underway.digest_last fresh restores short, answer]
      refine ⟨out, fun read held delivers s holds => ?_⟩
      obtain ⟨pulls, rest⟩ := underway.pull_eq delivers s
      rw [holds] at pulls rest
      rw [List.drop_of_length_le (Nat.le_of_lt short)] at rest
      rw [answer] at pulls
      by_cases settles : held s = [] ∧ out = #[]
      · obtain ⟨dry, rfl⟩ := settles
        exact ⟨_, .stop pulls dry⟩
      · have room : ([] : List α).length < r.needed start.resampler * start.channels :=
          fresh.underway.chunk_pos restores pos
        obtain ⟨s', settled⟩ :=
          rested_settled (p := []) (r := r) delivers (Nat.dvd_zero _) room rest
        have pulled := Drains.step pulls settles settled
        rw [Array.append_empty] at pulled
        exact ⟨s', pulled⟩

include fresh restores pos in
/-- Where there is a chunk, a converter at rest gives what a new one gives for all of it. -/
theorem rested_restarts {σ : Type} {read : Source σ α} {held : σ → List α} {s : σ} {p : List α}
    (delivers : Delivers read start.channels held) (whole : start.channels ∣ p.length)
    (room : p.length < r.needed start.resampler * start.channels)
    (full : r.needed start.resampler * start.channels ≤ (p ++ held s).length) :
    ∃ out, (∃ s', Drains r read held (start.rested p) s out (start.rested []) s') ∧
      ∀ {σ' : Type} (read' : Source σ' α) (held' : σ' → List α),
        Delivers read' start.channels held' → ∀ s₀, held' s₀ = p ++ held s →
          ∃ s', Drains r read' held' start s₀ out (start.rested []) s' := by
  have chunk := fresh.underway.chunk_pos restores pos
  obtain ⟨out, later⟩ := (fresh.underway.digest_full full).drains fresh restores pos
    ((p ++ held s).drop (r.needed start.resampler * start.channels))
  refine ⟨(start.digest r (p ++ held s)).1 ++ out, ?_, fun read' held' delivers' s₀ holds => ?_⟩
  · obtain ⟨pulls, rest⟩ := rested_pull_eq delivers whole room s
    rw [digest_rested_full full] at pulls
    obtain ⟨s', drains⟩ := later read held delivers _ rest
    have wet : held s ≠ [] := by
      intro dry
      rw [dry, List.append_nil] at full
      exact absurd room (Nat.not_lt_of_le full)
    exact ⟨s', .step pulls (fun settles => wet settles.1) drains⟩
  · obtain ⟨pulls, rest⟩ := fresh.underway.pull_eq delivers' s₀
    rw [holds] at pulls rest
    obtain ⟨s', drains⟩ := later read' held' delivers' _ rest
    have wet : held' s₀ ≠ [] := List.ne_nil_of_length_pos (holds ▸ Nat.lt_of_lt_of_le chunk full)
    exact ⟨s', .step pulls (fun settles => wet settles.1) drains⟩

include fresh restores pos in
/-- After any number of conversions a converter is at rest and keeps less than a chunk. -/
theorem Rested.eq {σ : Type} {read : Source σ α} {held : σ → List α}
    (delivers : Delivers read start.channels held) (rested : Rested r read held start c) :
    ∃ p, c = start.rested p ∧ start.channels ∣ p.length ∧
      p.length < r.needed start.resampler * start.channels := by
  have chunk := fresh.underway.chunk_pos restores pos
  induction rested with
  | first drains =>
    obtain ⟨out, ends⟩ := fresh.underway.drains fresh restores pos (held _)
    obtain ⟨s', ended⟩ := ends read held delivers _ rfl
    exact ⟨[], (ended.unique drains).2.1, Nat.dvd_zero _, chunk⟩
  | @again s _ _ _ _ _ drains ih =>
    obtain ⟨p, rfl, whole, room⟩ := ih
    rcases Nat.lt_or_ge (p ++ held s).length (r.needed start.resampler * start.channels) with
      short | full
    · obtain ⟨s', kept⟩ := rested_keeps delivers whole short
      exact ⟨p ++ held s, (kept.unique drains).2.1, delivers.dvd_append whole s, short⟩
    · obtain ⟨out, ⟨s', ended⟩, _⟩ := rested_restarts fresh restores pos delivers whole room full
      exact ⟨[], (ended.unique drains).2.1, Nat.dvd_zero _, chunk⟩

end Conversions

/-- A new converter that is pulled from until its source is dry and a pull gives nothing keeps no
samples. After that, and after any number of further conversions, let the source deliver again. If
what it delivers makes a chunk with what was kept, the pulls up to the next end give what a new
converter gives for all of it, and keep nothing. If it does not, they give nothing at all and keep
it. Either way, further pulls from the dry source give nothing and change nothing. -/
theorem drains_restarts [Sample α] {r : Resampler κ α} {input output channels : Nat}
    {start : Converter κ α} (created : Converter.new r input output channels = .ok start)
    (pos : 0 < channels) (restores : r.Restores start.resampler) {read : Source σ α}
    {held : σ → List α} (delivers : Delivers read channels held) :
    (∀ s, ∃ out c s', Drains r read held start s out c s' ∧ c.pending = #[]) ∧
    ∀ c, Rested r read held start c → ∀ s, ∃ out c' s',
      Drains r read held c s out c' s' ∧
      (∀ s, held s = [] → (c'.pull r read s).1 = (#[], c')) ∧
      (r.needed start.resampler * channels ≤ (c.pending.toList ++ held s).length →
        c'.pending = #[] ∧
        ∀ {σ' : Type} (read' : Source σ' α) (held' : σ' → List α),
          Delivers read' channels held' → ∀ s₀, held' s₀ = c.pending.toList ++ held s →
            ∃ s', Drains r read' held' start s₀ out c' s') ∧
      ((c.pending.toList ++ held s).length < r.needed start.resampler * channels →
        out = #[] ∧ c'.pending.toList = c.pending.toList ++ held s) := by
  obtain ⟨fresh, rfl⟩ := Fresh.of_new created
  have chunk := fresh.underway.chunk_pos restores pos
  refine ⟨fun s => ?_, fun c rested s => ?_⟩
  · obtain ⟨out, ends⟩ := fresh.underway.drains fresh restores pos (held s)
    obtain ⟨s', ended⟩ := ends read held delivers s rfl
    exact ⟨out, _, s', ended, rfl⟩
  · obtain ⟨p, rfl, whole, room⟩ := rested.eq fresh restores pos delivers
    rcases Nat.lt_or_ge (p ++ held s).length (r.needed start.resampler * start.channels) with
      short | full
    · obtain ⟨s', kept⟩ := rested_keeps delivers whole short
      have whole' := delivers.dvd_append whole s
      exact ⟨#[], _, s', kept, fun s dry => rested_still delivers whole' short dry,
        fun full => absurd short (Nat.not_lt_of_le full), fun _ => ⟨rfl, rfl⟩⟩
    · obtain ⟨out, ⟨s', ended⟩, anew⟩ := rested_restarts fresh restores pos delivers whole room full
      exact ⟨out, _, s', ended, fun s dry => rested_still delivers (Nat.dvd_zero _) chunk dry,
        fun _ => ⟨rfl, anew⟩, fun short => absurd short (Nat.not_lt_of_le full)⟩

end Converter

/-- An interpolator only keeps the time, and a reset puts it back. -/
theorem Interpolator.restores (α : Type) [Sample α] {k : Interpolator}
    (new : k.last = Interpolator.start) : (Interpolator.resampler α).Restores k := by
  refine ⟨fun k' reached => ?_, fun _ _ => Nat.zero_lt_succ _⟩
  have same : k'.channels = k.channels ∧ k'.ratio = k.ratio := by
    induction reached with
    | start => exact ⟨rfl, rfl⟩
    | processed _ _ ih => exact ih
    | finished _ _ ih => exact ih
  obtain ⟨channels, ratio, last⟩ := k
  obtain ⟨rfl, rfl⟩ := same
  exact congrArg (Interpolator.mk _ _) new.symm

/-- A source that has so many frames of silence. -/
def quiet (α : Type) [Sample α] (channels : Nat) : Source Nat α := fun wanted count =>
  let given := min (wanted / channels) count
  (⟨Array.replicate (given * channels) Sample.silence, given * channels⟩, count - given)

def hush (α : Type) [Sample α] (channels count : Nat) : List α :=
  List.replicate (count * channels) Sample.silence

@[simp] theorem length_hush (α : Type) [Sample α] (channels count : Nat) :
    (hush α channels count).length = count * channels :=
  List.length_replicate

theorem quiet_taken (α : Type) [Sample α] (channels wanted count : Nat) :
    ((quiet α channels wanted count).1.taken wanted channels).toList =
      hush α channels (min (wanted / channels) count) := by
  have within : min (wanted / channels) count * channels ≤ wanted :=
    Nat.le_trans (Nat.mul_le_mul_right _ (Nat.min_le_left ..)) (Nat.div_mul_le_self ..)
  have whole : wholeFrames channels (min (wanted / channels) count * channels) =
      min (wanted / channels) count * channels := by
    rw [wholeFrames, Nat.mul_mod_left, Nat.sub_zero]
  have silent : (quiet α channels wanted count).1.buffer wanted =
      Array.replicate wanted Sample.silence := by
    simp [quiet, Reading.buffer, Nat.add_sub_cancel' (Nat.min_le_left wanted _)]
  rw [Reading.taken, silent]
  simp [quiet, hush, whole, Nat.min_eq_left within]

theorem quiet_delivers (α : Type) [Sample α] {channels : Nat} (pos : 0 < channels) :
    Delivers (quiet α channels) channels (hush α channels) where
  whole count := by
    rw [length_hush]
    exact Nat.dvd_mul_left ..
  given count wanted _ _ := by
    rw [quiet_taken, hush, hush, hush, List.replicate_append_replicate, ← Nat.add_mul]
    congr 2
    exact Nat.add_sub_cancel' (Nat.min_le_right ..)
  dry count wanted some_wanted aligned none_taken := by
    rw [← Array.length_toList, quiet_taken, length_hush] at none_taken
    have chunk : 0 < wanted / channels := Nat.div_pos (Nat.le_of_dvd some_wanted aligned) pos
    have none_left : min (wanted / channels) count = 0 :=
      (Nat.mul_eq_zero.mp none_taken).resolve_right (Nat.ne_of_gt pos)
    obtain rfl : count = 0 := by omega
    simp [hush]

namespace Converter

def doubling (channels : Nat) : Converter Interpolator Float32 :=
  let k : Interpolator := ⟨channels, Float.ofNat 44100 / Float.ofNat 22050, Interpolator.start⟩
  ⟨k, 22050, 44100, channels, #[], (Interpolator.resampler Float32).delay k, 0, 0, false⟩

theorem doubling_new (channels : Nat) :
    Converter.new (Interpolator.resampler Float32) 22050 44100 channels =
      .ok (doubling channels) := rfl

/-- A series of pulls from frames of silence. -/
abbrev DoublesSilence (channels : Nat) (c : Converter Interpolator Float32) (count : Nat)
    (out : Array Float32) (c' : Converter Interpolator Float32) (count' : Nat) : Prop :=
  Drains (Interpolator.resampler Float32) (quiet Float32 channels) (hush Float32 channels) c count
    out c' count'

theorem doubling_restarts :
    ∃ out c s, DoublesSilence 2 (doubling 2) 3000 out c s ∧ c.pending = #[] ∧
      (∃ out' c' s', DoublesSilence 2 c 2000 out' c' s' ∧ c'.pending = #[] ∧
        ∃ s'', DoublesSilence 2 (doubling 2) 2000 out' c' s'') ∧
      ∃ c' s', DoublesSilence 2 c 1 #[] c' s' ∧ c'.pending.toList = hush Float32 2 1 := by
  obtain ⟨first, again⟩ := drains_restarts (doubling_new 2) Nat.two_pos
    (Interpolator.restores Float32 rfl) (quiet_delivers Float32 Nat.two_pos)
  obtain ⟨out, c, s, drains, none_left⟩ := first 3000
  obtain ⟨out', c', s', drains', _, full, _⟩ := again c (.first drains) 2000
  obtain ⟨out'', c'', s'', drains'', _, _, short⟩ := again c (.first drains) 1
  rw [none_left] at full short
  have chunk : 1024 * 2 ≤ (hush Float32 2 2000).length := by
    rw [length_hush]
    omega
  have lone : (hush Float32 2 1).length < 1024 * 2 := by
    rw [length_hush]
    omega
  obtain ⟨used, anew⟩ := full chunk
  obtain ⟨rfl, kept⟩ := short lone
  exact ⟨out, c, s, drains, none_left,
    ⟨out', c', s', drains', used, anew _ _ (quiet_delivers Float32 Nat.two_pos) 2000 rfl⟩,
    c'', s'', drains'', kept⟩

/-- A frame that comes alone after the conversion of another one is kept, and not converted as a new
converter would do. -/
theorem lone_frame_kept :
    ¬ ∀ (first later : Nat) (out out' : Array Float32) (c c' : Converter Interpolator Float32)
      (s s' : Nat), 0 < later → DoublesSilence 1 (doubling 1) first out c s →
        DoublesSilence 1 c later out' c' s' →
          (∀ out'' c'' s'', DoublesSilence 1 (doubling 1) later out'' c'' s'' → out'' = out') ∧
            c'.pending = #[] := by
  intro always
  have delivers := quiet_delivers Float32 Nat.one_pos
  have fresh : (doubling 1).Fresh (Interpolator.resampler Float32) := ⟨rfl, rfl, rfl, rfl, rfl⟩
  obtain ⟨out, ends⟩ := fresh.underway.drains fresh (Interpolator.restores Float32 rfl) Nat.one_pos
    (hush Float32 1 1)
  obtain ⟨s, drains⟩ := ends _ _ delivers 1 rfl
  have short : ([] ++ hush Float32 1 1).length <
      (Interpolator.resampler Float32).needed (doubling 1).resampler * (doubling 1).channels := by
    have chunk : (Interpolator.resampler Float32).needed (doubling 1).resampler *
        (doubling 1).channels = 1024 * 1 := rfl
    rw [List.nil_append, length_hush, chunk]
    omega
  obtain ⟨s', kept⟩ := rested_keeps delivers (Nat.dvd_zero _) short
  have none_left := (always 1 1 _ _ _ _ s s' Nat.one_pos drains kept).2
  have one_left : (1 : Nat) = 0 := congrArg Array.size none_left
  cases one_left

end Converter

end Jukebox.Audio
