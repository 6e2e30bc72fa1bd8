import Jukebox.Proofs.Audio.Drawing
/-!
# What a pull takes from a source

A source that delivers whole frames and then nothing is known by what it still holds. However it
cuts what it gives, a converter reads until a chunk is full or the source is dry. So what a pull
gives out, and what is left of the converter, depends on the converter and on what the source holds
and on nothing else.
-/
namespace Jukebox.Audio

variable {σ κ α : Type} [Sample α]

/-- What a source holds, when it delivers whole frames from the front, in pieces of any sizes, and
some for as long as there are any. -/
structure Delivers (read : Source σ α) (channels : Nat) (held : σ → List α) : Prop where
  whole : ∀ s, channels ∣ (held s).length
  given : ∀ s wanted, 0 < wanted → channels ∣ wanted →
    ((read wanted s).1.taken wanted channels).toList ++ held (read wanted s).2 = held s
  dry : ∀ s wanted, 0 < wanted → channels ∣ wanted →
    ((read wanted s).1.taken wanted channels).size = 0 → held s = []

/-- Whole frames stay whole with what the source holds behind them. -/
theorem Delivers.dvd_append {read : Source σ α} {channels : Nat} {held : σ → List α}
    (delivers : Delivers read channels held) {p : List α} (whole : channels ∣ p.length) (s : σ) :
    channels ∣ (p ++ held s).length := by
  rw [List.length_append]
  exact Nat.dvd_add whole (delivers.whole s)

theorem Reading.size_taken_le (a : Reading α) (wanted channels : Nat) :
    (a.taken wanted channels).size ≤ wanted := by
  rw [size_taken]
  exact Nat.le_trans (Nat.sub_le _ _) (Nat.min_le_right _ _)

/-- Filling takes what is missing from the front of what the source holds. -/
theorem Delivers.fill {read : Source σ α} {channels wanted : Nat} {held : σ → List α}
    (delivers : Delivers read channels held) (chunk : channels ∣ wanted) (pending : Array α)
    (s : σ) (whole : channels ∣ pending.size) :
    (Converter.fill read channels wanted pending s).1.toList =
        pending.toList ++ (held s).take (wanted - pending.size) ∧
      held (Converter.fill read channels wanted pending s).2 =
        (held s).drop (wanted - pending.size) := by
  fun_induction Converter.fill read channels wanted pending s with
  | case1 pending s missing a s' reading got dry =>
    have some_wanted : 0 < wanted - pending.size := Nat.sub_pos_of_lt missing
    have aligned : channels ∣ wanted - pending.size := Nat.dvd_sub chunk whole
    have nothing := delivers.given s _ some_wanted aligned
    rw [delivers.dry s _ some_wanted aligned (by rwa [reading]), reading] at nothing
    rw [delivers.dry s _ some_wanted aligned (by rwa [reading])]
    simpa using (List.append_eq_nil_iff.mp nothing).2
  | case2 pending s missing a s' reading got more ih =>
    have some_wanted : 0 < wanted - pending.size := Nat.sub_pos_of_lt missing
    have aligned : channels ∣ wanted - pending.size := Nat.dvd_sub chunk whole
    have given := delivers.given s _ some_wanted aligned
    rw [reading] at given
    have got_le : got.toList.length ≤ wanted - pending.size := a.size_taken_le _ channels
    have size_eq : (pending ++ got).size = pending.size + got.toList.length := Array.size_append
    have left : wanted - pending.size = got.toList.length + (wanted - (pending ++ got).size) := by
      omega
    have whole' : channels ∣ (pending ++ got).size := by
      rw [Array.size_append]
      exact Nat.dvd_add whole (a.dvd_size_taken _ channels)
    obtain ⟨taken, rest⟩ := ih whole'
    rw [taken, rest, Array.toList_append, List.append_assoc, left, ← given]
    constructor
    · rw [List.take_length_add_append]
    · rw [List.drop_length_add_append]
  | case3 pending s full =>
    rw [Nat.sub_eq_zero_of_le (Nat.le_of_not_lt full)]
    simp

namespace Converter

/-- What a pull makes of the pending samples and those that the source holds, one after the
other. -/
def digest (r : Resampler κ α) (c : Converter κ α) (stock : List α) : Array α × Converter κ α :=
  let wanted := r.needed c.resampler * c.channels
  let c := { c with pending := (stock.take wanted).toArray }
  if wanted ≤ stock.length then c.convertChunk r wanted
  else if c.flushed then (#[], c)
  else c.flush r

/-- A pull takes a chunk, or what there is. -/
theorem pull_eq (r : Resampler κ α) {read : Source σ α} {held : σ → List α} {c : Converter κ α}
    (delivers : Delivers read c.channels held) (whole : c.channels ∣ c.pending.size)
    (room : c.pending.size ≤ r.needed c.resampler * c.channels) (s : σ) :
    (c.pull r read s).1 = c.digest r (c.pending.toList ++ held s) ∧
      held (c.pull r read s).2 =
        (c.pending.toList ++ held s).drop (r.needed c.resampler * c.channels) := by
  obtain ⟨taken, rest⟩ := delivers.fill (Nat.dvd_mul_left ..) c.pending s whole
  rcases filled : fill read c.channels (r.needed c.resampler * c.channels) c.pending s with
    ⟨pending, s'⟩
  rw [filled] at taken rest
  have length_eq : c.pending.toList.length = c.pending.size := Array.length_toList
  have under : c.pending.toList.length ≤ r.needed c.resampler * c.channels := by rwa [length_eq]
  have loaded : pending.toList =
      (c.pending.toList ++ held s).take (r.needed c.resampler * c.channels) := by
    rw [taken, List.take_append, List.take_of_length_le under, length_eq]
  have full : r.needed c.resampler * c.channels ≤ pending.size ↔
      r.needed c.resampler * c.channels ≤ (c.pending.toList ++ held s).length := by
    rw [← Array.length_toList, loaded, List.length_take]
    omega
  have dropped : (c.pending.toList ++ held s).drop (r.needed c.resampler * c.channels) =
      (held s).drop (r.needed c.resampler * c.channels - c.pending.size) := by
    rw [List.drop_append, List.drop_of_length_le under, length_eq, List.nil_append]
  obtain rfl : pending = _ := Array.toList_inj.mp (loaded.trans (List.toList_toArray).symm)
  rw [dropped, ← rest]
  simp only [pull, filled, digest, full]
  split
  · exact ⟨rfl, rfl⟩
  · split <;> exact ⟨rfl, rfl⟩

end Converter

end Jukebox.Audio
