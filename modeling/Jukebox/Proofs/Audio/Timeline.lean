import Mathlib.Data.List.TakeWhile
import Jukebox.Audio.Wave
import Jukebox.Proofs.Audio.Decoding
/-!
# The timeline of a recording

The samples that a recording gives from its start make up its timeline. `Measured` says that a
reader keeps to it: the recording has as many frames as its length tells, and a seek lands on the
start of a packet, not behind the frame that was asked for. The reader of WAV files is such a one
for every sound that is all there (`Wave.Sound.Complete.measured`).
-/
namespace Jukebox.Audio

variable {α : Type}

namespace Recording

/-- The samples that the recording gives from its start. -/
def timeline (r : Recording α) : List α :=
  audible r.track r.pieces

def frames (r : Recording α) : Nat :=
  r.timeline.length / r.format.channels

/-- A recording of known length. It has the frames that the length is computed from, and a seek that
succeeds tells the frame that reading goes on at, which is not behind the one that was asked for. -/
structure Measured (r : Recording α) : Prop where
  channels_pos : 0 < r.format.channels
  rate_pos : 0 < r.format.rate
  whole : r.format.channels ∣ r.timeline.length
  length_eq : r.length = r.frames / r.format.rate
  lands : ∀ {target : Nat} {c c' : Cursor α}, r.seek target c = (.ok (), c') →
    c'.frame ≤ target ∧ c'.frame ≤ r.frames ∧
      audible r.track c'.rest = r.timeline.drop (c'.frame * r.format.channels)

theorem Measured.frames_mul {r : Recording α} (measured : r.Measured) :
    r.frames * r.format.channels = r.timeline.length :=
  Nat.div_mul_cancel measured.whole

end Recording

/-- Without a piece to stop at, everything is audible. -/
theorem audible_of_passed_all {track : Nat} {pieces : List (Piece α)}
    (passes : ∀ piece ∈ pieces, piece.stop? track = none) :
    audible track pieces = pieces.flatMap (Piece.samples track) := by
  have all : ∀ piece ∈ pieces, (piece.stop? track).isNone = true := fun piece there => by
    rw [passes piece there, Option.isNone_none]
  rw [audible, List.takeWhile_eq_self_iff.mpr all]

namespace Wave.Sound

/-- A sound is all there: it takes a known number of frames, which hold nothing but samples, and the
file does not end within it. -/
structure Complete (s : Sound) (bytes : Array UInt8) (frames : Nat) : Prop where
  channels_pos : 0 < s.shape.format.channels
  rate_pos : 0 < s.shape.format.rate
  block_eq : s.shape.block = s.shape.format.channels * s.shape.coding.width
  frames_eq : s.frames? = some frames
  inside : s.start + frames * s.shape.block ≤ bytes.size

def packetAt (s : Sound) (bytes : Array UInt8) (i : Nat) : Piece Float32 :=
  let width := packetFrames * s.shape.block
  .packet ⟨track, packetFrames, .samples
    (s.shape.coding.decodeFrames s.shape.format.channels packetFrames
      ((s.body bytes).extract (i * width) ((i + 1) * width)))⟩

/-- Parts of one width add up to the whole, of which the last one takes what is left. -/
theorem sum_parts (width whole count : Nat) :
    ((List.range count).map fun i => min width (whole - i * width)).sum =
      min (count * width) whole := by
  induction count with
  | zero => simp
  | succ count ih =>
    rw [List.range_succ, List.map_append, List.sum_append, ih, Nat.succ_mul]
    simp only [List.map_cons, List.map_nil, List.sum_cons, List.sum_nil]
    omega

namespace Complete

variable {s : Sound} {bytes : Array UInt8} {frames : Nat} (complete : s.Complete bytes frames)

include complete

theorem block_pos : 0 < s.shape.block := by
  rw [complete.block_eq]
  exact Nat.mul_pos complete.channels_pos s.shape.coding.width_pos

theorem body_size : (s.body bytes).size = frames * s.shape.block := by
  have inside := complete.inside
  rw [body, complete.frames_eq]
  simp only [Option.elim_some, Array.size_extract]
  omega

/-- The packets are as many as it takes for all frames. -/
theorem pieces_eq :
    s.pieces bytes = (List.range ((frames + (packetFrames - 1)) / packetFrames)).map
      (s.packetAt bytes) := by
  have block := complete.block_pos
  have count : (frames * s.shape.block + packetFrames * s.shape.block - 1) /
      (packetFrames * s.shape.block) = (frames + (packetFrames - 1)) / packetFrames := by
    rw [Nat.mul_comm packetFrames, ← Nat.div_div_eq_div_mul]
    congr 1
    rw [show frames * s.shape.block + s.shape.block * packetFrames - 1 =
      s.shape.block - 1 + s.shape.block * (frames + (packetFrames - 1)) by
        rw [packetFrames, Nat.mul_comm frames, Nat.mul_add]
        omega]
    rw [Nat.add_mul_div_left _ _ block, Nat.div_eq_of_lt (Nat.sub_one_lt block.ne'), Nat.zero_add]
  rw [pieces, if_neg block.ne']
  dsimp only
  rw [complete.body_size, count]
  rfl

/-- A packet has its full number of frames, but for the last one. -/
theorem samples_length (i : Nat) :
    ((s.packetAt bytes i).samples track).length =
      min packetFrames (frames - i * packetFrames) * s.shape.format.channels := by
  have block := complete.block_pos
  have part : ((s.body bytes).extract (i * (packetFrames * s.shape.block))
      ((i + 1) * (packetFrames * s.shape.block))).size / s.shape.block =
        min packetFrames (frames - i * packetFrames) := by
    have cut : min packetFrames (frames - i * packetFrames) * s.shape.block =
        min ((i + 1) * (packetFrames * s.shape.block)) (frames * s.shape.block) -
          i * (packetFrames * s.shape.block) := by
      rw [← Nat.mul_assoc, ← Nat.mul_assoc, Nat.mul_min_mul_right, ← Nat.sub_mul]
      congr 1
      rw [Nat.succ_mul]
      omega
    rw [Array.size_extract, complete.body_size, ← cut, Nat.mul_div_cancel _ block]
  have samples : (s.packetAt bytes i).samples track =
      (s.shape.coding.decodeFrames s.shape.format.channels packetFrames
        ((s.body bytes).extract (i * (packetFrames * s.shape.block))
          ((i + 1) * (packetFrames * s.shape.block)))).toList := rfl
  rw [samples, Array.length_toList, SampleCoding.decodeFrames, ← complete.block_eq, part]
  simp

/-- The samples of the first packets, as far as there are packets. -/
theorem samples_take (count : Nat) :
    (((List.range count).map (s.packetAt bytes)).flatMap (Piece.samples track)).length =
      min (count * packetFrames) frames * s.shape.format.channels := by
  rw [← sum_parts, ← List.sum_map_mul_right, List.length_flatMap, List.map_map]
  congr 1
  exact List.map_congr_left fun i _ => complete.samples_length i

theorem audible_drop (count : Nat) :
    audible track ((s.pieces bytes).drop count) =
      ((s.pieces bytes).drop count).flatMap (Piece.samples track) := by
  refine audible_of_passed_all fun piece there => ?_
  have member := List.mem_of_mem_drop there
  rw [complete.pieces_eq] at member
  obtain ⟨i, -, rfl⟩ := List.mem_map.mp member
  rfl

theorem timeline_eq :
    (s.recording bytes).timeline = (s.pieces bytes).flatMap (Piece.samples track) :=
  complete.audible_drop 0

theorem timeline_length :
    (s.recording bytes).timeline.length = frames * s.shape.format.channels := by
  rw [complete.timeline_eq, complete.pieces_eq, complete.samples_take]
  congr 1
  rw [packetFrames]
  omega

theorem frames_recording : (s.recording bytes).frames = frames := by
  rw [Recording.frames, complete.timeline_length]
  exact Nat.mul_div_cancel _ complete.channels_pos

/-- The reader lands on the packet that holds the target, or on the end. -/
theorem seek_eq {target : Nat} (inside : target ≤ frames) (c : Cursor Float32) :
    (s.recording bytes).seek target c =
      (.ok (), ⟨target / packetFrames * packetFrames,
        (s.pieces bytes).drop (target / packetFrames)⟩) := by
  have within : ¬s.frames?.any (· < target) = true := by
    rw [complete.frames_eq]
    simpa using inside
  exact (if_neg complete.block_pos.ne').trans (if_neg within)

theorem inside_of_seek {target : Nat} {c c' : Cursor Float32}
    (done : (s.recording bytes).seek target c = (.ok (), c')) : target ≤ frames := by
  by_contra beyond
  have refused : s.frames?.any (· < target) = true := by
    rw [complete.frames_eq]
    simpa using beyond
  have failed : (s.recording bytes).seek target c = (.error _, c) :=
    (if_neg complete.block_pos.ne').trans (if_pos refused)
  cases failed.symm.trans done

/-- Behind a whole number of packets, the timeline goes on with the next packet. -/
theorem audible_behind {count : Nat} (inside : count * packetFrames ≤ frames) :
    audible track ((s.pieces bytes).drop count) =
      (s.recording bytes).timeline.drop (count * packetFrames * s.shape.format.channels) := by
  have there : count ≤ (frames + (packetFrames - 1)) / packetFrames :=
    (Nat.le_div_iff_mul_le (by decide)).mpr (by omega)
  have first : (((s.pieces bytes).take count).flatMap (Piece.samples track)).length =
      count * packetFrames * s.shape.format.channels := by
    rw [complete.pieces_eq, ← List.map_take, List.take_range, Nat.min_eq_left there,
      complete.samples_take, Nat.min_eq_left inside]
  rw [complete.audible_drop, complete.timeline_eq]
  conv_rhs => rw [← List.take_append_drop count (s.pieces bytes), List.flatMap_append]
  exact (List.drop_left' first).symm

/-- The reader of a sound that is all there keeps to the timeline. -/
theorem measured : (s.recording bytes).Measured where
  channels_pos := complete.channels_pos
  rate_pos := complete.rate_pos
  whole := ⟨frames, complete.timeline_length.trans (Nat.mul_comm _ _)⟩
  length_eq := by
    rw [complete.frames_recording, recording, complete.frames_eq]
    rfl
  lands := by
    intro target c c' done
    have inside := complete.inside_of_seek done
    rw [complete.seek_eq inside] at done
    cases done
    have before : target / packetFrames * packetFrames ≤ target := Nat.div_mul_le_self _ _
    rw [complete.frames_recording]
    exact ⟨before, before.trans inside, complete.audible_behind (before.trans inside)⟩

end Complete

end Wave.Sound

end Jukebox.Audio
