import Jukebox.Proofs.Audio.Timeline
/-!
# The position of a decoder

The samples of a recording make up its timeline, and a decoder counts the frames that it gives out
along it. A seek goes to the packet that holds the frame that was asked for, yet the count goes on
from that frame itself. So from then on the count is ahead of the reader, by what the reader fell
short of its target, until the next seek. `Run` carries this number along the calls of an open
file, and `run_position` says that nothing else comes between the count and the reader. Where the
number is zero, the position is true and stays within the length.
-/
namespace Jukebox.Audio

variable {α : Type}

inductive Access where
  | read (frames : Nat)
  | seek (seconds : Nat)

namespace Decoder

/-- Calls one after the other, each made where the last one has left off. With them goes how far the
count of frames is ahead of the reader. A seek sets this to what the reader fell short of its
target. A seek that fails leaves it, but if the reader has moved for it, nothing is known until the
next seek. -/
inductive Run (d : Decoder α) : List Access → Option Nat → Decoder α → Prop
  | opened : Run d [] (some 0) d
  | read {calls : List Access} {ahead : Option Nat} {d' : Decoder α} (before : Run d calls ahead d')
      (frames : Nat) :
      Run d (calls ++ [.read frames]) ahead (d'.read (frames * d'.recording.format.channels)).2
  | landed {calls : List Access} {ahead : Option Nat} {d' d'' : Decoder α} {seconds : Nat}
      (before : Run d calls ahead d') (done : d'.seek seconds = (.ok (), d'')) :
      Run d (calls ++ [.seek seconds])
        (some (seconds * d'.recording.format.rate - d''.cursor.frame)) d''
  | failed {calls : List Access} {ahead : Option Nat} {d' d'' : Decoder α} {seconds : Nat}
      {fault : Fault} (before : Run d calls ahead d')
      (failed : d'.seek seconds = (.error fault, d'')) (stays : d''.cursor = d'.cursor) :
      Run d (calls ++ [.seek seconds]) ahead d''
  | strayed {calls : List Access} {ahead : Option Nat} {d' d'' : Decoder α} {seconds : Nat}
      {fault : Fault} (before : Run d calls ahead d')
      (failed : d'.seek seconds = (.error fault, d'')) (moved : d''.cursor ≠ d'.cursor) :
      Run d (calls ++ [.seek seconds]) none d''

/-- Any calls can be made. -/
theorem Run.total (d : Decoder α) (calls : List Access) : ∃ ahead d', Run d calls ahead d' := by
  induction calls using List.reverseRecOn with
  | nil => exact ⟨some 0, d, .opened⟩
  | append_singleton calls call ih =>
    obtain ⟨ahead, d', before⟩ := ih
    cases call with
    | read frames => exact ⟨ahead, _, .read before frames⟩
    | seek seconds =>
      rcases result : d'.seek seconds with ⟨fault | _, d''⟩
      · by_cases stays : d''.cursor = d'.cursor
        · exact ⟨ahead, d'', .failed before result stays⟩
        · exact ⟨none, d'', .strayed before result stays⟩
      · exact ⟨_, d'', .landed before result⟩

/-- Where a decoder stands on the timeline of its recording: so many frames were given out or
passed over, and what is owed is the rest. -/
structure StandsAt (r : Recording α) (frame : Nat) (d : Decoder α) : Prop where
  recording_eq : d.recording = r
  inside : frame ≤ r.frames
  owed_eq : d.owed = r.timeline.drop (frame * r.format.channels)

/-- Collecting samples changes neither the recording nor the count. -/
theorem collect_keeps (d : Decoder α) (wanted : Nat) (collected : Array α) :
    (d.collect wanted collected).2.recording = d.recording ∧
      (d.collect wanted collected).2.framesRead = d.framesRead := by
  induction d, collected using Decoder.collect.induct wanted with
  | case1 d collected got taken took all settled =>
    rw [collect_of_settled took settled]
    cases took
    exact ⟨rfl, rfl⟩
  | case2 d collected got taken took all unsettled status cursor last =>
    rw [collect_of_last took unsettled last]
    cases took
    exact ⟨rfl, rfl⟩
  | case3 d collected got taken took all unsettled s cursor more ih =>
    rw [collect_of_next took unsettled more]
    cases took
    exact ih

section StandsAt

variable {r : Recording α} {frame : Nat} {d : Decoder α}

/-- What is owed is whole frames, those that the timeline still has. -/
theorem StandsAt.owed_length (measured : r.Measured) (stands : StandsAt r frame d) :
    d.owed.length = (r.frames - frame) * r.format.channels := by
  rw [stands.owed_eq, List.length_drop, ← measured.frames_mul, Nat.sub_mul]

theorem StandsAt.position_eq (measured : r.Measured) (stands : StandsAt r frame d) :
    d.position = d.framesRead / r.format.rate := by
  rw [position, stands.recording_eq, Nat.max_eq_left measured.rate_pos]

theorem standsAt_start (path : Storage.Path) (r : Recording α) : StandsAt r 0 (start path r) where
  recording_eq := rfl
  inside := Nat.zero_le _
  owed_eq := by
    rw [Nat.zero_mul, List.drop_zero]
    rfl

/-- A read goes on by the frames that it gives, and so does the count. -/
theorem StandsAt.read (measured : r.Measured) (stands : StandsAt r frame d) (wanted : Nat) :
    let read := d.read (wanted * r.format.channels)
    let given := min wanted (r.frames - frame)
    StandsAt r (frame + given) read.2 ∧ read.2.framesRead = d.framesRead + given := by
  intro read given
  have gives := d.read_gives (wanted * r.format.channels)
  have keeps := d.collect_keeps (wanted * r.format.channels) #[]
  have size : read.1.size = given * r.format.channels := by
    rw [← Array.length_toList, gives.given_eq, List.length_take, stands.owed_length measured,
      Nat.mul_min_mul_right]
  have count : read.2.framesRead =
      (d.collect (wanted * r.format.channels) #[]).2.framesRead + read.1.size /
        max (d.collect (wanted * r.format.channels) #[]).2.recording.format.channels 1 := rfl
  have recording : read.2.recording =
      (d.collect (wanted * r.format.channels) #[]).2.recording := rfl
  rw [keeps.1, stands.recording_eq] at recording
  rw [keeps.1, keeps.2, stands.recording_eq, size, Nat.max_eq_left measured.channels_pos,
    Nat.mul_div_cancel _ measured.channels_pos] at count
  have inside := stands.inside
  refine ⟨⟨recording, by omega, ?_⟩, count⟩
  -- a read that wants more than there is leaves the end of the timeline
  rw [gives.owed_eq, stands.owed_eq, List.drop_drop, ← Nat.add_mul]
  rcases Nat.le_total wanted (r.frames - frame) with covered | short
  · rw [show given = wanted from Nat.min_eq_left covered]
  · have beyond : r.timeline.length ≤ (frame + wanted) * r.format.channels := by
      rw [← measured.frames_mul]
      exact Nat.mul_le_mul_right _ (by omega)
    have all : (frame + given) * r.format.channels = r.timeline.length := by
      rw [show frame + given = r.frames by omega, measured.frames_mul]
    rw [List.drop_eq_nil_of_le beyond, all, List.drop_length]

/-- A seek that succeeds puts the count at its target, and the decoder where the reader landed. -/
theorem standsAt_of_seek (measured : r.Measured) (own : d.recording = r) {seconds : Nat}
    {d' : Decoder α} (done : d.seek seconds = (.ok (), d')) :
    StandsAt r d'.cursor.frame d' ∧ d'.cursor.frame ≤ seconds * r.format.rate ∧
      d'.framesRead = seconds * r.format.rate := by
  subst own
  unfold seek at done
  split at done
  · cases done
  · dsimp only at done
    split at done
    · cases done
    · rename_i cursor reached
      cases done
      obtain ⟨before, inside, there⟩ := measured.lands reached
      exact ⟨⟨rfl, inside, there⟩, before, rfl⟩

theorem seek_of_landed {seconds : Nat} {cursor : Cursor α}
    (allowed : ¬(0 < d.recording.length ∧ d.recording.length < seconds))
    (landed : d.recording.seek (seconds * d.recording.format.rate) d.cursor = (.ok (), cursor)) :
    ∃ d', d.seek seconds = (.ok (), d') ∧ d'.recording = d.recording ∧ d'.cursor = cursor := by
  rw [seek, if_neg allowed]
  dsimp only
  rw [landed]
  exact ⟨_, rfl, rfl, rfl⟩

/-- A seek that fails can move no more than the reader. -/
theorem eq_of_seek_failed {seconds : Nat} {fault : Fault} {d' : Decoder α}
    (failed : d.seek seconds = (.error fault, d')) : d' = { d with cursor := d'.cursor } := by
  unfold seek at failed
  split at failed
  · cases failed
    rfl
  · dsimp only at failed
    split at failed <;> cases failed
    rfl

end StandsAt

/-- A run keeps the recording. As long as it is known how far the count is ahead, the decoder stands
that much before it. -/
theorem Run.stands {r : Recording α} (measured : r.Measured) {path : Storage.Path}
    {calls : List Access} {ahead : Option Nat} {d : Decoder α}
    (run : Run (start path r) calls ahead d) :
    d.recording = r ∧
      ∀ n, ahead = some n → ∃ frame, StandsAt r frame d ∧ d.framesRead = frame + n := by
  induction run with
  | opened =>
    refine ⟨rfl, ?_⟩
    rintro n ⟨⟩
    exact ⟨0, standsAt_start path r, rfl⟩
  | @read calls ahead d before frames ih =>
    obtain ⟨own, placed⟩ := ih
    rw [own]
    have same : (d.read (frames * r.format.channels)).2.recording = r :=
      (d.collect_keeps (frames * r.format.channels) #[]).1.trans own
    refine ⟨same, fun n known => ?_⟩
    obtain ⟨frame, stands, count⟩ := placed n known
    obtain ⟨later, counted⟩ := stands.read measured frames
    exact ⟨_, later, by omega⟩
  | @landed calls ahead d d' seconds before done ih =>
    obtain ⟨stands, behind, count⟩ := standsAt_of_seek measured ih.1 done
    refine ⟨stands.recording_eq, ?_⟩
    rintro n ⟨⟩
    refine ⟨d'.cursor.frame, stands, ?_⟩
    rw [ih.1]
    omega
  | @failed calls ahead d d' seconds fault before failed stays ih =>
    rw [eq_of_seek_failed failed, stays]
    exact ih
  | @strayed calls ahead d d' seconds fault before failed moved ih =>
    rw [eq_of_seek_failed failed]
    exact ⟨ih.1, nofun⟩

/-- The position of an open file in every run of its calls. By the number that `Run` carries, the
count of frames is ahead of the frame that is delivered next, which every read from there shows. So
the count is true exactly if the number is zero, that is before the first seek, and after one that
landed on its very target. Then the position is the second of that frame, and not beyond the
length. -/
theorem run_position {r : Recording α} (measured : r.Measured) {path : Storage.Path}
    {calls : List Access} {ahead : Nat} {d : Decoder α}
    (run : Run (start path r) calls (some ahead) d) :
    ∃ frame ≤ r.frames,
      (∀ wanted, (d.read (wanted * r.format.channels)).1.toList =
        (r.timeline.drop (frame * r.format.channels)).take (wanted * r.format.channels)) ∧
      d.framesRead = frame + ahead ∧
      (ahead = 0 → d.position = frame / r.format.rate ∧ d.position ≤ r.length) := by
  obtain ⟨own, placed⟩ := run.stands measured
  obtain ⟨frame, stands, count⟩ := placed ahead rfl
  refine ⟨frame, stands.inside, fun wanted => ?_, count, ?_⟩
  · rw [(d.read_gives _).given_eq, stands.owed_eq]
  · rintro rfl
    have position : d.position = frame / r.format.rate := by
      rw [stands.position_eq measured, count, Nat.add_zero]
    refine ⟨position, ?_⟩
    rw [position, measured.length_eq]
    exact Nat.div_le_div_right stands.inside

/-- So many frames of a telephone line, as a WAV file has them. -/
def lineSound (frames : Nat) : Wave.Sound :=
  ⟨⟨⟨8000, 1⟩, .signed16, 2⟩, 44, some (frames * 2)⟩

def lineBytes (frames : Nat) : Array UInt8 :=
  .replicate (44 + frames * 2) 0

theorem line_complete (frames : Nat) : (lineSound frames).Complete (lineBytes frames) frames where
  channels_pos := Nat.one_pos
  rate_pos := (by decide : 0 < 8000)
  block_eq := rfl
  frames_eq := congrArg some (Nat.mul_div_cancel frames (by decide))
  inside := by simp [lineSound, lineBytes]

def line (frames : Nat) : Decoder Float32 :=
  start (.ofString "line.wav") ((lineSound frames).recording (lineBytes frames))

theorem line_measured (frames : Nat) : (line frames).recording.Measured :=
  (line_complete frames).measured

theorem line_frames (frames : Nat) : (line frames).recording.frames = frames :=
  (line_complete frames).frames_recording

theorem line_length (frames : Nat) : (line frames).recording.length = frames / 8000 := by
  rw [(line_measured frames).length_eq, line_frames]
  rfl

/-- A seek within the line lands on the start of a packet. -/
theorem line_seek (frames seconds : Nat) (inside : seconds * 8000 ≤ frames) :
    ∃ d, (line frames).seek seconds = (.ok (), d) ∧ d.recording = (line frames).recording ∧
      d.cursor.frame = seconds * 8000 / 1152 * 1152 := by
  have allowed : ¬(0 < (line frames).recording.length ∧
      (line frames).recording.length < seconds) := by
    rw [line_length]
    omega
  obtain ⟨d, done, same, there⟩ :=
    seek_of_landed allowed ((line_complete frames).seek_eq inside _)
  exact ⟨d, done, same, by rw [there]; rfl⟩

/-- The eighteenth second is the start of a packet, and after a seek there the position is true. -/
theorem line_position_true :
    ∃ d, Run (line 160000) [.seek 18, .read 8000] (some 0) d ∧
      d.framesRead = 152000 ∧ d.position = 19 ∧ d.position ≤ (line 160000).recording.length := by
  have measured := line_measured 160000
  obtain ⟨d, done, -, there⟩ := line_seek 160000 18 (by decide)
  obtain ⟨stands, -, target⟩ := standsAt_of_seek measured rfl done
  have read : (d.read 8000).2.framesRead = 18 * 8000 + min 8000 (_ - d.cursor.frame) :=
    target ▸ (stands.read measured 8000).2
  rw [line_frames, there] at read
  have run := (Run.opened.landed done).read 8000
  rw [there, stands.recording_eq] at run
  obtain ⟨frame, -, -, count, true_there⟩ := run_position measured run
  obtain ⟨position, within⟩ := true_there rfl
  have same : (d.read 8000).2.framesRead = frame := count
  refine ⟨_, run, read, ?_, within⟩
  rw [position, ← same, read]
  rfl

/-- A line of less than two seconds. The seek to its first second lands before it and reading goes
on there, yet the frames are counted from the second on, so that the position comes to be beyond
the length. -/
theorem line_position_beyond :
    (line 15500).recording.Measured ∧
    ∃ d, (line 15500).seek 1 = (.ok (), d) ∧ d.framesRead = 8000 ∧
      (∀ wanted, (d.read wanted).1.toList =
        ((line 15500).recording.timeline.drop 6912).take wanted) ∧
      (d.read 20000).1.size = 8588 ∧ (line 15500).recording.length = 1 ∧
      (d.read 20000).2.position = 2 := by
  have measured := line_measured 15500
  obtain ⟨d, done, -, there⟩ := line_seek 15500 1 (by decide)
  obtain ⟨stands, -, target⟩ := standsAt_of_seek measured rfl done
  have reads (wanted : Nat) : (d.read wanted).1.toList =
      ((line 15500).recording.timeline.drop 6912).take wanted := by
    rw [(d.read_gives wanted).given_eq, stands.owed_eq, there]
    rfl
  have size : (line 15500).recording.timeline.length = 15500 :=
    (line_complete 15500).timeline_length
  obtain ⟨later, counted⟩ := stands.read measured 20000
  have count : (d.read 20000).2.framesRead = d.framesRead + min 20000 (_ - d.cursor.frame) :=
    counted
  rw [line_frames, there, target] at count
  refine ⟨measured, d, done, target, reads, ?_, line_length 15500, ?_⟩
  · rw [← Array.length_toList, reads, List.length_take, List.length_drop, size]
    rfl
  · have position : (d.read 20000).2.position = (d.read 20000).2.framesRead / _ :=
      later.position_eq measured
    rw [position, count]
    rfl

end Decoder

end Jukebox.Audio
