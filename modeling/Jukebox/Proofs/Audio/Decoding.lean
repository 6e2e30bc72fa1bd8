import Mathlib.Tactic
import Jukebox.Audio.Decoder
/-!
# What a decoder gives out

The samples of a recording are those of its track's packets, up to where reading stops: at a packet
that the codec gives up on, at a place that cannot be read, or at the end of the file. Damaged
packets, empty ones and those of other tracks add nothing.

At any time a decoder owes the rest of the packet at hand and, while it is playing, what is ahead.
`Gives` says what a read makes of this debt: it is paid from the front, in full if it covers what
was wanted, and the status changes only in a read that the debt does not cover. Reads compose, so
the same holds of any run of reads (`reads_give`).
-/
namespace Jukebox.Audio

variable {α : Type}

/-- The status that reading stops with at a piece, if it stops there. -/
def Piece.stop? (track : Nat) : Piece α → Option FileStatus
  | .unreadable => some .failed
  | .cutShort _ => some .ended
  | .packet p =>
    match p.content with
    | .fatal => if p.track = track then some .failed else none
    | _ => none

def Piece.samples (track : Nat) : Piece α → List α
  | .packet p =>
    match p.content with
    | .samples s => if p.track = track then s.toList else []
    | _ => []
  | _ => []

/-- The samples of a track up to where reading stops. -/
def audible (track : Nat) (pieces : List (Piece α)) : List α :=
  (pieces.takeWhile fun piece => (piece.stop? track).isNone).flatMap (Piece.samples track)

/-- The status that reading stops with. -/
def ending (track : Nat) (pieces : List (Piece α)) : FileStatus :=
  (pieces.findSome? (Piece.stop? track)).getD .ended

section Pieces

variable {track frame : Nat} {piece : Piece α} {pieces : List (Piece α)} {next : Cursor α}

theorem audible_of_stop {status : FileStatus} (stops : piece.stop? track = some status) :
    audible track (piece :: pieces) = [] := by
  simp [audible, stops]

theorem ending_of_stop {status : FileStatus} (stops : piece.stop? track = some status) :
    ending track (piece :: pieces) = status := by
  simp [ending, stops]

theorem audible_of_passed (passes : piece.stop? track = none) :
    audible track (piece :: pieces) = piece.samples track ++ audible track pieces := by
  simp [audible, passes]

theorem ending_of_passed (passes : piece.stop? track = none) :
    ending track (piece :: pieces) = ending track pieces := by
  simp [ending, passes]

theorem ending_ne_playing (track : Nat) (pieces : List (Piece α)) :
    ending track pieces ≠ .playing := by
  induction pieces with
  | nil => rintro ⟨⟩
  | cons piece rest ih =>
    cases stops : piece.stop? track with
    | none => rwa [ending_of_passed stops]
    | some status =>
      rw [ending_of_stop stops]
      rintro rfl
      unfold Piece.stop? at stops
      split at stops
      · cases stops
      · cases stops
      · split at stops
        · split at stops <;> cases stops
        · cases stops

/-- Reading on passes over pieces without samples and comes to the next packet that has them, or to
where reading stops. -/
theorem advance_spec (track frame : Nat) (pieces : List (Piece α)) :
    match advance track frame pieces with
    | .samples s next =>
      audible track pieces = s.toList ++ audible track next.rest ∧
        ending track pieces = ending track next.rest
    | .stopped status _ => audible track pieces = [] ∧ ending track pieces = status := by
  induction pieces generalizing frame with
  | nil => exact ⟨rfl, rfl⟩
  | cons piece rest ih =>
    rcases piece with ⟨other, frames, content⟩ | _ | frames
    · by_cases own : other = track
      · cases content with
        | samples s =>
          have passes : (Piece.packet ⟨other, frames, .samples s⟩).stop? track = none := rfl
          simp only [advance, if_pos own]
          rw [audible_of_passed passes, ending_of_passed passes]
          simp [Piece.samples, own]
        | damaged =>
          have passes : (Piece.packet ⟨other, frames, .damaged⟩ : Piece α).stop? track = none := rfl
          simp only [advance, if_pos own]
          rw [audible_of_passed passes, ending_of_passed passes]
          exact ih (frame + frames)
        | fatal =>
          have stops : (Piece.packet ⟨other, frames, .fatal⟩ : Piece α).stop? track =
              some .failed := if_pos own
          simp only [advance, if_pos own]
          exact ⟨audible_of_stop stops, ending_of_stop stops⟩
      · have passes : (Piece.packet ⟨other, frames, content⟩).stop? track = none := by
          cases content <;> simp [Piece.stop?, own]
        have foreign : (Piece.packet ⟨other, frames, content⟩).samples track = [] := by
          cases content <;> simp [Piece.samples, own]
        simp only [advance, if_neg own]
        rw [audible_of_passed passes, ending_of_passed passes, foreign]
        exact ih (frame + frames)
    · exact ⟨audible_of_stop rfl, ending_of_stop rfl⟩
    · exact ⟨audible_of_stop rfl, ending_of_stop rfl⟩

end Pieces

namespace Decoder

/-- The samples of the recording that lie ahead of the reader. -/
def ahead (d : Decoder α) : List α :=
  audible d.recording.track d.cursor.rest

/-- The status that the recording ahead of the reader ends with. -/
def outcome (d : Decoder α) : FileStatus :=
  ending d.recording.track d.cursor.rest

/-- The samples of the packet at hand that were not given out. -/
def waiting (d : Decoder α) : List α :=
  d.pending.toList.drop d.offset

/-- The samples that are still to be given out. -/
def owed (d : Decoder α) : List α :=
  d.waiting ++ if d.status = .playing then d.ahead else []

structure Gives (d : Decoder α) (wanted : Nat) (given : List α) (d' : Decoder α) : Prop where
  given_eq : given = d.owed.take wanted
  owed_eq : d'.owed = d.owed.drop wanted
  status_eq : d'.status =
    if d.status = .playing ∧ d.owed.length < wanted then d.outcome else d.status
  outcome_eq : d'.status = .playing → d'.outcome = d.outcome

namespace Gives

variable {d d' d'' : Decoder α} {wanted more : Nat} {given later : List α}

/-- Nothing that is wanted is given. -/
theorem nothing (d : Decoder α) : Gives d 0 [] d where
  given_eq := rfl
  owed_eq := rfl
  status_eq := by rw [if_neg fun short => Nat.not_lt_zero _ short.2]
  outcome_eq _ := rfl

/-- A decoder that has stopped does not start again. -/
theorem stopped (gives : Gives d wanted given d') (still : d.status ≠ .playing) :
    d'.status = d.status := by
  rw [gives.status_eq, if_neg fun short => still short.1]

/-- What falls short ends the recording. -/
theorem of_short (gives : Gives d wanted given d') (running : d.status = .playing)
    (short : d.owed.length < wanted) : d'.status = d.outcome := by
  rw [gives.status_eq, if_pos ⟨running, short⟩]

/-- What is covered leaves the status alone. -/
theorem of_covered (gives : Gives d wanted given d') (covered : wanted ≤ d.owed.length) :
    d'.status = d.status := by
  rw [gives.status_eq, if_neg fun short => Nat.not_lt.mpr covered short.2]

theorem trans (first : Gives d wanted given d') (second : Gives d' more later d'') :
    Gives d (wanted + more) (given ++ later) d'' where
  given_eq := by
    rw [first.given_eq, second.given_eq, first.owed_eq, ← List.take_add]
  owed_eq := by rw [second.owed_eq, first.owed_eq, List.drop_drop]
  status_eq := by
    have left : d'.owed.length = d.owed.length - wanted := by
      rw [first.owed_eq, List.length_drop]
    by_cases running : d.status = .playing
    · by_cases short : d.owed.length < wanted
      · have ended := first.of_short running short
        have still : d'.status ≠ .playing := ended ▸ ending_ne_playing _ _
        rw [second.stopped still, ended, if_pos ⟨running, by omega⟩]
      · have going := first.of_covered (Nat.le_of_not_lt short)
        rw [second.status_eq, first.outcome_eq (going.trans running), going, left]
        congr 1
        simp only [running, true_and, eq_iff_iff]
        omega
    · have still := first.stopped running
      rw [second.stopped (still ▸ running), still, if_neg fun short => running short.1]
  outcome_eq going := by
    by_cases running : d'.status = .playing
    · rw [second.outcome_eq going, first.outcome_eq running]
    · rw [second.stopped running] at going
      exact absurd going running

end Gives

variable {d : Decoder α}

theorem takePending_given (d : Decoder α) (wanted : Nat) :
    (d.takePending wanted).1.toList = d.waiting.take wanted := by
  simp [takePending, waiting, Array.toList_extract, List.extract_eq_take_drop]

theorem takePending_waiting (d : Decoder α) (wanted : Nat) :
    (d.takePending wanted).2.waiting = d.waiting.drop wanted := by
  have size : (d.takePending wanted).1.size = min wanted d.waiting.length := by
    rw [← Array.length_toList, takePending_given, List.length_take]
  have offset : (d.takePending wanted).2.waiting =
      d.pending.toList.drop (d.offset + (d.takePending wanted).1.size) := rfl
  rw [offset, size, ← List.drop_drop]
  rcases Nat.le_total wanted d.waiting.length with enough | short
  · rw [Nat.min_eq_left enough]
    rfl
  · rw [Nat.min_eq_right short, List.drop_eq_nil_of_le short]
    exact List.drop_length

/-- What a decoder that plays owes comes from the packet at hand first. -/
theorem owed_of_playing (running : d.status = .playing) : d.owed = d.waiting ++ d.ahead := by
  rw [owed, if_pos running]

theorem owed_of_stopped (still : d.status ≠ .playing) : d.owed = d.waiting := by
  rw [owed, if_neg still, List.append_nil]

/-- A read that the packet at hand covers, and one of a decoder that has stopped. -/
theorem gives_takePending {wanted : Nat}
    (settled : wanted ≤ d.waiting.length ∨ d.status ≠ .playing) :
    Gives d wanted (d.takePending wanted).1.toList (d.takePending wanted).2 where
  given_eq := by
    rw [takePending_given]
    rcases settled with covered | still
    · rw [owed, List.take_append_of_le_length covered]
    · rw [owed_of_stopped still]
  owed_eq := by
    have debt : (d.takePending wanted).2.owed =
        (d.takePending wanted).2.waiting ++ if d.status = .playing then d.ahead else [] := rfl
    rw [debt, takePending_waiting]
    rcases settled with covered | still
    · rw [owed, List.drop_append_of_le_length covered]
    · rw [owed_of_stopped still, if_neg still, List.append_nil]
  status_eq := by
    refine (if_neg ?_).symm
    rintro ⟨running, short⟩
    rcases settled with covered | still
    · rw [owed, List.length_append] at short
      omega
    · exact still running
  outcome_eq _ := rfl

/-- Where the packet at hand is used up, the next one of the track is taken. -/
theorem gives_next {s : Array α} {cursor : Cursor α} {taken : Decoder α}
    (running : d.status = .playing)
    (more : advance d.recording.track d.cursor.frame d.cursor.rest = .samples s cursor)
    (same : taken.recording = d.recording) (still : taken.status = d.status) :
    Gives d d.waiting.length d.waiting { taken with pending := s, offset := 0, cursor } := by
  have spec := advance_spec d.recording.track d.cursor.frame d.cursor.rest
  rw [more] at spec
  have debt : owed { taken with pending := s, offset := 0, cursor } = d.ahead := by
    rw [owed, if_pos (still.trans running), ahead, ahead, same, spec.1]
    rfl
  have whole := owed_of_playing running
  refine ⟨?_, ?_, ?_, fun _ => ?_⟩
  · rw [whole, List.take_left]
  · rw [debt, whole, List.drop_left]
  · rw [whole, List.length_append, if_neg (by omega)]
    exact still
  · rw [outcome, outcome, spec.2, ← same]

/-- Where the packet at hand is used up and there is no other, what is owed falls short. -/
theorem gives_last {status : FileStatus} {cursor : Cursor α} {taken : Decoder α} {wanted : Nat}
    (running : d.status = .playing)
    (none_left : advance d.recording.track d.cursor.frame d.cursor.rest = .stopped status cursor)
    (used : taken.waiting = []) (short : d.waiting.length < wanted) :
    Gives d wanted d.waiting { taken with status, cursor } := by
  have spec := advance_spec d.recording.track d.cursor.frame d.cursor.rest
  rw [none_left] at spec
  have ended : status = d.outcome := spec.2.symm
  have still : status ≠ .playing := ended ▸ ending_ne_playing _ _
  have whole : d.owed = d.waiting := by
    rw [owed_of_playing running, ahead, spec.1, List.append_nil]
  have paid : owed { taken with status, cursor } = [] :=
    (owed_of_stopped (d := { taken with status, cursor }) still).trans used
  refine ⟨?_, ?_, ?_, fun going => absurd going still⟩
  · rw [whole, List.take_of_length_le (Nat.le_of_lt short)]
  · rw [paid, whole, List.drop_eq_nil_of_le (Nat.le_of_lt short)]
  · rw [whole, if_pos ⟨running, short⟩]
    exact ended

section Collect

variable {wanted : Nat} {collected got : Array α} {taken : Decoder α}
  (took : d.takePending (wanted - collected.size) = (got, taken))

include took

theorem collect_of_settled (settled : wanted ≤ (collected ++ got).size ∨ d.status ≠ .playing) :
    d.collect wanted collected = (collected ++ got, taken) := by
  rw [collect, took]
  exact if_pos settled

theorem collect_of_last {status : FileStatus} {cursor : Cursor α}
    (unsettled : ¬(wanted ≤ (collected ++ got).size ∨ d.status ≠ .playing))
    (none_left : advance d.recording.track d.cursor.frame d.cursor.rest = .stopped status cursor) :
    d.collect wanted collected = (collected ++ got, { taken with status, cursor }) := by
  rw [collect, took]
  refine (if_neg unsettled).trans ?_
  split
  · rename_i ahead
    cases none_left.symm.trans ahead
    rfl
  · rename_i ahead
    cases none_left.symm.trans ahead

theorem collect_of_next {s : Array α} {cursor : Cursor α}
    (unsettled : ¬(wanted ≤ (collected ++ got).size ∨ d.status ≠ .playing))
    (more : advance d.recording.track d.cursor.frame d.cursor.rest = .samples s cursor) :
    d.collect wanted collected =
      collect { taken with pending := s, offset := 0, cursor } wanted (collected ++ got) := by
  rw [collect, took]
  refine (if_neg unsettled).trans ?_
  split
  · rename_i ahead
    cases more.symm.trans ahead
  · rename_i ahead
    cases more.symm.trans ahead
    rfl

end Collect

/-- Collecting samples pays what is owed until enough are collected. -/
theorem collect_gives (d : Decoder α) {wanted : Nat} {collected : Array α}
    (room : collected.size ≤ wanted) :
    ∃ given, (d.collect wanted collected).1.toList = collected.toList ++ given ∧
      Gives d (wanted - collected.size) given (d.collect wanted collected).2 := by
  induction left : d.cursor.rest.length using Nat.strong_induction_on generalizing d collected with
  | _ n ih =>
    have given_eq := takePending_given d (wanted - collected.size)
    have waiting_eq := takePending_waiting d (wanted - collected.size)
    have settles (settled : wanted - collected.size ≤ d.waiting.length ∨ d.status ≠ .playing) :=
      gives_takePending settled
    rcases took : d.takePending (wanted - collected.size) with ⟨got, taken⟩
    simp only [took] at given_eq waiting_eq settles
    have size_eq : (collected ++ got).size =
        collected.size + min (wanted - collected.size) d.waiting.length := by
      rw [Array.size_append, ← got.length_toList, given_eq, List.length_take]
    by_cases settled : wanted ≤ (collected ++ got).size ∨ d.status ≠ .playing
    · rw [collect_of_settled took settled]
      exact ⟨got.toList, Array.toList_append, settles (settled.imp_left (by omega))⟩
    -- the packet at hand is used up and does not suffice
    obtain ⟨short, running⟩ := not_or.mp settled
    rw [ne_eq, not_not] at running
    have less : d.waiting.length < wanted - collected.size := by omega
    rw [List.take_of_length_le (Nat.le_of_lt less)] at given_eq
    rw [List.drop_eq_nil_of_le (Nat.le_of_lt less)] at waiting_eq
    have kept : taken = { d with offset := d.offset + got.size } := by
      cases took
      rfl
    cases next : advance d.recording.track d.cursor.frame d.cursor.rest with
    | stopped status cursor =>
      rw [collect_of_last took settled next]
      refine ⟨d.waiting, ?_, gives_last running next waiting_eq less⟩
      rw [Array.toList_append, given_eq]
    | samples s cursor =>
      rw [collect_of_next took settled next]
      have first : Gives d d.waiting.length d.waiting
          { taken with pending := s, offset := 0, cursor } :=
        gives_next running next (by rw [kept]) (by rw [kept])
      have room' : (collected ++ got).size ≤ wanted := by omega
      obtain ⟨given, eq, later⟩ := ih _ (left ▸ length_lt_of_advance next)
        { taken with pending := s, offset := 0, cursor } room' rfl
      refine ⟨d.waiting ++ given, ?_, ?_⟩
      · rw [eq, Array.toList_append, given_eq, List.append_assoc]
      · rw [show wanted - collected.size =
          d.waiting.length + (wanted - (collected ++ got).size) by omega]
        exact first.trans later

/-- A read gives what is owed from the front. -/
theorem read_gives (d : Decoder α) (wanted : Nat) :
    Gives d wanted (d.read wanted).1.toList (d.read wanted).2 := by
  have room : (#[] : Array α).size ≤ wanted := Nat.zero_le wanted
  obtain ⟨given, eq, gives⟩ := d.collect_gives room
  have same : (d.read wanted).1.toList = given := eq
  rw [same]
  -- counting frames does not change what is owed
  exact ⟨gives.given_eq, gives.owed_eq, gives.status_eq, gives.outcome_eq⟩

/-- Reads one after the other, and all the samples that they give. -/
def reads (d : Decoder α) : List Nat → List α × Decoder α
  | [] => ([], d)
  | wanted :: rest =>
    let (got, d) := d.read wanted
    let (more, d) := reads d rest
    (got.toList ++ more, d)

/-- Reads give what one of their size gives. -/
theorem reads_give (d : Decoder α) (sizes : List Nat) :
    Gives d sizes.sum (d.reads sizes).1 (d.reads sizes).2 := by
  induction sizes generalizing d with
  | nil => exact .nothing d
  | cons wanted rest ih =>
    rw [List.sum_cons]
    exact (d.read_gives wanted).trans (ih _)

/-- A decoder whose debt fell short has paid all of it and has stopped. -/
theorem Gives.of_ended {wanted : Nat} {given : List α} {d' : Decoder α}
    (gives : Gives d wanted given d') (running : d.status = .playing)
    (ended : d'.status ≠ .playing) :
    d'.status = d.outcome ∧ given = d.owed ∧ d'.owed = [] := by
  have short : d.owed.length < wanted := by
    by_contra covered
    exact ended ((gives.of_covered (Nat.le_of_not_lt covered)).trans running)
  refine ⟨gives.of_short running short, ?_, ?_⟩
  · rw [gives.given_eq, List.take_of_length_le (Nat.le_of_lt short)]
  · rw [gives.owed_eq, List.drop_eq_nil_of_le (Nat.le_of_lt short)]

/-- Less than was wanted is given only if it is all that is owed. -/
theorem Gives.of_less {wanted : Nat} {given : List α} {d' : Decoder α}
    (gives : Gives d wanted given d') (less : given.length < wanted) :
    d.owed.length < wanted ∧ given = d.owed := by
  have short : d.owed.length < wanted := by
    rw [gives.given_eq, List.length_take] at less
    omega
  exact ⟨short, by rw [gives.given_eq, List.take_of_length_le (Nat.le_of_lt short)]⟩

/-- For every recording and every run of reads from its start, without seeks. What was given out is
a first part of the samples of the track. While any of them is still to come, the decoder is
playing; once it is not, all were given out, the status tells how the recording ended, and every
further read gives nothing and leaves the status. A read never gives more than was wanted, and one
that gives less has given the last samples, and then the status tells, too. -/
theorem start_reads (path : Storage.Path) (r : Recording α) (sizes : List Nat) :
    let run := (start path r).reads sizes
    run.1 <+: audible r.track r.pieces ∧
    (run.1 ≠ audible r.track r.pieces → run.2.status = .playing) ∧
    (run.2.status ≠ .playing →
      run.2.status = ending r.track r.pieces ∧ run.1 = audible r.track r.pieces ∧
      ∀ wanted, (run.2.read wanted).1 = #[] ∧ (run.2.read wanted).2.status = run.2.status) ∧
    ∀ wanted, (run.2.read wanted).1.size ≤ wanted ∧
      ((run.2.read wanted).1.size < wanted →
        run.1 ++ (run.2.read wanted).1.toList = audible r.track r.pieces ∧
        (run.2.read wanted).2.status = ending r.track r.pieces) := by
  intro run
  have running : (start path r).status = .playing := rfl
  have whole : (start path r).owed = audible r.track r.pieces := rfl
  have so_far : Gives (start path r) sizes.sum run.1 run.2 := reads_give _ sizes
  have next (wanted : Nat) := run.2.read_gives wanted
  have stops (ended : run.2.status ≠ .playing) := so_far.of_ended running ended
  refine ⟨?_, fun missing => ?_, fun ended => ?_, fun wanted => ⟨?_, fun less => ?_⟩⟩
  · rw [so_far.given_eq, whole]
    exact List.take_prefix _ _
  · by_contra ended
    exact missing (stops ended).2.1
  · obtain ⟨told, all, paid⟩ := stops ended
    refine ⟨told, all, fun wanted => ⟨?_, (next wanted).stopped ended⟩⟩
    have nothing := (next wanted).given_eq
    rw [paid, List.take_nil] at nothing
    exact Array.toList_eq_nil_iff.mp nothing
  · have given_eq := (next wanted).given_eq
    rw [← Array.length_toList, given_eq]
    exact List.length_take_le _ _
  · rw [← Array.length_toList] at less
    obtain ⟨short, rest⟩ := (next wanted).of_less less
    constructor
    · rw [rest, so_far.given_eq, so_far.owed_eq, List.take_append_drop, whole]
    · by_cases going : run.2.status = .playing
      · rw [(next wanted).of_short going short, so_far.outcome_eq going]
        rfl
      · rw [(next wanted).stopped going]
        exact (stops going).1

/-- The packet of another track and the damaged one are passed over, and what is behind the packet
that the codec gives up on is never given out. -/
example : audible 1 [.packet ⟨1, 2, .samples #[10, 11]⟩, .packet ⟨0, 2, .samples #[20]⟩,
      .packet ⟨1, 2, .damaged⟩, .packet ⟨1, 2, .samples #[12]⟩, .packet ⟨1, 2, .fatal⟩,
      .packet ⟨1, 2, .samples #[13]⟩] = [10, 11, 12] := by decide

end Decoder

end Jukebox.Audio
