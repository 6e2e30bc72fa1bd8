import Mathlib.Data.List.Intervals
import Jukebox.Proofs.Playback.Coherence
import Jukebox.Proofs.Playback.Streams
/-!
# Unattended playback

An entry is played and from then on the watcher moves the engine along, while entries may be added
at the end. `Unattended` tells such a story, each turn with the engine that it left. Whether a file
opens at all is given as `opens`, and each try on record has that outcome.

The engine moves on from its current entry only, and always to the next entry that opens. So what
was started are the entries from the first one on that open, each once and in order, up to the
current one, or up to the last when the engine has run out of entries and stopped.
-/
namespace Jukebox.Playback

open Storage (Path)

/-- Files that were tried, in order, each with whether it was opened and its stream registered. -/
def tries : List Call → List (Path × Bool)
  | [] => []
  | .opened p file :: rest =>
    (p, file.isSome && (rest.head?.bind Call.added?).isSome) :: tries rest
  | _ :: rest => tries rest

/-- An entry is played and then left to the watcher; the story has each turn with the engine that
it left. -/
inductive Unattended {ω : Type} (h : Host ω) (i : Nat) (start : Engine) :
    List (Turn × Engine) → Engine → Prop
  | played {t : Turn} {e : Engine} (named : t.command = .play (some i)) (takes : Takes h start t e) :
      Unattended h i start [(t, e)] e
  | passed {story : List (Turn × Engine)} {t : Turn} {e e' : Engine}
      (before : Unattended h i start story e) (named : t.command = .tick) (takes : Takes h e t e') :
      Unattended h i start (story ++ [(t, e')]) e'
  | added {story : List (Turn × Engine)} {t : Turn} {e e' : Engine} {path : Path}
      {tags : Option Library.Tags} (before : Unattended h i start story e)
      (named : t.command = .add path tags) (takes : Takes h e t e') :
      Unattended h i start (story ++ [(t, e')]) e'

/-- Such a story is a run. -/
theorem Unattended.run {ω : Type} {h : Host ω} {i : Nat} {start e : Engine}
    {story : List (Turn × Engine)} (told : Unattended h i start story e) :
    Run h start (story.map Prod.fst) e := by
  induction told with
  | played named takes => exact Run.turn .start takes
  | passed before named takes ih =>
    rw [List.map_append]
    exact .turn ih takes
  | added before named takes ih =>
    rw [List.map_append]
    exact .turn ih takes

/-- A pass that finds the current file at its end. -/
def Turn.Advances (t : Turn) : Prop :=
  t.command = .tick ∧ ∃ file status, .askedStatus file status ∈ t.calls ∧ status ≠ .playing

/-- Indices of the entries that were started, in order. -/
def startedIn (story : List (Turn × Engine)) : List Nat :=
  story.flatMap fun (t, e) => (addedIn t.calls).filterMap fun _ => e.playlist.current

def triedIn (story : List (Turn × Engine)) : List (Path × Bool) :=
  story.flatMap fun (t, _) => tries t.calls

/-- Whether there is an entry at an index, and it opens. -/
def openable (opens : Path → Bool) (entries : List Entry) (index : Nat) : Bool :=
  entries[index]?.any fun entry => opens entry.path

/-- The try that the entry at an index is due. -/
def trial? (opens : Path → Bool) (entries : List Entry) (index : Nat) : Option (Path × Bool) :=
  entries[index]?.map fun entry => (entry.path, opens entry.path)

section Calls

variable {e e' : Engine} {made : List Call}

theorem tries_dropped (s : Option Session) (more : List Call) :
    tries (dropped s ++ more) = tries more := by
  cases s <;> rfl

theorem Engine.tries_leaving (keep : Bool) (more : List Call) :
    tries (e.leaving keep ++ more) = tries more := by
  cases keep <;> simp [leaving, tries_dropped]

theorem Engine.addedIn_leaving (keep : Bool) : addedIn (e.leaving keep) = [] := by
  cases keep <;> simp [leaving]

theorem Engine.Reclaims.tries (reclaim : e.Reclaims e' made) (more : List Call) :
    tries (made ++ more) = Playback.tries more := by
  cases reclaim <;> rfl

theorem Engine.Reclaims.addedIn (reclaim : e.Reclaims e' made) : addedIn made = [] := by
  cases reclaim <;> rfl

theorem Engine.Reclaims.playlist (reclaim : e.Reclaims e' made) : e'.playlist = e.playlist := by
  cases reclaim <;> rfl

theorem Engine.Starts.tries_append {index : Nat} {r : Refusal}
    (start : e.Starts index (.error r) e' made) (more : List Call) :
    tries (made ++ more) = tries made ++ tries more := by
  cases start <;> rfl

end Calls

section Tries

variable {opens : Path → Bool} {e e' : Engine} {made : List Call}

theorem openable_of_entry {entries : List Entry} {index : Nat} {entry : Entry}
    (here : entries[index]? = some entry) : openable opens entries index = opens entry.path := by
  rw [openable, here]
  rfl

theorem trial?_of_entry {entries : List Entry} {index : Nat} {entry : Entry} {answer : Bool}
    (here : entries[index]? = some entry) (same : opens entry.path = answer) :
    (trial? opens entries index).toList = [(entry.path, answer)] := by
  rw [trial?, here, ← same]
  rfl

theorem trials_cons (entries : List Entry) (index : Nat) (rest : List Nat) :
    (index :: rest).filterMap (trial? opens entries) =
      (trial? opens entries index).toList ++ rest.filterMap (trial? opens entries) := by
  cases trial : trial? opens entries index <;> simp [trial]

/-- An entry that cannot be started does not open. -/
theorem Engine.Starts.unopenable {index : Nat} {r : Refusal}
    (start : e.Starts index (.error r) e' made) (answered : ∀ t ∈ tries made, opens t.1 = t.2) :
    openable opens e.playlist.entries index = false ∧
      tries made = (trial? opens e.playlist.entries index).toList ∧ addedIn made = [] := by
  cases start with
  | absent no =>
    have nothing : e.playlist.entries[index]? = none := no
    simp [Playback.openable, trial?, nothing, tries]
  | unopened here reason =>
    have shut := answered (_, false) List.mem_cons_self
    exact ⟨(openable_of_entry here).trans shut, (trial?_of_entry here shut).symm, rfl⟩
  | refused here file reason =>
    have shut := answered (_, false) List.mem_cons_self
    exact ⟨(openable_of_entry here).trans shut, (trial?_of_entry here shut).symm, rfl⟩

/-- An entry that is started opens. -/
theorem Engine.Starts.openable {index : Nat}
    (start : e.Starts index (.ok ()) e' made) (empty : e.current = none)
    (answered : ∀ t ∈ tries made, opens t.1 = t.2) :
    openable opens e.playlist.entries index = true ∧
      tries made = (trial? opens e.playlist.entries index).toList ∧
      ∃ s, e' = e.landed index s ∧ addedIn made = [s.stream] := by
  cases start with
  | started here file stream =>
    rw [empty, dropped_none, List.append_nil] at answered ⊢
    have opened := answered (_, true) List.mem_cons_self
    exact ⟨(openable_of_entry here).trans opened, (trial?_of_entry here opened).symm,
      _, rfl, rfl⟩

/-- Trying entries in an order comes to the first one that opens, or to the end. -/
theorem Engine.Scans.outcome {indices : List Nat} (scan : e.Scans indices e' made)
    (empty : e.current = none) (answered : ∀ t ∈ tries made, opens t.1 = t.2) :
    (tries made = indices.filterMap (trial? opens e.playlist.entries) ∧
      indices.filter (Playback.openable opens e.playlist.entries) = [] ∧
      e' = e ∧ addedIn made = []) ∨
    ∃ before j after s, indices = before ++ j :: after ∧
      tries made = (before ++ [j]).filterMap (trial? opens e.playlist.entries) ∧
      (before ++ [j]).filter (Playback.openable opens e.playlist.entries) = [j] ∧
      e' = e.landed j s ∧ addedIn made = [s.stream] := by
  induction scan with
  | exhausted => exact Or.inl ⟨rfl, rfl, rfl, rfl⟩
  | @passed j rest r e' made more start scan ih =>
    rw [start.tries_append] at answered ⊢
    obtain ⟨shut, tried, silent⟩ := start.unopenable fun t there =>
      answered t (List.mem_append_left _ there)
    have later := ih fun t there => answered t (List.mem_append_right _ there)
    rcases later with ⟨tried', none_opens, same, silent'⟩ |
      ⟨before, k, after, s, split, tried', found, landed, one⟩
    · refine Or.inl ⟨?_, ?_, same, ?_⟩
      · rw [trials_cons, tried, tried']
      · rw [List.filter_cons_of_neg (by simp [shut]), none_opens]
      · rw [addedIn_append, silent, silent', List.append_nil]
    · refine Or.inr ⟨j :: before, k, after, s, congrArg (j :: ·) split, ?_, ?_, landed, ?_⟩
      · rw [List.cons_append, trials_cons, tried, tried']
      · rw [List.cons_append, List.filter_cons_of_neg (by simp [shut]), found]
      · rw [addedIn_append, silent, one, List.nil_append]
  | @found j rest e' made start =>
    obtain ⟨opened, tried, s, landed, one⟩ := start.openable empty answered
    refine Or.inr ⟨[], j, rest, s, rfl, ?_, ?_, landed, one⟩
    · rw [List.nil_append, trials_cons, List.filterMap_nil, List.append_nil, tried]
    · simp [opened]

end Tries

/-- All entries from one index up to another were tried once and in order, and those that open were
started. -/
structure Covered (opens : Path → Bool) (entries : List Entry) (first past : Nat)
    (story : List (Turn × Engine)) : Prop where
  started : startedIn story = (List.Ico first past).filter (openable opens entries)
  tried : triedIn story = (List.Ico first past).filterMap (trial? opens entries)

namespace Covered

variable {opens : Path → Bool} {entries : List Entry} {first past further : Nat}
  {story : List (Turn × Engine)} {t : Turn} {e : Engine}

theorem single
    (started : ((addedIn t.calls).filterMap fun _ => e.playlist.current) =
      (List.Ico first past).filter (openable opens entries))
    (tried : tries t.calls = (List.Ico first past).filterMap (trial? opens entries)) :
    Covered opens entries first past [(t, e)] :=
  ⟨(List.append_nil _).trans started, (List.append_nil _).trans tried⟩

theorem extend (covered : Covered opens entries first past story) (ordered : first ≤ past)
    (more : Covered opens entries past further [(t, e)]) (onward : past ≤ further) :
    Covered opens entries first further (story ++ [(t, e)]) := by
  have split := List.Ico.append_consecutive ordered onward
  constructor
  · rw [← split, List.filter_append, ← covered.started, ← more.started, startedIn,
      List.flatMap_append]
    rfl
  · rw [← split, List.filterMap_append, ← covered.tried, ← more.tried, triedIn,
      List.flatMap_append]
    rfl

/-- A turn that tries nothing changes nothing. -/
theorem silent (covered : Covered opens entries first past story) (ordered : first ≤ past)
    (added : addedIn t.calls = []) (tried : tries t.calls = []) :
    Covered opens entries first past (story ++ [(t, e)]) := by
  refine covered.extend ordered (.single ?_ ?_) (le_refl past)
  · simp [added]
  · simp [tried]

theorem increasing (covered : Covered opens entries first past story) :
    (startedIn story).Pairwise (· < ·) := by
  rw [covered.started]
  exact (List.Ico.pairwise_lt first past).filter _

/-- Entries that are added later are not concerned. -/
theorem push (covered : Covered opens entries first past story) (inside : past ≤ entries.length)
    (entry : Entry) : Covered opens (entries ++ [entry]) first past story := by
  have same (j : Nat) (there : j ∈ List.Ico first past) : (entries ++ [entry])[j]? = entries[j]? :=
    List.getElem?_append_left ((List.Ico.mem.mp there).2.trans_le inside)
  constructor
  · rw [covered.started]
    refine List.filter_congr fun j there => ?_
    rw [openable, openable, same j there]
  · rw [covered.tried]
    refine List.filterMap_congr fun j there => ?_
    rw [trial?, trial?, same j there]

end Covered

/-- How things stand in a story: an entry is current and everything up to it was covered, or the
engine is stopped since a pass that found no further entry. -/
inductive Standing (opens : Path → Bool) (i : Nat) (story : List (Turn × Engine)) (e : Engine) :
    Prop
  | playing {c : Nat} {s : Session} (current : e.current = some s)
      (index : e.playlist.current = some c) (onward : i ≤ c) (inside : c < e.playlist.count)
      (covered : Covered opens e.playlist.entries i (c + 1) story)
  | stopped (nothing : e.current = none) {before after : List (Turn × Engine)} {t : Turn}
      {last : Engine} (split : story = before ++ (t, last) :: after) (advances : t.Advances)
      (still : ∀ s ∈ after, ¬s.1.Advances) (inside : i ≤ last.playlist.count)
      (covered : Covered opens last.playlist.entries i last.playlist.count story)

section Steps

variable {opens : Path → Bool} {i : Nat} {story : List (Turn × Engine)} {e e' : Engine}
  {t : Turn}

theorem candidates_forward (index count : Nat) :
    Direction.forward.candidates index count = List.Ico (index + 1) count := by
  rw [Direction.candidates, List.range_eq_range', List.drop_range', List.Ico]
  simp

/-- The candidates up to one of them are those before it and itself. -/
theorem Ico_upto {first past j : Nat} {before after : List Nat}
    (split : List.Ico first past = before ++ j :: after) :
    first ≤ j ∧ j < past ∧ before ++ [j] = List.Ico first (j + 1) := by
  obtain ⟨k, inside, rfl, rest⟩ := List.range'_eq_append_iff.mp split
  have head : j = first + k := by
    cases left : past - first - k with
    | zero => rw [left] at rest; cases rest
    | succ n =>
      rw [left, List.range'_succ, Nat.mul_one] at rest
      exact (List.cons.inj rest).1
  have more : k < past - first := by
    by_contra none_left
    rw [Nat.sub_eq_zero_of_le (Nat.le_of_not_lt none_left)] at rest
    cases rest
  subst head
  refine ⟨Nat.le_add_right first k, by omega, ?_⟩
  rw [List.Ico, show first + k + 1 - first = k + 1 by omega, List.range'_1_concat]

/-- Once the engine is stopped, a turn that tries nothing leaves it so. -/
theorem Standing.rests (nothing : e.current = none) (before : Standing opens i story e)
    (stays : e'.current = none) (idle : ¬t.Advances) (added : addedIn t.calls = [])
    (tried : tries t.calls = []) : Standing opens i (story ++ [(t, e')]) e' := by
  cases before with
  | playing current index onward inside covered =>
    rw [nothing] at current
    cases current
  | @stopped _ first after pass last split advances still inside covered =>
    have split' : story ++ [(t, e')] = first ++ (pass, last) :: (after ++ [(t, e')]) := by
      rw [split, List.append_assoc]
      rfl
    refine .stopped stays split' advances (fun s there => ?_) inside
      (covered.silent inside added tried)
    rcases List.mem_append.mp there with earlier | new
    · exact still s earlier
    · obtain rfl := List.mem_singleton.mp new
      exact idle

/-- Adding an entry changes nothing about what was played. -/
theorem Standing.adds {path : Path} {tags : Option Library.Tags}
    (before : Standing opens i story e) (named : t.command = .add path tags)
    (effect : Effect e t.command t.result e' t.calls) :
    Standing opens i (story ++ [(t, e')]) e' := by
  obtain ⟨command, result, calls⟩ := t
  cases named
  cases effect with
  | add path tags =>
    cases before with
    | playing current index onward inside covered =>
      refine .playing current index onward ?_ ?_
      · simp only [Playlist.push, Playlist.count, List.length_append] at inside ⊢
        omega
      · exact (covered.push inside _).silent (Nat.le_succ_of_le onward) rfl rfl
    | stopped nothing split advances still inside covered =>
      refine Standing.rests nothing (.stopped nothing split advances still inside covered) nothing ?_
        rfl rfl
      exact fun moves => Command.noConfusion moves.1

/-- When the current entry has come to its end, the next one that opens is started, or there is
none and the engine stops. -/
theorem Standing.moves_on {c : Nat} {made : List Call} (index : e.playlist.current = some c)
    (onward : i ≤ c) (inside : c < e.playlist.count)
    (covered : Covered opens e.playlist.entries i (c + 1) story)
    (advance : e.Advances .forward true e' made) (moves : t.Advances)
    (added : addedIn t.calls = addedIn made) (tried : tries t.calls = tries made)
    (answered : ∀ s ∈ tries made, opens s.1 = s.2) :
    Standing opens i (story ++ [(t, e')]) e' := by
  cases advance with
  | idle no => rw [index] at no; cases no
  | @moved _ _ found here scan =>
    cases index.symm.trans here
    rw [candidates_forward] at scan
    rw [Engine.tries_leaving] at tried answered
    rw [addedIn_append, Engine.addedIn_leaving, List.nil_append] at added
    have onward' : i ≤ c + 1 := Nat.le_succ_of_le onward
    -- the scan comes to the end of the playlist, or to the first entry that opens
    rcases scan.outcome rfl answered with ⟨through, none_opens, rfl, silent⟩ |
      ⟨before, j, after, s, split, through, opened, rfl, one⟩
    · refine .stopped rfl rfl moves (List.forall_mem_nil _) (onward.trans inside.le)
        (covered.extend onward' (.single ?_ (tried.trans through)) inside)
      rw [added, silent]
      exact none_opens.symm
    · obtain ⟨onto, below, upto⟩ := Ico_upto split
      rw [upto] at through opened
      refine .playing rfl rfl (onward'.trans onto) below
        (covered.extend onward' (.single ?_ (tried.trans through)) (Nat.le_succ_of_le onto))
      rw [added, one]
      exact opened.symm

/-- A pass moves on if the current entry has come to its end, and changes nothing about what was
played otherwise. -/
theorem Standing.ticks (before : Standing opens i story e) (named : t.command = .tick)
    (effect : Effect e t.command t.result e' t.calls)
    (answered : ∀ s ∈ tries t.calls, opens s.1 = s.2) :
    Standing opens i (story ++ [(t, e')]) e' := by
  obtain ⟨command, result, calls⟩ := t
  obtain rfl : command = .tick := named
  dsimp only at effect answered
  cases effect with
  | tick ticks =>
    cases ticks with
    | idle reclaim no =>
      have tried := reclaim.tries []
      rw [List.append_nil] at tried
      refine before.rests no (reclaim.current.trans no) ?_ reclaim.addedIn tried
      rintro ⟨-, file, status, there, -⟩
      cases reclaim <;> simp at there
    | playing reclaim there =>
      cases before with
      | stopped nothing => rw [nothing] at there; cases there
      | playing current index onward inside covered =>
        rw [← reclaim.playlist] at index inside covered
        refine .playing (reclaim.current.trans current) index onward inside
          (covered.silent (Nat.le_succ_of_le onward) ?_ (reclaim.tries _))
        rw [addedIn_append, reclaim.addedIn]
        rfl
    | @finished e₁ _ made more s status reclaim there ended advance =>
      cases before with
      | stopped nothing => rw [nothing] at there; cases there
      | playing current index onward inside covered =>
        rw [← reclaim.playlist] at index inside covered
        have tried : tries (made ++ .askedStatus s.file status :: more) = tries more :=
          reclaim.tries _
        have added : addedIn (made ++ .askedStatus s.file status :: more) = addedIn more := by
          rw [addedIn_append, reclaim.addedIn]
          rfl
        have asked : .askedStatus s.file status ∈ made ++ .askedStatus s.file status :: more :=
          List.mem_append_right made List.mem_cons_self
        rw [tried] at answered
        exact .moves_on index onward inside covered advance ⟨rfl, s.file, status, asked, ended⟩
          added tried answered

/-- The entry that is played first is covered. -/
theorem Standing.plays {start : Engine} (named : t.command = .play (some i))
    (effect : Effect start t.command t.result e t.calls)
    (opened : openable opens start.playlist.entries i = true)
    (answered : ∀ s ∈ tries t.calls, opens s.1 = s.2) : Standing opens i [(t, e)] e := by
  obtain ⟨command, result, calls⟩ := t
  obtain rfl : command = .play (some i) := named
  dsimp only at effect answered
  have inside : i < start.playlist.count := by
    by_contra outside
    have no : start.playlist.entries[i]? = none := List.getElem?_eq_none (Nat.le_of_not_lt outside)
    rw [openable, no] at opened
    cases opened
  cases effect with
  | play plays =>
    cases plays with
    | refused no =>
      rw [Engine.playTarget_given inside] at no
      cases no
    | @tried j r _ made target started =>
      obtain rfl := Engine.playTarget_eq target
      have tried : tries (dropped start.current ++ dropped start.previous ++ made) =
          tries made := by
        rw [List.append_assoc, tries_dropped, tries_dropped]
      rw [tried] at answered
      cases result with
      | error refusal =>
        have shut := (started.unopenable answered).1
        cases shut.symm.trans opened
      | ok done =>
        obtain ⟨-, once, s, rfl, one⟩ := started.openable rfl answered
        refine .playing rfl rfl le_rfl inside (.single ?_ (tried.trans ?_))
        · have opened' : openable opens (start.stopped.landed j s).playlist.entries j = true :=
            opened
          rw [addedIn_append, addedIn_append, addedIn_dropped, addedIn_dropped, one,
            List.Ico.succ_singleton, List.filter_singleton, opened']
          rfl
        · rw [once, List.Ico.succ_singleton, trials_cons, List.filterMap_nil, List.append_nil]
          rfl

end Steps

/-- How things stand at every moment of a story. -/
theorem Unattended.standing {ω : Type} {h : Host ω} {opens : Path → Bool} {i : Nat}
    {start e : Engine} {story : List (Turn × Engine)} (told : Unattended h i start story e)
    (opened : openable opens start.playlist.entries i = true)
    (answered : ∀ s ∈ story, ∀ t ∈ tries s.1.calls, opens t.1 = t.2) :
    Standing opens i story e := by
  induction told with
  | played named takes => exact .plays named takes.effect opened (answered _ List.mem_cons_self)
  | passed before named takes ih =>
    have earlier := ih fun s there => answered s (List.mem_append_left _ there)
    exact earlier.ticks named takes.effect (answered _ List.mem_concat_self)
  | added before named takes ih =>
    have earlier := ih fun s there => answered s (List.mem_append_left _ there)
    exact earlier.adds named takes.effect

/-- An entry that opens is played and left to the watcher, while entries are added and files come to
their ends at any time. Then no entry is started twice and none is passed over: what was started are
the entries from the first one on that open, in order, up to the current one, and every entry up to
it was tried once. If the engine is stopped, it ran out of entries: the same holds up to the last of
those that were there when a pass moved on for the last time. -/
theorem Unattended.in_order {ω : Type} {h : Host ω} {opens : Path → Bool} {i : Nat}
    {start e : Engine} {story : List (Turn × Engine)} (told : Unattended h i start story e)
    (opened : openable opens start.playlist.entries i = true)
    (answered : ∀ s ∈ story, ∀ t ∈ tries s.1.calls, opens t.1 = t.2) :
    (startedIn story).Pairwise (· < ·) ∧
    (e.state ≠ .stopped → ∃ c, e.playlist.current = some c ∧
      Covered opens e.playlist.entries i (c + 1) story) ∧
    (e.state = .stopped → ∃ before t last after, story = before ++ (t, last) :: after ∧
      t.Advances ∧ (∀ s ∈ after, ¬s.1.Advances) ∧
      Covered opens last.playlist.entries i last.playlist.count story) := by
  cases told.standing opened answered with
  | playing current index onward inside covered =>
    have running : e.state ≠ .stopped := Engine.state_ne_stopped_iff.mpr ⟨_, current⟩
    exact ⟨covered.increasing, fun _ => ⟨_, index, covered⟩, fun halted => absurd halted running⟩
  | stopped nothing split advances still inside covered =>
    refine ⟨covered.increasing, fun running => ?_, fun _ =>
      ⟨_, _, _, _, split, advances, still, covered⟩⟩
    obtain ⟨s, there⟩ := Engine.state_ne_stopped_iff.mp running
    rw [nothing] at there
    cases there

section Shelf

/-- A world with one broken file, in which so many files were opened. -/
def creaking (used : Nat) (status : FileStatus) : Rehearsal :=
  ⟨used, used, [.ofString "b.mp3"], status, false⟩

/-- An engine with three entries, of which the second does not open. -/
def shelf : Engine :=
  (rehearse [(.add (.ofString "a.mp3") none, creaking 0 .playing),
    (.add (.ofString "b.mp3") none, creaking 0 .playing),
    (.add (.ofString "c.mp3") none, creaking 0 .playing)]).2

def shelfPlayed : Turn × Engine := act .rehearsed (.play (some 0)) (creaking 0 .playing) shelf

def shelfMoved : Turn × Engine := act .rehearsed .tick (creaking 1 .ended) shelfPlayed.2

def shelfGrown : Turn × Engine :=
  act .rehearsed (.add (.ofString "d.mp3") none) (creaking 2 .playing) shelfMoved.2

def shelfMovedOn : Turn × Engine := act .rehearsed .tick (creaking 2 .ended) shelfGrown.2

def shelfDone : Turn × Engine := act .rehearsed .tick (creaking 3 .ended) shelfMovedOn.2

/-- Two entries are played, one that was added meanwhile, and then there is none left. -/
def shelfStory : List (Turn × Engine) :=
  [shelfPlayed, shelfMoved, shelfGrown, shelfMovedOn, shelfDone]

theorem shelf_told : Unattended .rehearsed 0 shelf shelfStory shelfDone.2 := by
  have plays : Takes .rehearsed shelf shelfPlayed.1 shelfPlayed.2 := act_takes ..
  have moves : Takes .rehearsed shelfPlayed.2 shelfMoved.1 shelfMoved.2 := act_takes ..
  have grows : Takes .rehearsed shelfMoved.2 shelfGrown.1 shelfGrown.2 := act_takes ..
  have moves_on : Takes .rehearsed shelfGrown.2 shelfMovedOn.1 shelfMovedOn.2 := act_takes ..
  have stops : Takes .rehearsed shelfMovedOn.2 shelfDone.1 shelfDone.2 := act_takes ..
  exact ((((Unattended.played rfl plays).passed rfl moves).added rfl grows).passed rfl
    moves_on).passed rfl stops

/-- The broken entry is passed over, the late one is played, and then the engine stops. -/
theorem shelf_in_order :
    Unattended .rehearsed 0 shelf shelfStory shelfDone.2 ∧
    openable (· ≠ .ofString "b.mp3") shelf.playlist.entries 0 = true ∧
    (∀ s ∈ shelfStory, ∀ t ∈ tries s.1.calls, decide (t.1 ≠ .ofString "b.mp3") = t.2) ∧
    startedIn shelfStory = [0, 2, 3] ∧ shelfDone.2.state = .stopped ∧
    ∃ before t last after, shelfStory = before ++ (t, last) :: after ∧ t.Advances ∧
      (∀ s ∈ after, ¬s.1.Advances) ∧
      Covered (· ≠ .ofString "b.mp3") last.playlist.entries 0 last.playlist.count shelfStory := by
  have opened : openable (· ≠ .ofString "b.mp3") shelf.playlist.entries 0 = true := by
    decide +kernel
  have answered : ∀ s ∈ shelfStory, ∀ t ∈ tries s.1.calls,
      decide (t.1 ≠ .ofString "b.mp3") = t.2 := by decide +kernel
  have halted : shelfDone.2.state = .stopped := by decide +kernel
  exact ⟨shelf_told, opened, answered, by decide +kernel, halted,
    (shelf_told.in_order opened answered).2.2 halted⟩

end Shelf

end Jukebox.Playback
