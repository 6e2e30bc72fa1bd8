import Jukebox.Http.Route
import Jukebox.Proofs.Text.Segments
/-!
# Which paths a route matches

Routes are matched character by character. What that comes to is said here in segments: a plain
route matches the one path that is its pattern, up to slashes at the ends, and an extended route
matches the paths whose first segments are those of its pattern. So `play` does not match
`playlist`, whose first segment merely starts with the same letters.
-/
namespace Jukebox.Http.Route

variable {η : Type}

theorem matches?_eq_some_iff {r : Route η} {path resource : String} :
    r.matches? path = some resource ↔
      matchTrimmed r.extended r.path.toList (Text.trimLeft path.toList) = some resource.toList := by
  rw [matches?, Option.map_eq_some_iff]
  constructor
  · rintro ⟨cs, fits, rfl⟩
    rw [fits, String.toList_ofList]
  · intro fits
    exact ⟨resource.toList, fits, String.ofList_toList⟩

section

variable {pattern path resource : List Char}

theorem matchTrimmed_plain :
    matchTrimmed false pattern path = some resource ↔
      Text.TrimsRight path pattern ∧ resource = [] := by
  have plain : matchTrimmed false pattern path =
      if Text.trimRight path = pattern then some [] else none := rfl
  rw [plain, Text.trimsRight_iff, Option.ite_none_right_eq_some, Option.some_inj, eq_comm (a := [])]

theorem matchTrimmed_everything : matchTrimmed true [] path = some (Text.trimRight path) := rfl

/-- The pattern may end the path, or a slash follows it there. -/
theorem matchTrimmed_extended (named : pattern ≠ []) :
    matchTrimmed true pattern path = some resource ↔
      path = pattern ∧ resource = [] ∨ path = pattern ++ '/' :: resource := by
  have ends : path = pattern ↔ Text.dropStem? pattern path = some [] := by
    rw [Text.dropStem?_eq_some_iff, List.append_nil]
  rw [matchTrimmed, if_neg (not_not_intro rfl), if_neg named, ends, ← Text.dropStem?_eq_some_iff]
  rcases Text.dropStem? pattern path with _ | _ | ⟨c, rest⟩
  · simp
  · simp [eq_comm]
  · by_cases slash : c = '/'
    · simp [slash]
    · simp [slash]

end

/-- What a route matches, for every pattern and path: `p` is the pattern without outer slashes and
`s` the path without leading ones. A plain route matches exactly if `s` is `p` with slashes behind
it, and then the resource is empty. An extended route with a pattern matches exactly if the segments
of `s` start with those of `p`, and the resource is what the others join to. An extended route
without one matches every path, and the resource is `s` without its trailing slashes. -/
theorem matches_segments (pattern path : String) (takesJson : Bool) (methods : List Method)
    (handler : η) {p s : List Char} (inner : Text.TrimsBoth pattern.toList p)
    (behind : Text.TrimsLeft path.toList s) :
    (∀ resource, (make pattern false takesJson methods handler).matches? path = some resource ↔
      Text.TrimsRight s p ∧ resource = "") ∧
    (p ≠ [] → ∀ resource,
      (make pattern true takesJson methods handler).matches? path = some resource ↔
        ∃ rest, Text.segments s = Text.segments p ++ rest ∧
          resource.toList = Text.joined rest) ∧
    (p = [] → ∃ resource,
      (make pattern true takesJson methods handler).matches? path = some resource ∧
        Text.TrimsRight s resource.toList) := by
  have trimmed (extended : Bool) :
      (make pattern extended takesJson methods handler).path.toList = p := by
    rw [← Text.trimsBoth_iff.mp inner]
    exact String.toList_ofList
  have leading := Text.trimsLeft_iff.mp behind
  refine ⟨fun resource => ?_, fun named resource => ?_, fun unnamed => ?_⟩
  · rw [matches?_eq_some_iff, trimmed, leading]
    refine matchTrimmed_plain.trans (and_congr_right fun _ => ?_)
    exact String.toList_eq_nil_iff
  · rw [matches?_eq_some_iff, trimmed, leading]
    exact (matchTrimmed_extended named).trans Text.exists_segments_iff.symm
  · refine ⟨.ofList (Text.trimRight s), ?_, ?_⟩
    · rw [matches?_eq_some_iff, trimmed, leading, unnamed, String.toList_ofList]
      exact matchTrimmed_everything
    · rw [String.toList_ofList, Text.trimsRight_iff]

/-- `playlist/add` is matched on the boundary of its second segment, `play` not inside the first. -/
theorem playlist_matches_segments :
    Text.TrimsBoth "/playlist/add/".toList "playlist/add".toList ∧
    Text.TrimsBoth "play".toList "play".toList ∧
    Text.TrimsLeft "//playlist/add//b.mp3/".toList "playlist/add//b.mp3/".toList ∧
    (make "/playlist/add/" true false [.put] ()).matches? "//playlist/add//b.mp3/" =
      some "/b.mp3/" ∧
    (make "play" true false [.put] ()).matches? "//playlist/add//b.mp3/" = none := by
  have inner : Text.TrimsBoth "/playlist/add/".toList "playlist/add".toList :=
    Text.trimsBoth_iff.mpr (by decide)
  have inner' : Text.TrimsBoth "play".toList "play".toList := Text.trimsBoth_iff.mpr (by decide)
  have behind : Text.TrimsLeft "//playlist/add//b.mp3/".toList "playlist/add//b.mp3/".toList :=
    Text.trimsLeft_iff.mpr (by decide)
  have add := (matches_segments _ _ false [.put] () inner behind).2.1 (by decide) "/b.mp3/"
  have play := (matches_segments _ _ false [.put] () inner' behind).2.1 (by decide)
  refine ⟨inner, inner', behind, add.mpr ?_,
    Option.eq_none_iff_forall_ne_some.mpr fun resource fits => ?_⟩
  · exact ⟨["".toList, "b.mp3".toList, "".toList], by decide, by decide⟩
  · obtain ⟨rest, split, -⟩ := (play resource).mp fits
    have one : Text.segments "play".toList = ["play".toList] := by decide
    have first := congrArg List.head? split
    rw [one, List.singleton_append, List.head?_cons] at first
    exact absurd first (by decide)

end Jukebox.Http.Route
