import Jukebox.Proofs.Http.Matching
import Jukebox.Proofs.Http.Registering
/-!
# Routes that never match the same path

A route demands certain segments of the paths it matches: an extended route those of its pattern, a
plain one also that nothing but empty segments follows. Two routes that demand different segments at
one place have no path in common, and that can be read off their patterns. Of routes which are apart
in this way at most one is concerned with a path, so they may stand in any order in their table.
-/
namespace Jukebox.Http

variable {η θ : Type} {method : Method} {path : String} {body : List UInt8}

namespace Route

/-- The segments of a pattern. An empty pattern has none. -/
def stem (r : Route η) : List (List Char) :=
  if r.path = "" then [] else Text.segments r.path.toList

/-- The segment that a route demands at a place, if it demands one there. -/
def demand? (r : Route η) (i : Nat) : Option (List Char) :=
  if r.extended then r.stem[i]? else some (r.stem.getD i [])

/-- At some place the routes demand different segments. -/
def Apart (r : Route η) (r' : Route θ) : Prop :=
  ∃ i < max r.stem.length r'.stem.length, ∃ s ∈ r.demand? i, ∃ s' ∈ r'.demand? i, s ≠ s'

instance (r : Route η) (r' : Route θ) : Decidable (r.Apart r') :=
  inferInstanceAs (Decidable (∃ i < _, ∃ s ∈ r.demand? i, ∃ s' ∈ r'.demand? i, s ≠ s'))

/-- No route but one of the two matches the path. -/
def Exclude (path : String) (r : Route η) (r' : Route θ) : Prop :=
  r.matches? path = none ∨ r'.matches? path = none

/-- A path that is matched has the segments that are demanded. -/
theorem demand?_of_matches {r : Route η} {resource : String} {i : Nat} {s : List Char}
    (fits : r.matches? path = some resource) (demands : r.demand? i = some s) :
    (Text.segments (Text.trimLeft path.toList)).getD i [] = s := by
  rw [matches?_eq_some_iff] at fits
  rw [demand?] at demands
  cases extended : r.extended with
  | false =>
    rw [extended, matchTrimmed_plain] at fits
    obtain ⟨⟨k, ends⟩, -⟩ := fits.1
    rw [extended] at demands
    obtain rfl := Option.some.inj demands
    rw [ends, Text.segments_append_replicate, Text.getD_append_replicate, stem]
    split
    · rename_i unnamed
      rw [unnamed]
      cases i <;> rfl
    · rfl
  | true =>
    rw [extended] at fits
    rw [extended, if_pos rfl, stem] at demands
    split at demands
    · cases demands
    · rename_i named
      have pattern : r.path.toList ≠ [] := fun none => named (String.toList_eq_nil_iff.mp none)
      obtain ⟨rest, split, -⟩ :=
        Text.exists_segments_iff.mpr ((matchTrimmed_extended pattern).mp fits)
      rw [split, List.getD_eq_getElem?_getD, List.getElem?_append_left, demands]
      · rfl
      · exact (List.getElem?_eq_some_iff.mp demands).1

/-- Routes with their handlers bound to whatever answers for them. -/
def bound (bind : η → θ) (routes : List (Route η)) : List (Route θ) :=
  routes.map fun r => r.withHandler (bind r.handler)

theorem bound_perm {routes routes' : List (Route η)} (perm : routes.Perm routes') (bind : η → θ) :
    (bound bind routes).Perm (bound bind routes') :=
  perm.map _

theorem exclude_comm {r : Route η} {r' : Route θ} (exclude : Exclude path r r') :
    Exclude path r' r :=
  exclude.symm

instance : Std.Symm (Exclude (η := η) (θ := η) path) := ⟨fun _ _ => exclude_comm⟩

/-- A handler has no part in what its route matches. -/
theorem pairwise_bound {routes : List (Route η)} (exclusive : routes.Pairwise (Exclude path))
    (bind : η → θ) : (bound bind routes).Pairwise (Exclude path) :=
  List.pairwise_map.mpr exclusive

/-- Routes that are apart have no path in common. -/
theorem Apart.exclude {r : Route η} {r' : Route θ} (apart : r.Apart r') (path : String) :
    Exclude path r r' := by
  obtain ⟨i, -, s, demands, s', demands', other⟩ := apart
  by_contra both
  obtain ⟨fits, fits'⟩ := not_or.mp both
  obtain ⟨resource, fits⟩ := Option.ne_none_iff_exists'.mp fits
  obtain ⟨resource', fits'⟩ := Option.ne_none_iff_exists'.mp fits'
  exact other ((demand?_of_matches fits demands).symm.trans (demand?_of_matches fits' demands'))

end Route

namespace Dispatcher

/-- Routes of which at most one matches a path are searched in any order. -/
theorem search_perm {routes routes' : List (Route η)} (perm : routes.Perm routes')
    (exclusive : routes.Pairwise (Route.Exclude path)) (later : List (Route η)) (seen : Bool) :
    search method path body seen (routes ++ later) =
      search method path body seen (routes' ++ later) := by
  induction perm generalizing seen with
  | nil => rfl
  | cons r _ ih =>
    simp only [List.cons_append, search, ih exclusive.of_cons]
  | swap r r' rest =>
    -- One of the two is passed over wherever it stands.
    obtain ⟨first, -⟩ := List.pairwise_cons.mp exclusive
    simp only [List.cons_append, search]
    rcases first r List.mem_cons_self with none | none
    · simp only [none]
    · simp only [none]
  | trans perm _ ih ih' =>
    exact (ih exclusive seen).trans (ih' (perm.pairwise exclusive Route.exclude_comm) seen)

/-- What comes before the routes that are exchanged makes no difference. -/
theorem search_append_congr {routes routes' : List (Route η)} (earlier : List (Route η))
    (same : ∀ seen, search method path body seen routes = search method path body seen routes')
    (seen : Bool) :
    search method path body seen (earlier ++ routes) =
      search method path body seen (earlier ++ routes') := by
  induction earlier generalizing seen with
  | nil => exact same seen
  | cons r rest ih => simp only [List.cons_append, search, ih]

end Dispatcher

namespace Tables

theorem under_append_cons (before after : Tables η) (t : String × List (Route η)) (name : String) :
    under (before ++ t :: after) name = under before name ++
      ((if Text.trimSlashes t.1 = name then t.2 else []) ++ under after name) := by
  simp [under]

theorem names_append_cons (before after : Tables η) (t : String × List (Route η)) (name : String) :
    Names (before ++ t :: after) name ↔
      Names before name ∨ Text.trimSlashes t.1 = name ∨ Names after name := by
  simp only [Names, List.mem_append, List.mem_cons, or_and_right, exists_or, exists_eq_left]

/-- A table of which at most one route matches a path may be in any order, whatever other tables
there are, under its own name or others. -/
theorem dispatch_perm {routes routes' : List (Route η)} (perm : routes.Perm routes')
    (exclusive : ∀ path, routes.Pairwise (Route.Exclude path)) (before after : Tables η)
    (name : String) :
    (dispatcher (before ++ (name, routes) :: after)).dispatch method path body =
      (dispatcher (before ++ (name, routes') :: after)).dispatch method path body := by
  refine dispatch_congr (fun n => ?_) fun n rest => ?_
  · rw [names_append_cons, names_append_cons]
  · rw [under_append_cons, under_append_cons]
    refine Dispatcher.search_append_congr _ (fun seen => ?_) false
    split
    · exact Dispatcher.search_perm perm (exclusive rest) _ seen
    · rfl

/-- A request is refused for its method exactly if the routes that are searched for its path match
it, but not for this method. -/
theorem dispatch_notAllowed_iff {ts : Tables η} :
    ts.dispatcher.dispatch method path body = .respond .methodNotAllowed ↔
      ∃ routes rest, Searched ts path routes rest ∧ Undecided routes method rest ∧
        ∃ r ∈ routes, r.matches? rest ≠ none := by
  constructor
  · intro refused
    obtain ⟨whole, head, rest, parts⟩ := exists_segmented path.toList
    have within {routes : List (Route η)} {rest : String}
        (searched : Searched ts path routes rest) :
        Undecided routes method rest ∧ ∃ r ∈ routes, r.matches? rest ≠ none := by
      rw [dispatch_of_searched searched] at refused
      rcases decides_or_undecided routes method rest with ⟨r, resource, decides⟩ | undecided
      · rw [Dispatcher.search_of_decides decides] at refused
        cases document : r.document? body <;> rw [document] at refused <;> cases refused
      · rw [Dispatcher.search_of_undecided undecided] at refused
        refine ⟨undecided, by_contra fun unfit => ?_⟩
        rw [if_neg (not_or.mpr ⟨Bool.false_ne_true, unfit⟩)] at refused
        cases refused
    by_cases known : ts.Names (.ofList head)
    · exact ⟨_, _, .named parts known, within (.named parts known)⟩
    by_cases alone : ts.Names ""
    · exact ⟨_, _, .unnamed parts known alone, within (.unnamed parts known alone)⟩
    · rw [dispatch_of_unknown parts known alone] at refused
      cases refused
  · rintro ⟨routes, rest, searched, undecided, fits⟩
    rw [dispatch_of_searched searched, Dispatcher.search_of_undecided undecided,
      if_pos (Or.inr fits)]

end Tables

/-- A dispatcher with one table searches this table or none. -/
theorem Searched.of_singleton {name rest : String} {routes routes' : List (Route η)}
    (searched : Searched [(name, routes)] path routes' rest) : routes' = routes := by
  have all {n : String} (known : Tables.Names [(name, routes)] n) :
      Tables.under [(name, routes)] n = routes := by
    simp_all [Tables.Names, Tables.under]
  cases searched with
  | named parts known => exact all known
  | unnamed parts unknown known => exact all known

end Jukebox.Http
