import Jukebox.Proofs.Playback.Playing
import Jukebox.Proofs.Playback.Removals
import Jukebox.Proofs.Playback.Table
import Jukebox.Proofs.Text.Numerals
/-!
# Entries addressed by their index

Two requests of the player carry an index at the end of their path, to play the entry there or to
remove it. Which texts are an index, and which entry they mean, is said by `Addresses`; a text that
addresses no entry there is, for whatever reason, is refused and nothing is done.
-/
namespace Jukebox.Playback

open Http (Decides Method Response Route Searched Segmented Tables)
open Text.Numeral (Denotes)

variable {ω : Type}

/-- The entry that the end of a path addresses. Slashes around it do not count; without anything
else it is the first entry, and otherwise a numeral below two to the 64. -/
inductive Addresses (resource : String) : Nat → Prop
  | first (bare : Text.TrimsBoth resource.toList []) : Addresses resource 0
  | numeral {t : List Char} {n : Nat} (trims : Text.TrimsBoth resource.toList t)
      (denotes : Denotes t n) (fits : n < 2 ^ 64) : Addresses resource n

/-- What is done to the entry that a request addresses, with the status of the answer. -/
inductive Request.Treats (e : Engine) (n : Nat) : Request → Nat → Engine → List Call → Prop
  /-- It is gone, and playback was stopped if it was the current one. -/
  | removed {e' : Engine} {made : List Call}
      (spared : (if e.playlist.current = some n then e.stopped else e).Spared n e') :
      Treats e n .removeEntry 200 e' made
  /-- Its file was opened and plays. -/
  | played {entry : Entry} {s : Session} {e' : Engine} {made : List Call}
      (here : e.playlist.entry? n = some entry) (own : s.serial = entry.serial)
      (opened : .opened entry.path (some s.file) ∈ made) (sounds : Sounds e n s e') :
      Treats e n .playEntry 200 e' made
  /-- Its file cannot be opened or played, for which playback was stopped. -/
  | unplayable {entry : Entry} {file : Option FileId} {e' : Engine} {made : List Call}
      (here : e.playlist.entry? n = some entry) (opened : .opened entry.path file ∈ made)
      (halted : Halted e [] e') : Treats e n .playEntry 406 e' made

namespace Request

/-- The index that is read from a resource is the one that it addresses. -/
theorem index?_eq_some_iff {resource : String} {n : Nat} :
    index? resource = some n ↔ Addresses resource n := by
  have inner : (Text.trimSlashes resource).toList = Text.trimBoth resource.toList :=
    String.toList_ofList
  have bound : Text.Numeral.wordBound = 2 ^ 64 := by decide
  rw [index?]
  by_cases bare : Text.trimSlashes resource = ""
  · rw [if_pos bare]
    rw [bare] at inner
    constructor
    · rintro ⟨⟩
      exact .first (Text.trimsBoth_iff.mpr inner.symm)
    · rintro (_ | ⟨trims, denotes, -⟩)
      · rfl
      · obtain rfl := inner.trans (Text.trimsBoth_iff.mp trims)
        exact absurd rfl (Text.Numeral.denotes_iff.mp denotes).1
  · rw [if_neg bare, Text.Numeral.parse?_eq_some_iff, inner, bound]
    constructor
    · rintro ⟨denotes, fits⟩
      exact .numeral (Text.trimsBoth_iff.mpr rfl) denotes fits
    · rintro (none | ⟨trims, denotes, fits⟩)
      · rw [Text.trimsBoth_iff.mp none] at inner
        exact absurd (String.toList_eq_nil_iff.mp inner) bare
      · rw [Text.trimsBoth_iff.mp trims]
        exact ⟨denotes, fits⟩

end Request

/-- A path addresses no more than one entry. -/
theorem Addresses.unique {resource : String} {n m : Nat} (first : Addresses resource n)
    (second : Addresses resource m) : n = m :=
  Option.some.inj ((Request.index?_eq_some_iff.mpr first).symm.trans
    (Request.index?_eq_some_iff.mpr second))

namespace Request

/-- A route of the table that matches a path for a method decides, since no other one matches. -/
theorem decides_of_matches {r : Route Request} {method : Method} {path resource : String}
    (there : r ∈ table) (fits : r.matches? path = some resource) (accepts : method ∈ r.methods) :
    Decides table method path r resource := by
  obtain ⟨before, later, split⟩ := List.append_of_mem there
  refine ⟨⟨before, later, split, fun r' earlier fits' => ?_⟩, fits, accepts⟩
  have exclusive := table_exclusive path
  rw [split, List.pairwise_append] at exclusive
  rcases exclusive.2.2 r' earlier r List.mem_cons_self with none | none
  · exact absurd none fits'
  · rw [fits] at none
    cases none

/-- An extended route matches what follows its pattern and a slash. -/
theorem matches?_behind {r : Route Request} {c : Char} {stem : List Char}
    (extended : r.extended = true) (pattern : r.path.toList = c :: stem) (bare : c ≠ '/')
    (resource : String) :
    r.matches? (r.path ++ "/" ++ resource) = some resource := by
  have path : (r.path ++ "/" ++ resource).toList = c :: stem ++ '/' :: resource.toList := by
    simp [pattern]
  have leading : Text.trimLeft (c :: stem ++ '/' :: resource.toList) =
      c :: stem ++ '/' :: resource.toList :=
    Text.trimLeft_replicate_append 0 (by simpa using bare)
  rw [Route.matches?_eq_some_iff, path, leading, extended, pattern]
  exact (Route.matchTrimmed_extended (List.cons_ne_nil c stem)).mpr (Or.inr rfl)

/-- A path of the player that an extended route matches leads to its handler. -/
theorem dispatch_behind {r : Route Request} {c : Char} {stem : List Char} (there : r ∈ table)
    (extended : r.extended = true) (plain : r.takesJson = false)
    (pattern : r.path.toList = c :: stem) (bare : c ≠ '/') {method : Method}
    (accepts : method ∈ r.methods) (resource : String) (body : List UInt8) :
    Service.urls.dispatch method ("/files/" ++ r.path ++ "/" ++ resource) body =
      .call r.handler ⟨method, resource, none⟩ := by
  have parts : Segmented ("/files/" ++ r.path ++ "/" ++ resource).toList
      ("files".toList ++ '/' :: (r.path ++ "/" ++ resource).toList) "files".toList
      (r.path ++ "/" ++ resource).toList :=
    { leading := ⟨1, by simp⟩
      bare := by simp
      no_slash := by decide
      cut := Or.inr rfl }
  have searched : Searched [("files", table)] ("/files/" ++ r.path ++ "/" ++ resource) table
      (r.path ++ "/" ++ resource) := by
    have all : Tables.under [("files", table)] (.ofList "files".toList) = table := rfl
    have named : Searched [("files", table)] _ _ _ :=
      .named parts ⟨_, List.mem_cons_self, rfl⟩
    rwa [all, String.ofList_toList] at named
  have decides := decides_of_matches there (matches?_behind extended pattern bare resource) accepts
  have unread : r.document? body = some none := by
    simp [Route.document?, plain]
  have whole : Service.urls = Tables.dispatcher [("files", table)] := rfl
  rw [whole, Tables.dispatch_of_searched searched, Http.Dispatcher.search_of_decides decides,
    unread]
  rfl

variable {h : Host ω} {e e' : Engine} {w w' : ω} {resource : String} {response : Response}
  {made : List Call}

/-- An entry that was to be played plays, or playback is stopped for it. -/
theorem treats_of_starts {n : Nat} {result : Except Refusal Unit} (inside : n < e.playlist.count)
    (start : e.stopped.Starts n result e' made) :
    Treats e n .playEntry (report result).status e'
      (dropped e.current ++ dropped e.previous ++ made) := by
  have halted : Halted e [] e.stopped := ⟨rfl, rfl, rfl, rfl, rfl, (List.append_nil _).symm, rfl⟩
  cases start with
  | absent no => exact absurd (List.getElem?_eq_none_iff.mp no) (Nat.not_le.mpr inside)
  | unopened here reason =>
    exact .unplayable here (List.mem_append_right _ List.mem_cons_self) halted
  | refused here file reason =>
    exact .unplayable here (List.mem_append_right _ List.mem_cons_self) halted
  | started here file stream =>
    exact .played here rfl (by simp) ⟨rfl, rfl, rfl, rfl, rfl, rfl⟩

theorem treats_of_removes {n : Nat} (removes : e.Removes n (.ok ()) e' made) :
    Treats e n .removeEntry 200 e' made := by
  cases removes with
  | current inside here =>
    refine .removed ?_
    rw [if_pos here]
    exact Engine.spared_erased nofun
  | other inside elsewhere =>
    refine .removed ?_
    rw [if_neg elsewhere]
    exact Engine.spared_erased elsewhere

/-- A request for an entry is about the one that is addressed, or nothing is done. -/
theorem Serves.addressed {r : Request} (indexed : r = .playEntry ∨ r = .removeEntry)
    (serves : Serves h e w resource r response e' w' made) :
    (∃ n, Addresses resource n ∧ n < e.playlist.count ∧ Treats e n r response.status e' made) ∨
      (∀ n, Addresses resource n → e.playlist.count ≤ n) ∧
        response.status = 400 ∧ e' = e ∧ w' = w ∧ made = [] := by
  cases serves with
  | badIndex _ no =>
    refine Or.inr ⟨fun n addresses => ?_, rfl, rfl, rfl, rfl⟩
    rw [index?_eq_some_iff.mpr addresses] at no
    cases no
  | noEntry _ index outside =>
    refine Or.inr ⟨fun n addresses => ?_, rfl, rfl, rfl, rfl⟩
    rwa [addresses.unique (index?_eq_some_iff.mp index)]
  | entryPlayed index inside start =>
    exact Or.inl ⟨_, index?_eq_some_iff.mp index, inside, treats_of_starts inside start⟩
  | @entryRemoved n _ _ _ index removes =>
    have inside : n < e.playlist.count := by
      cases removes with
      | current inside => exact inside
      | other inside => exact inside
    exact Or.inl ⟨_, index?_eq_some_iff.mp index, inside, treats_of_removes removes⟩
  | performed means _ => rcases indexed with rfl | rfl <;> cases means
  | _ => simp at indexed

structure Indexed (e : Engine) (w : ω) (resource : String) (r : Request) (response : Response)
    (e' : Engine) (w' : ω) (made : List Call) : Prop where
  /-- An entry that is there is treated as the request wants. -/
  treats : ∀ n, Addresses resource n → n < e.playlist.count → Treats e n r response.status e' made
  /-- If none is addressed that is there, nothing is done. -/
  refuses : (∀ n, Addresses resource n → e.playlist.count ≤ n) →
    response.status = 400 ∧ e' = e ∧ w' = w ∧ made = []

theorem Serves.indexed {r : Request} (indexed : r = .playEntry ∨ r = .removeEntry)
    (serves : Serves h e w resource r response e' w' made) :
    Indexed e w resource r response e' w' made := by
  rcases serves.addressed indexed with ⟨n, addresses, inside, treats⟩ | ⟨outside, nothing⟩
  · refine ⟨fun m addresses' _ => addresses.unique addresses' ▸ treats, fun outside => ?_⟩
    exact absurd inside (Nat.not_lt.mpr (outside n addresses))
  · exact ⟨fun n addresses inside => absurd inside (Nat.not_lt.mpr (outside n addresses)),
      fun _ => nothing⟩

/-- A `PUT` that leads to the handler of a request is served by it. -/
theorem answer_of_dispatch (h : Host ω) (e : Engine) (watched : Bool) (w : ω) {r : Request}
    {method : Method} {path : String} {body : List UInt8} {json : Option Json.Value}
    (decided : Service.urls.dispatch method path body = .call r ⟨method, resource, json⟩) :
    ∃ response e' w' made,
      Service.urls.answer (Service.handle h.recorded) method path body ⟨e, watched⟩ (w, []) =
        ((.answered response, ⟨e', watched⟩), (w', made)) ∧
      Serves h e w resource r response e' w' made := by
  obtain ⟨response, e', w', made, ran, serves⟩ := r.handles h e w resource
  refine ⟨response, e', w', made, ?_, serves⟩
  rw [Http.Dispatcher.answer, decided]
  dsimp only [Service.handle]
  rw [ran]
  rfl

end Request

/-- Requests for an entry by its index, in every state of the player and for every text at the end
of the path. The text addresses an entry if it is a numeral, or nothing, up to slashes. A removal
succeeds exactly if an entry is addressed that is there; then that entry is gone and, but for a stop
if it was the current one, nothing else has changed. A request to play tries the entry that is
addressed. If none is, or none that is there, both are refused, and the engine and the world are the
same and no call was made. -/
theorem Service.index_requests (h : Host ω) (e : Engine) (watched : Bool) (w : ω)
    (resource : String) (body : List UInt8) :
    (∃ response e' w' made,
      Service.urls.answer (Service.handle h.recorded) .put ("/files/playlist/remove/" ++ resource)
          body ⟨e, watched⟩ (w, []) =
        ((.answered response, ⟨e', watched⟩), (w', made)) ∧
      (response.status = 200 ↔ ∃ n, Addresses resource n ∧ n < e.playlist.count) ∧
      Request.Indexed e w resource .removeEntry response e' w' made) ∧
    ∃ response e' w' made,
      Service.urls.answer (Service.handle h.recorded) .put ("/files/playlist/play/" ++ resource)
          body ⟨e, watched⟩ (w, []) =
        ((.answered response, ⟨e', watched⟩), (w', made)) ∧
      Request.Indexed e w resource .playEntry response e' w' made := by
  have removal := Request.dispatch_behind
    (r := .make "playlist/remove" true false [.put] .removeEntry)
    (by simp [Request.table]) rfl rfl rfl (by decide) List.mem_cons_self resource body
  have play := Request.dispatch_behind
    (r := .make "playlist/play" true false [.put] .playEntry)
    (by simp [Request.table]) rfl rfl rfl (by decide) List.mem_cons_self resource body
  obtain ⟨response, e', w', made, ran, serves⟩ := Request.answer_of_dispatch h e watched w removal
  obtain ⟨response₂, e₂, w₂, made₂, ran₂, serves₂⟩ := Request.answer_of_dispatch h e watched w play
  refine ⟨⟨response, e', w', made, ran, ?_, serves.indexed (Or.inr rfl)⟩,
    response₂, e₂, w₂, made₂, ran₂, serves₂.indexed (Or.inl rfl)⟩
  rcases serves.addressed (Or.inr rfl) with ⟨n, addresses, inside, treats⟩ | ⟨outside, refused, -⟩
  · refine ⟨fun _ => ⟨n, addresses, inside⟩, fun _ => ?_⟩
    generalize response.status = status at treats
    cases treats
    rfl
  · rw [refused]
    exact ⟨nofun, fun ⟨n, addresses, inside⟩ =>
      absurd inside (Nat.not_lt.mpr (outside n addresses))⟩

end Jukebox.Playback
