import Mathlib.Data.List.TakeWhile
import Mathlib.Tactic
import Jukebox.Http.Dispatcher
import Jukebox.Proofs.Text.Segments
/-!
# The routing law

Which handler a request is given to, and what is answered when there is none, said without the
dispatcher: by the tables as they were registered, the segments of the path and the order of the
routes. `Answers` has one rule for each way a request can go. It holds of exactly one answer, the one
that the dispatcher gives, and it counts the calls of handlers: one in its first rule, none in the
others.
-/
namespace Jukebox.Http

variable {ω η : Type} {method : Method} {path : String} {body : List UInt8}

/-- A path taken apart: behind all its leading slashes stands `whole`, which is a first segment with
nothing behind it, or with a slash and the rest. -/
structure Segmented (path whole head rest : List Char) : Prop where
  leading : ∃ k, path = List.replicate k '/' ++ whole
  bare : whole.head? ≠ some '/'
  no_slash : '/' ∉ head
  cut : whole = head ∧ rest = [] ∨ whole = head ++ '/' :: rest

/-- Route tables in the order in which they are registered, each under a name that may be given with
outer slashes. -/
abbrev Tables (η : Type) := List (String × List (Route η))

namespace Tables

/-- The dispatcher that results when the tables are registered. -/
def dispatcher (ts : Tables η) : Dispatcher η :=
  ts.foldl (fun d t => d.addUrls t.1 t.2) .empty

/-- Some table was registered under the name. -/
def Names (ts : Tables η) (name : String) : Prop :=
  ∃ t ∈ ts, Text.trimSlashes t.1 = name

/-- The routes that were registered under a name, table by table. -/
def under (ts : Tables η) (name : String) : List (Route η) :=
  ts.flatMap fun t => if Text.trimSlashes t.1 = name then t.2 else []

end Tables

/-- The routes that are searched for a path, and what of the path they are matched against: those of
the namespace that its first segment names, or those without a name. -/
inductive Searched (ts : Tables η) (path : String) : List (Route η) → String → Prop
  | named {whole head rest : List Char} (parts : Segmented path.toList whole head rest)
      (known : ts.Names (.ofList head)) :
      Searched ts path (ts.under (.ofList head)) (.ofList rest)
  | unnamed {whole head rest : List Char} (parts : Segmented path.toList whole head rest)
      (unknown : ¬ts.Names (.ofList head)) (known : ts.Names "") :
      Searched ts path (ts.under "") (.ofList whole)

structure Decides (routes : List (Route η)) (method : Method) (path : String) (r : Route η)
    (resource : String) : Prop where
  first : ∃ before later, routes = before ++ r :: later ∧
    ∀ r' ∈ before, r'.matches? path ≠ none → method ∉ r'.methods
  fits : r.matches? path = some resource
  accepts : method ∈ r.methods

/-- No route matches the path and accepts the method. -/
def Undecided (routes : List (Route η)) (method : Method) (path : String) : Prop :=
  ∀ r ∈ routes, r.matches? path ≠ none → method ∉ r.methods

inductive Reads (r : Route η) (body : List UInt8) : Option Json.Value → Prop
  | nothing (unread : r.takesJson = false ∨ body = []) : Reads r body none
  | parsed {v : Json.Value} (wanted : r.takesJson = true) (filled : body ≠ [])
      (read : Json.Value.parseBytes? body = some v) : Reads r body (some v)

/-- Everything that comes of a request: the answer, the world after it, and the handlers called. -/
inductive Answers (ts : Tables η) (handle : η → Request → StateM ω Reply) (method : Method)
    (path : String) (body : List UInt8) (w : ω) : Reply → ω → List (η × Request) → Prop
  | handled {routes : List (Route η)} {rest resource : String} {r : Route η}
      {json : Option Json.Value} {reply : Reply} {w' : ω} (searched : Searched ts path routes rest)
      (decides : Decides routes method rest r resource) (reads : Reads r body json)
      (ran : handle r.handler ⟨method, resource, json⟩ w = (reply, w')) :
      Answers ts handle method path body w reply w' [(r.handler, ⟨method, resource, json⟩)]
  | malformed {routes : List (Route η)} {rest resource : String} {r : Route η}
      (searched : Searched ts path routes rest) (decides : Decides routes method rest r resource)
      (wanted : r.takesJson = true) (filled : body ≠ [])
      (unreadable : Json.Value.parseBytes? body = none) :
      Answers ts handle method path body w (.answered ⟨400, some "Bad JSON body", .plain⟩) w []
  | notAllowed {routes : List (Route η)} {rest : String} (searched : Searched ts path routes rest)
      (undecided : Undecided routes method rest) (fits : ∃ r ∈ routes, r.matches? rest ≠ none) :
      Answers ts handle method path body w (.answered ⟨405, some "Method not allowed", .plain⟩) w []
  | notFound {routes : List (Route η)} {rest : String} (searched : Searched ts path routes rest)
      (unfit : ∀ r ∈ routes, r.matches? rest = none) :
      Answers ts handle method path body w (.answered ⟨404, some "Not found", .plain⟩) w []
  | nowhere {whole head rest : List Char} (parts : Segmented path.toList whole head rest)
      (unknown : ¬ts.Names (.ofList head)) (alone : ¬ts.Names "") :
      Answers ts handle method path body w (.answered ⟨404, some "Not found", .plain⟩) w []

/-- Handlers with a journal of their calls beside the world. -/
def journaled (handle : η → Request → StateM ω Reply) :
    η → Request → StateM (ω × List (η × Request)) Reply :=
  fun h q (w, calls) =>
    let (reply, w) := handle h q w
    (reply, (w, calls ++ [(h, q)]))

section Paths

variable {cs whole head rest : List Char}

theorem cutFirst_append (no_slash : '/' ∉ head) (rest : List Char) :
    Text.cutFirst (head ++ '/' :: rest) = (head, rest) := by
  have passed : ∀ c ∈ head, decide (c ≠ '/') = true := fun c there =>
    decide_eq_true fun same => no_slash (same ▸ there)
  simp only [Text.cutFirst, List.takeWhile_append_of_pos passed, List.dropWhile_append_of_pos passed]
  simp

theorem cutFirst_alone (no_slash : '/' ∉ head) : Text.cutFirst head = (head, []) := by
  have passed : ∀ c ∈ head, decide (c ≠ '/') = true := fun c there =>
    decide_eq_true fun same => no_slash (same ▸ there)
  rw [Text.cutFirst, List.takeWhile_eq_self_iff.mpr passed, List.dropWhile_eq_nil_iff.mpr passed]
  rfl

/-- The parts of a path are those that the dispatcher computes. -/
theorem Segmented.trimLeft_eq (parts : Segmented cs whole head rest) :
    Text.trimLeft cs = whole := by
  obtain ⟨k, rfl⟩ := parts.leading
  exact Text.trimLeft_replicate_append k parts.bare

theorem Segmented.cutFirst_eq (parts : Segmented cs whole head rest) :
    Text.cutFirst whole = (head, rest) := by
  rcases parts.cut with ⟨rfl, rfl⟩ | rfl
  · exact cutFirst_alone parts.no_slash
  · exact cutFirst_append parts.no_slash rest

/-- Every path can be taken apart. -/
theorem exists_segmented (cs : List Char) : ∃ whole head rest, Segmented cs whole head rest := by
  obtain ⟨leading, bare⟩ := Text.trimsLeft_trimLeft cs
  have no_slash : '/' ∉ (Text.trimLeft cs).takeWhile (· ≠ '/') := fun there => by
    simpa using List.mem_takeWhile_imp there
  have split : (Text.trimLeft cs).takeWhile (· ≠ '/') ++ (Text.trimLeft cs).dropWhile (· ≠ '/') =
      Text.trimLeft cs := List.takeWhile_append_dropWhile
  rcases behind : (Text.trimLeft cs).dropWhile (· ≠ '/') with _ | ⟨c, more⟩
  · rw [behind, List.append_nil] at split
    exact ⟨_, _, [], leading, bare, no_slash, Or.inl ⟨split.symm, rfl⟩⟩
  · have stopped := List.head?_dropWhile_not (fun c => decide (c ≠ '/')) (Text.trimLeft cs)
    rw [behind] at stopped
    have slash : c = '/' := by simpa using stopped
    rw [behind, slash] at split
    exact ⟨_, _, more, leading, bare, no_slash, Or.inr split.symm⟩

end Paths

namespace Dispatcher

/-- Registering a table adds its routes behind those of the same name, and changes no other
namespace. -/
theorem routesOf?_addUrls (d : Dispatcher η) (namespaceName : String) (routes : List (Route η))
    (name : String) :
    (d.addUrls namespaceName routes).routesOf? name =
      if Text.trimSlashes namespaceName = name then some ((d.routesOf? name).getD [] ++ routes)
      else d.routesOf? name := by
  obtain ⟨namespaces⟩ := d
  simp only [routesOf?, addUrls]
  generalize Text.trimSlashes namespaceName = trimmed
  induction namespaces with
  | nil => by_cases same : trimmed = name <;> simp [extend, same]
  | cons n rest ih =>
    rw [extend]
    by_cases here : n.name = trimmed
    · rw [if_pos here]
      by_cases same : trimmed = name <;> simp [here, same]
    · rw [if_neg here]
      by_cases found : n.name = name
      · have other : trimmed ≠ name := fun same => here (found.trans same.symm)
        simp [found, other]
      · simpa [found] using ih

/-- The deciding route is called, or its body refused, whatever else the routes hold. -/
theorem search_of_decides {routes : List (Route η)} {r : Route η} {resource : String}
    (decides : Decides routes method path r resource) (seen : Bool) :
    search method path body seen routes =
      ((r.document? body).map fun json => .call r.handler ⟨method, resource, json⟩).getD
        (.respond .badJson) := by
  obtain ⟨⟨before, later, rfl, passed⟩, fits, accepts⟩ := decides
  induction before generalizing seen with
  | nil =>
    rw [List.nil_append, search]
    cases r.document? body <;> simp [fits, accepts]
  | cons r' before ih =>
    have others (seen : Bool) := ih seen fun r there => passed r (List.mem_cons_of_mem r' there)
    rw [List.cons_append, search]
    cases fits' : r'.matches? path with
    | none => exact others seen
    | some other =>
      have refuses := passed r' List.mem_cons_self (by rw [fits']; exact Option.some_ne_none other)
      simpa [refuses] using others true

/-- Without a deciding route it counts whether any route matches. -/
theorem search_of_undecided {routes : List (Route η)} (undecided : Undecided routes method path)
    (seen : Bool) :
    search method path body seen routes =
      .respond (if seen ∨ ∃ r ∈ routes, r.matches? path ≠ none then .methodNotAllowed
        else .notFound) := by
  classical
  induction routes generalizing seen with
  | nil => simp [search]
  | cons r rest ih =>
    have others := fun seen => ih (fun r' there => undecided r' (List.mem_cons_of_mem r there)) seen
    rw [search]
    cases fits : r.matches? path with
    | none => simpa [fits] using others seen
    | some resource =>
      have refuses := undecided r List.mem_cons_self (by rw [fits]; exact Option.some_ne_none _)
      simpa [refuses, fits] using others true

end Dispatcher

theorem Reads.document?_eq {r : Route η} {json : Option Json.Value} (reads : Reads r body json) :
    r.document? body = some json := by
  cases reads with
  | nothing unread =>
    have skipped : ¬(r.takesJson = true ∧ body ≠ []) := by
      rcases unread with plain | empty
      · simp [plain]
      · simp [empty]
    rw [Route.document?, if_neg skipped]
  | parsed wanted filled read =>
    rw [Route.document?, if_pos ⟨wanted, filled⟩, read]
    rfl

theorem document?_unreadable {r : Route η} (wanted : r.takesJson = true) (filled : body ≠ [])
    (unreadable : Json.Value.parseBytes? body = none) : r.document? body = none := by
  rw [Route.document?, if_pos ⟨wanted, filled⟩, unreadable]
  rfl

/-- A route has a document for a body, unless it wants one that cannot be read. -/
theorem reads_or_unreadable (r : Route η) (body : List UInt8) :
    (∃ json, Reads r body json) ∨
      r.takesJson = true ∧ body ≠ [] ∧ Json.Value.parseBytes? body = none := by
  by_cases wanted : r.takesJson = true
  · by_cases filled : body = []
    · exact Or.inl ⟨none, .nothing (Or.inr filled)⟩
    · cases read : Json.Value.parseBytes? body with
      | none => exact Or.inr ⟨wanted, filled, rfl⟩
      | some v => exact Or.inl ⟨some v, .parsed wanted filled read⟩
  · exact Or.inl ⟨none, .nothing (Or.inl ((Bool.not_eq_true _).mp wanted))⟩

/-- Of routes, one decides or none does. -/
theorem decides_or_undecided (routes : List (Route η)) (method : Method) (path : String) :
    (∃ r resource, Decides routes method path r resource) ∨ Undecided routes method path := by
  induction routes with
  | nil => exact Or.inr (List.forall_mem_nil _)
  | cons r rest ih =>
    by_cases here : (∃ resource, r.matches? path = some resource) ∧ method ∈ r.methods
    · obtain ⟨⟨resource, fits⟩, accepts⟩ := here
      exact Or.inl ⟨r, resource, ⟨[], rest, rfl, List.forall_mem_nil _⟩, fits, accepts⟩
    · have passed : r.matches? path ≠ none → method ∉ r.methods := fun fits accepts =>
        here ⟨Option.ne_none_iff_exists'.mp fits, accepts⟩
      rcases ih with ⟨r', resource, ⟨before, later, rfl, others⟩, fits, accepts⟩ | undecided
      · exact Or.inl ⟨r', resource, ⟨r :: before, later, rfl,
          List.forall_mem_cons.mpr ⟨passed, others⟩⟩, fits, accepts⟩
      · exact Or.inr (List.forall_mem_cons.mpr ⟨passed, undecided⟩)

namespace Tables

variable {ts : Tables η} {name : String}

/-- The namespaces of a dispatcher are the names that tables were registered under, each with the
routes of all of them. -/
theorem routesOf?_dispatcher (ts : Tables η) (name : String) :
    (ts.Names name → ts.dispatcher.routesOf? name = some (ts.under name)) ∧
      (¬ts.Names name → ts.dispatcher.routesOf? name = none ∧ ts.under name = []) := by
  induction ts using List.reverseRecOn with
  | nil => exact ⟨fun known => by simp [Names] at known, fun _ => ⟨rfl, rfl⟩⟩
  | append_singleton ts t ih =>
    have added : dispatcher (ts ++ [t]) = (dispatcher ts).addUrls t.1 t.2 := by
      simp [dispatcher]
    have routes : under (ts ++ [t]) name =
        under ts name ++ if Text.trimSlashes t.1 = name then t.2 else [] := by
      simp [under]
    have names : Names (ts ++ [t]) name ↔ Names ts name ∨ Text.trimSlashes t.1 = name := by
      simp [Names, or_and_right, exists_or]
    rw [added, routes, names, Dispatcher.routesOf?_addUrls]
    by_cases known : Names ts name
    · by_cases same : Text.trimSlashes t.1 = name <;> simp [known, same, ih.1 known]
    · obtain ⟨absent, empty⟩ := ih.2 known
      by_cases same : Text.trimSlashes t.1 = name <;> simp [known, same, absent, empty]

theorem target?_of_searched {routes : List (Route η)} {rest : String}
    (searched : Searched ts path routes rest) :
    ts.dispatcher.target? path = some (routes, rest) := by
  cases searched with
  | named parts known =>
    simp only [Dispatcher.target?, parts.trimLeft_eq, parts.cutFirst_eq,
      (ts.routesOf?_dispatcher _).1 known]
  | unnamed parts unknown known =>
    simp only [Dispatcher.target?, parts.trimLeft_eq, parts.cutFirst_eq,
      ((ts.routesOf?_dispatcher _).2 unknown).1, (ts.routesOf?_dispatcher _).1 known]
    rfl

theorem target?_of_unknown {whole head rest : List Char}
    (parts : Segmented path.toList whole head rest) (unknown : ¬ts.Names (.ofList head))
    (alone : ¬ts.Names "") : ts.dispatcher.target? path = none := by
  simp only [Dispatcher.target?, parts.trimLeft_eq, parts.cutFirst_eq,
    ((ts.routesOf?_dispatcher _).2 unknown).1, ((ts.routesOf?_dispatcher _).2 alone).1]
  rfl

/-- Some rule applies to every request. -/
theorem exists_answers (ts : Tables η) (handle : η → Request → StateM ω Reply) (method : Method)
    (path : String) (body : List UInt8) (w : ω) :
    ∃ reply w' calls, Answers ts handle method path body w reply w' calls := by
  have within {routes : List (Route η)} {rest : String}
      (searched : Searched ts path routes rest) :
      ∃ reply w' calls, Answers ts handle method path body w reply w' calls := by
    rcases decides_or_undecided routes method rest with ⟨r, resource, decides⟩ | undecided
    · rcases reads_or_unreadable r body with ⟨json, reads⟩ | ⟨wanted, filled, unreadable⟩
      · exact ⟨_, _, _, .handled searched decides reads rfl⟩
      · exact ⟨_, _, _, .malformed searched decides wanted filled unreadable⟩
    · by_cases fits : ∃ r ∈ routes, r.matches? rest ≠ none
      · exact ⟨_, _, _, .notAllowed searched undecided fits⟩
      · exact ⟨_, _, _, .notFound searched (by simpa using fits)⟩
  obtain ⟨whole, head, rest, parts⟩ := exists_segmented path.toList
  by_cases known : ts.Names (.ofList head)
  · exact within (.named parts known)
  by_cases known' : ts.Names ""
  · exact within (.unnamed parts known known')
  · exact ⟨_, _, _, .nowhere parts known known'⟩

/-- What a rule says is what the dispatcher does, with and without a journal. -/
theorem answer_of_answers {handle : η → Request → StateM ω Reply} {w w' : ω} {reply : Reply}
    {calls : List (η × Request)} (answers : Answers ts handle method path body w reply w' calls) :
    ts.dispatcher.answer handle method path body w = (reply, w') ∧
      ∀ before, ts.dispatcher.answer (journaled handle) method path body (w, before) =
        (reply, (w', before ++ calls)) := by
  have decided {routes : List (Route η)} {rest : String} (searched : Searched ts path routes rest) :
      ts.dispatcher.dispatch method path body = Dispatcher.search method rest body false routes := by
    rw [Dispatcher.dispatch, target?_of_searched searched]
  have refused {response : Response}
      (decision : ts.dispatcher.dispatch method path body = .respond response) :
      ts.dispatcher.answer handle method path body w = (.answered response, w) ∧
        ∀ before, ts.dispatcher.answer (journaled handle) method path body (w, before) =
          (.answered response, (w, before ++ [])) := by
    constructor
    · rw [Dispatcher.answer, decision]
      rfl
    · intro before
      rw [Dispatcher.answer, decision, List.append_nil]
      rfl
  cases answers with
  | handled searched decides reads ran =>
    have decision := decided searched
    rw [Dispatcher.search_of_decides decides, reads.document?_eq] at decision
    have decision' : ts.dispatcher.dispatch method path body = .call _ _ := decision
    constructor
    · rw [Dispatcher.answer, decision']
      exact ran
    · intro before
      rw [Dispatcher.answer, decision']
      simp only [journaled, ran]
  | malformed searched decides wanted filled unreadable =>
    refine refused ((decided searched).trans ?_)
    rw [Dispatcher.search_of_decides decides, document?_unreadable wanted filled unreadable]
    rfl
  | notAllowed searched undecided fits =>
    refine refused ((decided searched).trans ?_)
    rw [Dispatcher.search_of_undecided undecided, if_pos (Or.inr fits)]
    rfl
  | notFound searched unfit =>
    refine refused ((decided searched).trans ?_)
    rw [Dispatcher.search_of_undecided fun r there fits => absurd (unfit r there) fits,
      if_neg (by simpa using unfit)]
    rfl
  | nowhere parts unknown alone =>
    refine refused ?_
    rw [Dispatcher.dispatch, target?_of_unknown parts unknown alone]
    rfl

/-- The routing law: what a dispatcher answers to a request, what becomes of the world and which
handlers it calls are what the rules say, and nothing else is. A journal of the calls changes
nothing. -/
theorem routing_law (ts : Tables η) (handle : η → Request → StateM ω Reply) (method : Method)
    (path : String) (body : List UInt8) (w : ω) :
    (∀ reply w' calls, Answers ts handle method path body w reply w' calls ↔
      ts.dispatcher.answer (journaled handle) method path body (w, []) = (reply, (w', calls))) ∧
    ∃ calls, Answers ts handle method path body w
      (ts.dispatcher.answer handle method path body w).1
      (ts.dispatcher.answer handle method path body w).2 calls := by
  obtain ⟨reply, w', calls, answers⟩ := ts.exists_answers handle method path body w
  obtain ⟨plain, recorded⟩ := answer_of_answers answers
  refine ⟨fun reply₁ w₁ calls₁ => ⟨fun answers₁ => (answer_of_answers answers₁).2 [], ?_⟩, calls, ?_⟩
  · intro same
    rw [recorded, List.nil_append] at same
    cases same
    exact answers
  · rw [plain]
    exact answers

end Tables

end Jukebox.Http
