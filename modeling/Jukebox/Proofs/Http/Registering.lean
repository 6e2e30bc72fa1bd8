import Jukebox.Proofs.Http.Routing
/-!
# The order of registration

A dispatcher keeps its tables by the names they are registered under. Each name is there once, and
its routes are those registered under it, in the order of the calls. Nothing else of the calls is
left: what a request is answered depends on which names there are and on the routes under each, so
calls under different names may change places, and one call may be cut in two.
-/
namespace Jukebox.Http

variable {η : Type}

namespace Dispatcher

/-- A name that is there keeps its place, and a new one comes to the end. -/
theorem names_extend (name : String) (routes : List (Route η)) (namespaces : List (Namespace η)) :
    (extend name routes namespaces).map (·.name) =
      if name ∈ namespaces.map (·.name) then namespaces.map (·.name)
      else namespaces.map (·.name) ++ [name] := by
  induction namespaces with
  | nil => rfl
  | cons n rest ih =>
    rw [extend]
    by_cases here : n.name = name
    · simp [here]
    · rw [if_neg here, List.map_cons, List.map_cons, ih]
      by_cases later : name ∈ rest.map (·.name) <;> simp [later, Ne.symm here]

/-- Routes that are registered one list after the other are registered as one list. -/
theorem extend_extend (name : String) (first second : List (Route η))
    (namespaces : List (Namespace η)) :
    extend name second (extend name first namespaces) =
      extend name (first ++ second) namespaces := by
  induction namespaces with
  | nil => simp [extend]
  | cons n rest ih => by_cases here : n.name = name <;> simp [extend, here, ih]

theorem addUrls_addUrls (d : Dispatcher η) (name : String) (first second : List (Route η)) :
    (d.addUrls name first).addUrls name second = d.addUrls name (first ++ second) :=
  congrArg Dispatcher.mk (extend_extend ..)

theorem names_addUrls (d : Dispatcher η) (name : String) (routes : List (Route η)) :
    (d.addUrls name routes).names =
      if Text.trimSlashes name ∈ d.names then d.names else d.names ++ [Text.trimSlashes name] :=
  names_extend ..

/-- Of a name that is there once the routes are found. -/
theorem routesOf?_eq {d : Dispatcher η} (distinct : d.names.Nodup) {n : Namespace η}
    (there : n ∈ d.namespaces) : d.routesOf? n.name = some n.routes := by
  have named : (d.namespaces.find? fun n' => n'.name = n.name).isSome := by
    rw [List.find?_isSome]
    exact ⟨n, there, decide_eq_true rfl⟩
  obtain ⟨n', found⟩ := Option.isSome_iff_exists.mp named
  have same : n'.name = n.name := by simpa using List.find?_some found
  have one : n' = n :=
    List.inj_on_of_nodup_map distinct (List.mem_of_find?_eq_some found) there same
  rw [routesOf?, found, one]
  rfl

end Dispatcher

namespace Tables

variable {ts ts' : Tables η} {method : Method} {path : String} {body : List UInt8}

theorem dispatcher_append (ts : Tables η) (t : String × List (Route η)) :
    dispatcher (ts ++ [t]) = (dispatcher ts).addUrls t.1 t.2 := by
  rw [dispatcher, List.foldl_append]
  rfl

/-- No name is there twice, whatever was registered. -/
theorem names_nodup (ts : Tables η) : ts.dispatcher.names.Nodup := by
  induction ts using List.reverseRecOn with
  | nil => exact List.nodup_nil
  | append_singleton ts t ih =>
    rw [dispatcher_append, Dispatcher.names_addUrls]
    split
    · exact ih
    · rename_i unknown
      exact List.nodup_append.mpr ⟨ih, List.nodup_singleton _, fun n there n' last same =>
        unknown (List.mem_singleton.mp last ▸ same ▸ there)⟩

theorem mem_names {name : String} : name ∈ ts.dispatcher.names ↔ ts.Names name := by
  induction ts using List.reverseRecOn with
  | nil => simp [dispatcher, Dispatcher.empty, Dispatcher.names, Names]
  | append_singleton ts t ih =>
    have names : Names (ts ++ [t]) name ↔ Names ts name ∨ Text.trimSlashes t.1 = name := by
      simp [Names, or_and_right, exists_or]
    rw [dispatcher_append, Dispatcher.names_addUrls, names, ← ih]
    split
    · rename_i known
      exact ⟨Or.inl, fun either => either.elim id fun same => same ▸ known⟩
    · rw [List.mem_append, List.mem_singleton, eq_comm (a := name)]

/-- The tables of a name are all that a dispatcher knows of it. -/
theorem routes_eq {n : Namespace η} (there : n ∈ ts.dispatcher.namespaces) :
    n.routes = ts.under n.name := by
  have known : ts.Names n.name := mem_names.mp (List.mem_map_of_mem there)
  have found := Dispatcher.routesOf?_eq ts.names_nodup there
  rw [(ts.routesOf?_dispatcher n.name).1 known] at found
  exact (Option.some.inj found).symm

/-- Names are registered without outer slashes. -/
theorem Names.bare {name : String} (known : ts.Names name) :
    name.toList.head? ≠ some '/' ∧ name.toList.getLast? ≠ some '/' := by
  obtain ⟨t, -, rfl⟩ := known
  rw [Text.trimSlashes, String.toList_ofList]
  exact Text.TrimsBoth.bare (Text.trimsBoth_iff.mpr rfl)

/-- What is decided on a request is what the search of its routes comes to. -/
theorem dispatch_of_searched {routes : List (Route η)} {rest : String}
    (searched : Searched ts path routes rest) :
    ts.dispatcher.dispatch method path body = Dispatcher.search method rest body false routes := by
  rw [Dispatcher.dispatch, target?_of_searched searched]

theorem dispatch_of_unknown {whole head rest : List Char}
    (parts : Segmented path.toList whole head rest) (unknown : ¬ts.Names (.ofList head))
    (alone : ¬ts.Names "") : ts.dispatcher.dispatch method path body = .respond .notFound := by
  rw [Dispatcher.dispatch, target?_of_unknown parts unknown alone]

/-- What is decided on a request depends on the names and on what the search under each comes to. -/
theorem dispatch_congr (names : ∀ name, ts.Names name ↔ ts'.Names name)
    (searches : ∀ name rest, Dispatcher.search method rest body false (ts.under name) =
      Dispatcher.search method rest body false (ts'.under name)) :
    ts.dispatcher.dispatch method path body = ts'.dispatcher.dispatch method path body := by
  obtain ⟨whole, head, rest, parts⟩ := exists_segmented path.toList
  by_cases known : ts.Names (.ofList head)
  · rw [dispatch_of_searched (.named parts known),
      dispatch_of_searched (.named parts ((names _).mp known)), searches]
  have known' : ¬ts'.Names (.ofList head) := fun there => known ((names _).mpr there)
  by_cases alone : ts.Names ""
  · rw [dispatch_of_searched (.unnamed parts known alone),
      dispatch_of_searched (.unnamed parts known' ((names _).mp alone)), searches]
  · have alone' : ¬ts'.Names "" := fun there => alone ((names _).mpr there)
    rw [dispatch_of_unknown parts known alone, dispatch_of_unknown parts known' alone']

/-- The same tables in another order, in which those of each name have kept theirs. -/
structure Reordered (ts ts' : Tables η) : Prop where
  perm : ts'.Perm ts
  kept : ∀ name, ts'.filter (Text.trimSlashes ·.1 = name) = ts.filter (Text.trimSlashes ·.1 = name)

theorem under_eq_flatMap (ts : Tables η) (name : String) :
    ts.under name = (ts.filter (Text.trimSlashes ·.1 = name)).flatMap Prod.snd := by
  induction ts with
  | nil => rfl
  | cons t rest ih =>
    rw [under] at ih ⊢
    by_cases here : Text.trimSlashes t.1 = name <;> simp [here, ih]

namespace Reordered

/-- Neighbours under different names may change places. -/
theorem swap (before : Tables η) {after : Tables η} {t t' : String × List (Route η)}
    (other : Text.trimSlashes t.1 ≠ Text.trimSlashes t'.1) :
    Reordered (before ++ t :: t' :: after) (before ++ t' :: t :: after) := by
  refine ⟨(List.Perm.swap t t' after).append_left before, fun name => ?_⟩
  rw [List.filter_append, List.filter_append]
  congr 1
  by_cases first : Text.trimSlashes t.1 = name
  · have second : Text.trimSlashes t'.1 ≠ name := fun same => other (first.trans same.symm)
    simp [first, second]
  · by_cases second : Text.trimSlashes t'.1 = name <;> simp [first, second]

theorem names (reordered : Reordered ts ts') (name : String) : ts'.Names name ↔ ts.Names name :=
  exists_congr fun _ => and_congr_left' reordered.perm.mem_iff

theorem under_eq (reordered : Reordered ts ts') (name : String) :
    ts'.under name = ts.under name := by
  rw [under_eq_flatMap, under_eq_flatMap, reordered.kept]

theorem dispatch_eq (reordered : Reordered ts ts') :
    ts'.dispatcher.dispatch method path body = ts.dispatcher.dispatch method path body :=
  dispatch_congr reordered.names fun name _ => by rw [reordered.under_eq name]

end Reordered

/-- A table that is registered in two calls, one right after the other. -/
theorem dispatcher_split (before after : Tables η) (name : String) (first second : List (Route η)) :
    dispatcher (before ++ (name, first) :: (name, second) :: after) =
      dispatcher (before ++ (name, first ++ second) :: after) := by
  simp only [dispatcher, List.foldl_append, List.foldl_cons, Dispatcher.addUrls_addUrls]

/-- The order of registration counts only within a name. Whatever is registered, the names are
pairwise different and without outer slashes, they are the names that tables were registered under,
and each has the routes of its tables in the order of the calls. If the calls are reordered and
those under each name keep their order, every request is decided alike, by the same refusal or the
same handler with the same request, and so it is answered alike in every world. A call that is cut
in two gives the very same dispatcher. -/
theorem registered_in_any_order (reordered : Reordered ts ts') :
    ts.dispatcher.names.Nodup ∧
    (∀ name, name ∈ ts.dispatcher.names ↔ ts.Names name) ∧
    (∀ n ∈ ts.dispatcher.namespaces, n.name.toList.head? ≠ some '/' ∧
      n.name.toList.getLast? ≠ some '/' ∧ n.routes = ts.under n.name) ∧
    (∀ method path body,
      ts'.dispatcher.dispatch method path body = ts.dispatcher.dispatch method path body ∧
      ∀ {ω : Type} (handle : η → Request → StateM ω Reply) (w : ω),
        ts'.dispatcher.answer handle method path body w =
          ts.dispatcher.answer handle method path body w) ∧
    ∀ (before after : Tables η) (name : String) (first second : List (Route η)),
      dispatcher (before ++ (name, first) :: (name, second) :: after) =
        dispatcher (before ++ (name, first ++ second) :: after) := by
  refine ⟨ts.names_nodup, fun _ => mem_names, fun n there => ?_, fun method path body => ?_,
    dispatcher_split⟩
  · obtain ⟨starts, ends⟩ := (mem_names.mp (List.mem_map_of_mem there)).bare
    exact ⟨starts, ends, routes_eq there⟩
  · refine ⟨reordered.dispatch_eq, fun handle w => ?_⟩
    rw [Dispatcher.answer, Dispatcher.answer, reordered.dispatch_eq]

/-- Tables of two names. Those of the first came in two calls, with another one between them. -/
def scattered : Tables Nat :=
  [("files", [.make "play" true false [.put] 1]), ("/config", [.make "" true true [.put] 2]),
    ("/files/", [.make "stop" false false [.put] 3])]

def gathered : Tables Nat :=
  [("/config", [.make "" true true [.put] 2]), ("files", [.make "play" true false [.put] 1]),
    ("/files/", [.make "stop" false false [.put] 3])]

theorem scattered_in_any_order :
    Reordered scattered gathered ∧ scattered.dispatcher.names = ["files", "config"] ∧
    gathered.dispatcher.names = ["config", "files"] ∧
    gathered.dispatcher.dispatch .put "/files/stop/" [] =
      scattered.dispatcher.dispatch .put "/files/stop/" [] ∧
    scattered.dispatcher.dispatch .put "/files/stop/" [] = .call 3 ⟨.put, "", none⟩ := by
  have reordered : Reordered scattered gathered := Reordered.swap [] (by decide)
  exact ⟨reordered, by decide, by decide,
    ((registered_in_any_order reordered).2.2.2.1 .put "/files/stop/" []).1, by rfl⟩

end Tables

end Jukebox.Http
