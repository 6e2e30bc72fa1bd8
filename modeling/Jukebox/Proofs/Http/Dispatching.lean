import Jukebox.Http.Dispatcher
/-!
# Decisions of the dispatcher

A dispatcher answers by itself only to refuse: there is no such path, it does not take the method,
or the body cannot be read. Every other request is handed to a handler of its tables, by a route
that accepts the method.
-/
namespace Jukebox.Http.Dispatcher

variable {η : Type} {method : Method} {path : String} {body : List UInt8}

/-- The responses that are given without a handler. -/
def refusals : List Response := [.notFound, .methodNotAllowed, .badJson]

theorem search_refuses {seen : Bool} {routes : List (Route η)} {response : Response}
    (decided : search method path body seen routes = .respond response) :
    response ∈ refusals := by
  induction routes generalizing seen with
  | nil =>
    cases seen <;> cases decided <;> simp [refusals]
  | cons r rest ih =>
    unfold search at decided
    split at decided
    · exact ih decided
    split at decided
    · split at decided
      · cases decided
      · cases decided
        simp [refusals]
    · exact ih decided

/-- Only refusals are answered without a handler. -/
theorem dispatch_refuses {d : Dispatcher η} {response : Response}
    (decided : d.dispatch method path body = .respond response) : response ∈ refusals := by
  unfold dispatch at decided
  split at decided
  · exact search_refuses decided
  · cases decided
    simp [refusals]

theorem search_calls {seen : Bool} {routes : List (Route η)} {handler : η} {q : Request}
    (decided : search method path body seen routes = .call handler q) :
    q.method = method ∧ ∃ r ∈ routes, r.handler = handler ∧ method ∈ r.methods := by
  induction routes generalizing seen with
  | nil => cases decided
  | cons r rest ih =>
    unfold search at decided
    split at decided
    · obtain ⟨same, r', there, found⟩ := ih decided
      exact ⟨same, r', List.mem_cons_of_mem r there, found⟩
    split at decided
    · rename_i accepts
      split at decided
      · cases decided
        exact ⟨rfl, r, List.mem_cons_self, rfl, List.contains_iff_mem.mp accepts⟩
      · cases decided
    · obtain ⟨same, r', there, found⟩ := ih decided
      exact ⟨same, r', List.mem_cons_of_mem r there, found⟩

/-- All routes of a dispatcher are of a kind. -/
def Every (P : Route η → Prop) (d : Dispatcher η) : Prop :=
  ∀ n ∈ d.namespaces, ∀ r ∈ n.routes, P r

variable {P : Route η → Prop} {d : Dispatcher η}

theorem every_empty : Every P (empty : Dispatcher η) := List.forall_mem_nil _

theorem every_extend {name : String} {routes : List (Route η)} {namespaces : List (Namespace η)}
    (before : ∀ n ∈ namespaces, ∀ r ∈ n.routes, P r) (new : ∀ r ∈ routes, P r) :
    ∀ n ∈ extend name routes namespaces, ∀ r ∈ n.routes, P r := by
  induction namespaces with
  | nil => simpa [extend] using new
  | cons n rest ih =>
    obtain ⟨first, others⟩ := List.forall_mem_cons.mp before
    rw [extend]
    split
    · refine List.forall_mem_cons.mpr ⟨fun r there => ?_, others⟩
      rcases List.mem_append.mp there with old | added
      · exact first r old
      · exact new r added
    · exact List.forall_mem_cons.mpr ⟨first, ih others⟩

theorem Every.addUrls (every : Every P d) (name : String) {routes : List (Route η)}
    (new : ∀ r ∈ routes, P r) : Every P (d.addUrls name routes) :=
  every_extend every new

/-- A handler is only called for a method that a route of its accepts. -/
theorem Every.dispatch_calls (every : Every P d) {handler : η} {q : Request}
    (decided : d.dispatch method path body = .call handler q) :
    q.method = method ∧ ∃ r, P r ∧ r.handler = handler ∧ method ∈ r.methods := by
  have bound {name : String} {routes : List (Route η)} (found : d.routesOf? name = some routes) :
      ∀ r ∈ routes, P r := by
    obtain ⟨n, there, rfl⟩ := Option.map_eq_some_iff.mp found
    exact every n (List.mem_of_find?_eq_some there)
  have searched {routes : List (Route η)} {rest : String}
      (target : d.target? path = some (routes, rest)) : ∀ r ∈ routes, P r := by
    unfold target? at target
    dsimp only at target
    split at target
    · rename_i found
      cases target
      exact bound found
    · obtain ⟨routes', found, same⟩ := Option.map_eq_some_iff.mp target
      cases same
      exact bound found
  unfold dispatch at decided
  split at decided
  · rename_i routes rest target
    obtain ⟨same, r, there, found⟩ := search_calls decided
    exact ⟨same, r, searched target r there, found⟩
  · cases decided

end Jukebox.Http.Dispatcher
