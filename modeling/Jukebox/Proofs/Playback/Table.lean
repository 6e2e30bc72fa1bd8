import Jukebox.Playback.Service
import Jukebox.Proofs.Http.Dispatching
import Jukebox.Proofs.Http.Exclusion
import Jukebox.Proofs.Playback.Handling
import Jukebox.Proofs.Playback.Rehearsal
/-!
# The order of the player's table

The patterns of the player's routes begin with the same letters and the same segments in places, but
each two of them demand different segments somewhere. So a path is a matter of one route at most,
and nothing depends on the order of the table. The handlers never refuse a request for its method;
such a refusal is the dispatcher's, about a path that one route matches and no other.
-/
namespace Jukebox.Playback

open Http (Dispatcher Method Reply Response Route Searched Tables)

variable {ω : Type} (h : Host ω)

/-- The statuses that the player answers with. -/
def statuses : List Nat := [200, 400, 404, 406]

theorem Refusal.status_mem (r : Refusal) : r.response.status ∈ statuses := by
  cases r <;> simp [response, Response.text, status, statuses]

namespace Request

theorem table_apart : table.Pairwise Route.Apart := by decide

/-- No path is matched by two routes of the table. -/
theorem table_exclusive (path : String) : table.Pairwise (Route.Exclude path) :=
  table_apart.imp fun apart => apart.exclude path

theorem addRefused_status (r : Refusal) : (addRefused r).status ∈ statuses := by
  cases r <;> simp [addRefused, Refusal.response, Response.text, Refusal.status, statuses]

theorem report_status {α : Type} (r : Except Refusal α) : (report r).status ∈ statuses := by
  rcases r with r | _
  · exact r.status_mem
  · exact List.mem_cons_self

theorem reportPlay_status (r : Except PlayFailure Unit) : (reportPlay r).status ∈ statuses := by
  rcases r with (r | r) | _
  · exact addRefused_status r
  · cases r <;> simp [reportPlay, Refusal.response, Response.text, Refusal.status, statuses]
  · exact List.mem_cons_self

theorem reportSeek_status (r : Except Refusal Unit) : (reportSeek r).status ∈ statuses := by
  rcases r with r | _
  · cases r <;> simp [reportSeek, Refusal.response, Response.text, Refusal.status, statuses]
  · exact List.mem_cons_self

theorem reportList_status (r : Except Refusal Library.Listing) :
    (reportList r).status ∈ statuses := by
  rcases r with r | _
  · cases r <;> simp [reportList, Refusal.response, Response.text, Refusal.status, statuses]
  · exact List.mem_cons_self

/-- An operation is answered with one of the player's statuses, whatever it comes to. -/
theorem operation_status (r : Request) (resource : String) (s : Stage ω) :
    ((r.operation h resource).run s).1.status ∈ statuses := by
  have badRequest (message : String) :
      ((Procedure.done (Response.text 400 message)).run s).1.status ∈ statuses :=
    List.mem_cons_of_mem 200 List.mem_cons_self
  cases r with
  | addEntry =>
    rw [operation, Procedure.run_map]
    cases ((Operation.add h resource).run s).1 with
    | error r => exact addRefused_status r
    | ok _ => exact List.mem_cons_self
  | playEntry | removeEntry =>
    rw [operation]
    split
    · exact badRequest _
    · rw [Procedure.run_map]
      exact report_status _
  | play =>
    rw [operation, Procedure.run_map]
    exact reportPlay_status _
  | seek =>
    rw [operation]
    split
    · exact badRequest _
    · rw [Procedure.run_map]
      exact reportSeek_status _
  | list =>
    rw [operation, Procedure.run_map]
    exact reportList_status _
  | playlist | status | flush | pause | stop | prev | next =>
    rw [operation, Procedure.run_map]
    exact List.mem_cons_self

end Request

/-- No request that a handler answers is refused for its method. -/
theorem Service.handle_status {r : Request} {q : Http.Request} {p p' : Player} {w w' : ω}
    {response : Response}
    (answered : Service.handle h r q p w = ((.answered response, p'), w')) :
    response.status ∈ statuses := by
  obtain rfl : _ = response := Reply.answered.inj (congrArg (·.1.1) answered)
  exact r.operation_status h q.resource (p.engine, w)

section Shuffled

variable {shuffled : List (Route Request)} {name path : String} {method : Method}
  {body : List UInt8}

/-- Of routes that exclude each other, one that matches is the only one. -/
theorem sole_match (exclusive : shuffled.Pairwise (Route.Exclude path)) {r r' : Route Request}
    (there : r ∈ shuffled) (fits : r.matches? path ≠ none) (there' : r' ∈ shuffled)
    (fits' : r'.matches? path ≠ none) : r' = r := by
  by_contra other
  exact (exclusive.forall there' there other).elim fits' fits

/-- The answer says that the method is not allowed exactly if the dispatcher says so. -/
theorem answered_notAllowed_iff {d : Dispatcher Request} {p : Player} {w : ω} :
    (∃ response p' w', d.answer (Service.handle h) method path body p w =
        ((.answered response, p'), w') ∧ response.status = 405) ↔
      d.dispatch method path body = .respond .methodNotAllowed := by
  rw [Dispatcher.answer]
  constructor
  · rintro ⟨response, p', w', answered, notAllowed⟩
    rcases decided : d.dispatch method path body with refusal | ⟨handler, q⟩
    · rw [decided] at answered
      cases answered
      have refusals := Dispatcher.dispatch_refuses decided
      simp only [Dispatcher.refusals, List.mem_cons, List.not_mem_nil, or_false] at refusals
      rcases refusals with rfl | rfl | rfl
      · cases notAllowed
      · rfl
      · cases notAllowed
    · rw [decided] at answered
      have served := Service.handle_status h answered
      rw [notAllowed] at served
      exact absurd served (by decide)
  · intro decided
    rw [decided]
    exact ⟨_, p, w, rfl, rfl⟩

end Shuffled

/-- The player's table may be in any order. No path is matched by two of its routes. Wherever the
table is registered, whatever its handlers are bound to and whatever else is registered under its
name or others, every request is answered alike in every state, with the same effect. By itself the
table answers that a method is not allowed exactly to those requests whose path one route matches
and no other, for a method that this route does not take. -/
theorem Request.table_in_any_order {shuffled : List (Route Request)}
    (perm : shuffled.Perm Request.table) :
    (∀ path, shuffled.Pairwise fun r r' => r.matches? path = none ∨ r'.matches? path = none) ∧
    (∀ {η : Type} (bind : Request → η) (before after : Tables η) (name : String)
      {m : Type → Type} [Monad m] (call : η → Http.Request → m Reply) (method : Method)
      (path : String) (body : List UInt8),
      (Tables.dispatcher (before ++ (name, Route.bound bind shuffled) :: after)).answer
          call method path body =
        (Tables.dispatcher (before ++ (name, Route.bound bind Request.table) :: after)).answer
          call method path body) ∧
    ∀ (name : String) (method : Method) (path : String) (body : List UInt8) (p : Player) (w : ω),
      (∃ response p' w', (Tables.dispatcher [(name, shuffled)]).answer (Service.handle h)
          method path body p w = ((.answered response, p'), w') ∧ response.status = 405) ↔
        ∃ rest, Searched [(name, shuffled)] path shuffled rest ∧
          ∃ r ∈ shuffled, r.matches? rest ≠ none ∧ method ∉ r.methods ∧
            ∀ r' ∈ shuffled, r'.matches? rest ≠ none → r' = r := by
  have exclusive (path : String) : shuffled.Pairwise (Route.Exclude path) :=
    perm.symm.pairwise (Request.table_exclusive path) Route.exclude_comm
  refine ⟨exclusive, fun bind before after name m _ call method path body => ?_,
    fun name method path body p w => ?_⟩
  · have apart (path : String) := Route.pairwise_bound (exclusive path) bind
    rw [Dispatcher.answer, Dispatcher.answer,
      Tables.dispatch_perm (Route.bound_perm perm bind) apart]
  · rw [answered_notAllowed_iff, Tables.dispatch_notAllowed_iff]
    constructor
    · rintro ⟨routes, rest, searched, undecided, r, there, fits⟩
      obtain rfl := searched.of_singleton
      exact ⟨rest, searched, r, there, fits, undecided r there fits,
        fun r' there' fits' => sole_match (exclusive rest) there fits there' fits'⟩
    · rintro ⟨rest, searched, r, there, fits, refuses, sole⟩
      refine ⟨shuffled, rest, searched, fun r' there' fits' => ?_, r, there, fits⟩
      rwa [sole r' there' fits']

/-- In the reversed table `play` stands before the routes of the playlist, and takes none of their
paths. A `PUT` of the playlist itself is refused. -/
theorem reversed_table_in_any_order :
    Request.table.reverse.Perm Request.table ∧
    (Tables.dispatcher [("files", Route.bound id Request.table.reverse)]).answer
        (Service.handle .rehearsed) .put "/files/playlist/play/0" [] (.new .default)
        ⟨0, 0, [], .playing, false⟩ =
      (Tables.dispatcher [("files", Route.bound id Request.table)]).answer
        (Service.handle .rehearsed) .put "/files/playlist/play/0" [] (.new .default)
        ⟨0, 0, [], .playing, false⟩ ∧
    (Tables.dispatcher [("files", Request.table.reverse)]).answer
        (Service.handle .rehearsed) .put "/files/playlist/" [] (.new .default)
        ⟨0, 0, [], .playing, false⟩ =
      ((.answered .methodNotAllowed, .new .default), ⟨0, 0, [], .playing, false⟩) ∧
    ∃ rest, Searched [("files", Request.table.reverse)] "/files/playlist/" Request.table.reverse
        rest ∧
      ∃ r ∈ Request.table.reverse, r.matches? rest ≠ none ∧ .put ∉ r.methods ∧
        ∀ r' ∈ Request.table.reverse, r'.matches? rest ≠ none → r' = r := by
  have perm := Request.table.reverse_perm
  obtain ⟨-, alike, refused⟩ := Request.table_in_any_order .rehearsed perm
  have answered : (Tables.dispatcher [("files", Request.table.reverse)]).answer
      (Service.handle .rehearsed) .put "/files/playlist/" [] (.new .default)
      (⟨0, 0, [], .playing, false⟩ : Rehearsal) =
        ((.answered .methodNotAllowed, .new .default), ⟨0, 0, [], .playing, false⟩) := rfl
  refine ⟨perm, ?_, answered, (refused ..).mp ⟨_, _, _, answered, rfl⟩⟩
  exact congrFun (congrFun (alike id [] [] "files" (Service.handle .rehearsed) .put
    "/files/playlist/play/0" []) _) _

end Jukebox.Playback
