import Jukebox.Playback.Service
import Jukebox.Proofs.Http.Dispatching
import Jukebox.Proofs.Playback.Handling
import Jukebox.Proofs.Playback.Orders
/-!
# Refused requests

A request that is refused changes nothing, with one exception: when a file is to be played and
cannot be, playback has been stopped already, and a file that was named has been appended. No
request ends in an error of the server.
-/
namespace Jukebox.Playback

open Storage
open Http (Response)

variable {ω σ : Type}

/-- Something that is seen of the open media files: looking for files and directories leaves it as
it is, and so does a seek that fails. -/
structure Host.KeepsFiles (h : Host ω) (seen : ω → σ) : Prop where
  isFile (p : Path) (w : ω) : seen (h.isFile p w).2 = seen w
  readDirectory (p : Path) (w : ω) : seen (h.readDirectory p w).2 = seen w
  seek (file : FileId) (secs : UInt64) (w : ω) (fault : Fault) :
    (h.seek file secs w).1 = .error fault → seen (h.seek file secs w).2 = seen w

/-- Nothing was done: no stream was touched, and the open files are where they were. -/
structure Untouched (seen : ω → σ) (w w' : ω) (made : List Call) : Prop where
  streams : ∀ c ∈ made, c.stream? = none
  files : seen w' = seen w

/-- A stopped engine that has the entries of another one and some added at the end. -/
structure Halted (e : Engine) (added : List Entry) (e' : Engine) : Prop where
  state : e'.state = .stopped
  current : e'.current = none
  previous : e'.previous = none
  playing : e'.playing = false
  index : e'.playlist.current = none
  entries : e'.playlist.entries = e.playlist.entries ++ added
  settings : e'.settings = e.settings

/-- The entries that a request to play adds: that of the file it names, if it names one. -/
inductive Request.Names (e : Engine) (resource : String) : Request → List Entry → Prop
  | entry : Names e resource .playEntry []
  | nothing (unnamed : resource = "") : Names e resource .play []
  | file {path : Path} (tags : Option Library.Tags) (named : resource ≠ "")
      (resolved : Library.resolve? e.settings.root (.ofString resource) = some path) :
      Names e resource .play [⟨path, tags, e.playlist.issued⟩]

/-- What is left of a request: it succeeded, or nothing was done, or playback was stopped for a file
that cannot be played. -/
inductive Request.Outcome (seen : ω → σ) (e : Engine) (w : ω) (resource : String) (r : Request) :
    Response → Engine → ω → List Call → Prop
  | success {response : Response} {e' : Engine} {w' : ω} {made : List Call}
      (ok : response.status = 200) : Outcome seen e w resource r response e' w' made
  | refused {response : Response} {w' : ω} {made : List Call}
      (status : response.status ∈ [400, 404, 406]) (untouched : Untouched seen w w' made) :
      Outcome seen e w resource r response e w' made
  | halted {response : Response} {e' : Engine} {w' : ω} {made : List Call} {added : List Entry}
      (status : response.status = 406) (names : Names e resource r added)
      (halted : Halted e added e') (given_up : Exchanged e.held made []) :
      Outcome seen e w resource r response e' w' made

namespace Untouched

variable {seen : ω → σ} {w w' : ω}

theorem nothing : Untouched seen w w [] := ⟨List.forall_mem_nil _, rfl⟩

theorem single {c : Call} (aside : c.stream? = none) (files : seen w' = seen w) :
    Untouched seen w w' [c] :=
  ⟨List.forall_mem_singleton.mpr aside, files⟩

end Untouched

namespace Engine

variable {e e' : Engine} {index : Nat} {r : Refusal} {made : List Call}

/-- What is wrong with an entry to play is its index, or that there is none. -/
theorem playTarget_refusal {wanted : Option Nat} (no : e.playTarget wanted = .error r) :
    r.status = 400 ∧ ∀ path reason, r ≠ .resourceOpen path reason := by
  have unchecked {i : Nat} (no : (e.playlist.check i).map (fun _ => i) = .error r) :
      r = e.playlist.outOfRange i := by
    by_cases inside : i < e.playlist.count
    · rw [Playlist.check_of_lt inside] at no
      cases no
    · rw [Playlist.check_of_le (Nat.le_of_not_lt inside)] at no
      cases no
      rfl
  unfold playTarget at no
  split at no
  · rw [unchecked no]
    exact ⟨rfl, fun _ _ => Refusal.noConfusion⟩
  · split at no
    · cases no
      exact ⟨rfl, fun _ _ => Refusal.noConfusion⟩
    · rw [unchecked no]
      exact ⟨rfl, fun _ _ => Refusal.noConfusion⟩

/-- An entry that cannot be started has a file that cannot be opened. -/
theorem Starts.resourceOpen (start : e.Starts index (.error r) e' made)
    (inside : index < e.playlist.count) : ∃ path reason, r = .resourceOpen path reason := by
  cases start with
  | absent no => exact absurd (List.getElem?_eq_none_iff.mp no) (Nat.not_le.mpr inside)
  | unopened here reason => exact ⟨_, _, rfl⟩
  | refused here file reason => exact ⟨_, _, rfl⟩

/-- A stopped engine on which no entry could be started holds nothing. -/
theorem Starts.given_up (start : e.stopped.Starts index (.error r) e' made) :
    Exchanged e.held (dropped e.current ++ dropped e.previous ++ made) [] := by
  obtain rfl := start.failed
  exact (stopped_calm e).exchanged.trans start.calm.exchanged

end Engine

section

variable {h : Host ω} {seen : ω → σ} {e e' : Engine} {w w' : ω} {made : List Call}
  {relative : String}

theorem Adds.untouched {r : Refusal} (adds : Adds h e w relative (.error r) e' w' made)
    (kept : h.KeepsFiles seen) : e' = e ∧ Untouched seen w w' made ∧
      (Request.addRefused r).status ∈ [400, 404, 406] := by
  cases adds with
  | outside no => exact ⟨rfl, .nothing, by simp [Request.addRefused, Refusal.response,
      Refusal.status, Response.text]⟩
  | noFile resolved no => exact ⟨rfl, .single rfl (kept.isFile _ w), by simp [Request.addRefused,
      Response.text]⟩

theorem Adds.names {index : Nat} (adds : Adds h e w relative (.ok index) e' w' made)
    (named : relative ≠ "") : ∃ added, Request.Names e relative .play added ∧
      Halted e added e'.stopped ∧ index < e'.playlist.count ∧ Exchanged e.held made e'.held := by
  cases adds with
  | @added path tags _ resolved file read =>
    refine ⟨_, .file tags.toOption named resolved, ⟨rfl, rfl, rfl, rfl, rfl, rfl, rfl⟩, ?_, ?_⟩
    · simp [Playlist.push, Playlist.count]
    · exact .other rfl rfl

theorem Lists.untouched {r : Refusal} (lists : Lists h e w relative (.error r) w' made)
    (kept : h.KeepsFiles seen) : Untouched seen w w' made ∧
      (Request.reportList (.error r)).status ∈ [400, 404, 406] := by
  cases lists with
  | outside no => exact ⟨.nothing, by simp [Request.reportList, Refusal.response, Refusal.status,
      Response.text]⟩
  | @unread path _ _ resolved no =>
    have files := kept.readDirectory path w
    rw [no] at files
    exact ⟨.single rfl files, by simp [Request.reportList, Response.text]⟩

end

namespace Request

variable {h : Host ω} {seen : ω → σ} {e e' : Engine} {w w' : ω} {resource : String} {r : Request}
  {response : Response} {made : List Call}

/-- The exception: playback was stopped before the file turned out not to open. -/
theorem Outcome.of_start {index : Nat} {result : Except Refusal Unit}
    (report : Except Refusal Unit → Response) (ok : (report (.ok ())).status = 200)
    (status : ∀ path reason, (report (.error (.resourceOpen path reason))).status = 406)
    (names : Names e resource r []) (inside : index < e.playlist.count)
    (start : e.stopped.Starts index result e' made) :
    Outcome seen e w resource r (report result) e' w'
      (dropped e.current ++ dropped e.previous ++ made) := by
  rcases result with refusal | ⟨⟩
  · obtain ⟨path, reason, rfl⟩ := start.resourceOpen inside
    have given_up := start.given_up
    obtain rfl := start.failed
    refine .halted (status path reason) names ?_ given_up
    exact ⟨rfl, rfl, rfl, rfl, rfl, (List.append_nil _).symm, rfl⟩
  · exact .success ok

theorem Serves.outcome (serves : Serves h e w resource r response e' w' made)
    (kept : h.KeepsFiles seen) : Outcome seen e w resource r response e' w' made := by
  cases serves with
  | added adds => exact .success rfl
  | notAdded adds =>
    obtain ⟨rfl, untouched, status⟩ := adds.untouched kept
    exact .refused status untouched
  | badIndex indexed no => exact .refused (by simp [Response.text]) .nothing
  | noEntry indexed index outside =>
    exact .refused (by simp [Playlist.outOfRange, Refusal.response, Refusal.status, Response.text])
      .nothing
  | entryPlayed index inside start =>
    exact .of_start report rfl (fun _ _ => rfl) .entry inside start
  | entryRemoved index removes => exact .success rfl
  | performed means effect => exact .success rfl
  | playlist => exact .success rfl
  | status s => exact .success rfl
  | @notResumed refusal unnamed no =>
    have status : (reportPlay (.error (.notPlayed refusal))).status = 400 := by
      obtain ⟨status, other⟩ := Engine.playTarget_refusal no
      cases refusal with
      | resourceOpen path reason => exact absurd rfl (other path reason)
      | _ => exact status
    exact .refused (by simp [status]) .nothing
  | resumed unnamed target start =>
    exact .of_start (fun r => reportPlay (r.mapError .notPlayed)) rfl (fun _ _ => rfl)
      (.nothing unnamed) (Engine.playTarget_lt target) start
  | notAppended named adds =>
    obtain ⟨rfl, untouched, status⟩ := adds.untouched kept
    exact .refused status untouched
  | @appended _ result _ _ _ _ _ _ named adds start =>
    rcases result with refusal | ⟨⟩
    · obtain ⟨added, names, halted, inside, exchanged⟩ := adds.names named
      obtain ⟨path, reason, rfl⟩ := start.resourceOpen inside
      have given_up := start.given_up
      obtain rfl := start.failed
      exact .halted rfl names halted (exchanged.trans given_up)
    · exact .success rfl
  | badPosition no => exact .refused (by simp [Response.text]) .nothing
  | nothingPlaying position no =>
    exact .refused (by simp [Refusal.response, Refusal.status, Response.text]) .nothing
  | @sought secs s answer _ position there ran =>
    rcases answer with fault | ⟨⟩
    · have files := kept.seek s.file secs w fault
      rw [ran] at files
      have reported : reportSeek (Except.mapError (fun f : Fault => .seek f.message)
          (.error fault)) = .text 400 "Bad position" := rfl
      refine .refused ?_ (.single rfl (files rfl))
      rw [reported]
      simp [Response.text]
    · exact .success rfl
  | @listed result _ _ lists =>
    rcases result with refusal | listing
    · obtain ⟨untouched, status⟩ := lists.untouched kept
      exact .refused status untouched
    · exact .success rfl

end Request

def Service.urls : Http.Dispatcher Request :=
  Http.Dispatcher.empty.addUrls Service.id Request.table

/-- After any run of a new engine, every request is answered, and none with an error of the server.
If it is refused as wrong or as not found, the player is the same, no stream was touched and the
open files are where they were. If it is refused as not acceptable, either that is so too, or
playback was stopped for a file that cannot be played: then no stream is left registered, and the
entries are the same, with the file behind them if the request names one. -/
theorem Run.refusals_change_nothing {h : Host ω} {seen : ω → σ} {settings : Config.Music}
    {turns : List Turn} {e : Engine} (run : Run h (.new settings) turns e)
    (kept : h.KeepsFiles seen) (watched : Bool) (w : ω) (method : Http.Method) (path : String)
    (body : List UInt8) :
    ∃ response p' w' made,
      Service.urls.answer (Service.handle h.recorded) method path body ⟨e, watched⟩ (w, []) =
        ((.answered response, p'), (w', made)) ∧
      response.status ∈ [200, 400, 404, 405, 406] ∧
      (response.status ∈ [400, 404, 405] → p' = ⟨e, watched⟩ ∧ Untouched seen w w' made) ∧
      (response.status = 406 → p' = ⟨e, watched⟩ ∧ Untouched seen w w' made ∨
        ∃ r q added, Service.urls.dispatch method path body = .call r q ∧
          r.Names e q.resource added ∧ Halted e added p'.engine ∧ p'.watched = watched ∧
          registeredIn (callsOf turns ++ made) = []) := by
  rw [Http.Dispatcher.answer]
  cases decided : Service.urls.dispatch method path body with
  | respond response =>
    have refused := Http.Dispatcher.dispatch_refuses decided
    have status : response.status ∈ [400, 404, 405] := by
      simp only [Http.Dispatcher.refusals, List.mem_cons, List.not_mem_nil, or_false] at refused
      rcases refused with rfl | rfl | rfl <;> decide
    refine ⟨response, ⟨e, watched⟩, w, [], rfl, ?_, fun _ => ⟨rfl, .nothing⟩,
      fun _ => Or.inl ⟨rfl, .nothing⟩⟩
    revert status
    simp only [List.mem_cons, List.not_mem_nil, or_false]
    omega
  | call r q =>
    obtain ⟨response, e', w', made, ran, serves⟩ := r.handles h e w q.resource
    have answered : Service.handle h.recorded r q ⟨e, watched⟩ (w, []) =
        ((.answered response, ⟨e', watched⟩), (w', made)) := by
      dsimp only [Service.handle]
      rw [ran]
      rfl
    refine ⟨response, ⟨e', watched⟩, w', made, answered, ?_⟩
    cases serves.outcome kept with
    | success ok => simp [ok]
    | refused status untouched =>
      refine ⟨?_, fun _ => ⟨rfl, untouched⟩, fun _ => Or.inl ⟨rfl, untouched⟩⟩
      revert status
      simp only [List.mem_cons, List.not_mem_nil, or_false]
      omega
    | halted status names halted given_up =>
      refine ⟨by simp [status], by simp [status], fun _ => Or.inr ?_⟩
      exact ⟨r, q, _, rfl, names, halted, rfl, (run.balanced.trans given_up).registered_nil⟩

/-- The second of two entries plays, and the file of the first cannot be opened. -/
def firstBroken : List (Command × Rehearsal) :=
  [(.add ⟨[97]⟩ none, ⟨0, 0, [], .playing, false⟩),
    (.add ⟨[98]⟩ none, ⟨0, 0, [], .playing, false⟩),
    (.play (some 1), ⟨0, 0, [], .playing, false⟩)]

theorem Host.rehearsed_keepsFiles : Host.rehearsed.KeepsFiles Rehearsal.files where
  isFile _ _ := rfl
  readDirectory _ _ := rfl
  seek _ _ _ _ no := by cases no

def firstBrokenAnswer : (Http.Reply × Player) × (Rehearsal × List Call) :=
  Service.urls.answer (Service.handle Host.rehearsed.recorded) .put "files/playlist/play/0" []
    ⟨(rehearse firstBroken).2, true⟩ (⟨1, 1, [⟨[97]⟩], .playing, false⟩, [])

/-- The status of a reply, none if the handler crashed. -/
def replyStatus? : Http.Reply → Option Nat
  | .answered response => some response.status
  | .crashed => none

theorem firstBroken_stopped :
    Run .rehearsed (.new .default) (rehearse firstBroken).1 (rehearse firstBroken).2 ∧
    Host.rehearsed.KeepsFiles Rehearsal.files ∧
    (rehearse firstBroken).2.state = .playing ∧
    ∃ response added, firstBrokenAnswer.1.1 = .answered response ∧ response.status = 406 ∧
      Halted (rehearse firstBroken).2 added firstBrokenAnswer.1.2.engine ∧
      registeredIn (callsOf (rehearse firstBroken).1 ++ firstBrokenAnswer.2.2) = [] := by
  have before : (rehearse firstBroken).2.state = .playing := by decide +kernel
  have after : firstBrokenAnswer.1.2.engine.state = .stopped := by decide +kernel
  have status : replyStatus? firstBrokenAnswer.1.1 = some 406 := by decide +kernel
  obtain ⟨response, p', w', made, answered, -, -, last⟩ :=
    Run.refusals_change_nothing (rehearse_run firstBroken) Host.rehearsed_keepsFiles true
      ⟨1, 1, [⟨[97]⟩], .playing, false⟩ .put "files/playlist/play/0" []
  have same : firstBrokenAnswer = ((.answered response, p'), (w', made)) := answered
  rw [same] at after status ⊢
  have code : response.status = 406 := Option.some.inj status
  rcases last code with ⟨rfl, -⟩ | ⟨r, q, added, -, -, halted, -, given_up⟩
  · rw [before] at after
    cases after
  · exact ⟨rehearse_run _, Host.rehearsed_keepsFiles, before, response, added, rfl, code, halted,
      given_up⟩

end Jukebox.Playback
