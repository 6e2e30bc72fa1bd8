import Jukebox.Proofs.Playback.Requests
/-!
# What requests do

A request that is answered alone has its steps run one after the other. `Handles` says what comes of
that: a result, an engine, a world and some calls, whatever calls were made before. `Request.Serves`
lists what each request can come to, with the world wherever something depends on it; later
arguments use that list and leave the operations closed.
-/
namespace Jukebox.Playback

open Storage
open Http (Response)

namespace Procedure

variable {σ α β : Type}

theorem run_map (f : α → β) (p : Procedure σ α) (s : σ) :
    (p.map f).run s = (f (p.run s).1, (p.run s).2) := by
  induction p generalizing s with
  | done a => rfl
  | step effect next ih => exact ih s (effect s)

theorem run_andThen (f : α → Procedure σ β) (p : Procedure σ α) (s : σ) :
    (p.andThen f).run s = (f (p.run s).1).run (p.run s).2 := by
  induction p generalizing s with
  | done a => rfl
  | step effect next ih => exact ih s (effect s)

end Procedure

variable {ω α β : Type}

/-- Run alone from an engine and a world, an operation meets a postcondition on its result, the
engine and the world it leaves and the calls it adds to the record. -/
def Handles (p : Operation (ω × List Call) α) (e : Engine) (w : ω)
    (post : α → Engine → ω → List Call → Prop) : Prop :=
  ∃ a e' w' made, (∀ calls, p.run (e, (w, calls)) = (a, (e', (w', calls ++ made)))) ∧
    post a e' w' made

namespace Handles

variable {e e' : Engine} {w w' : ω} {made : List Call}
  {post after : α → Engine → ω → List Call → Prop}

theorem imp {p : Operation (ω × List Call) α} (first : Handles p e w post)
    (implied : ∀ a e' w' made, post a e' w' made → after a e' w' made) : Handles p e w after := by
  obtain ⟨a, e', w', made, ran, holds⟩ := first
  exact ⟨a, e', w', made, ran, implied a e' w' made holds⟩

theorem done {a : α} (holds : post a e w []) : Handles (.done a) e w post :=
  ⟨a, e, w, [], fun calls => by rw [List.append_nil]; rfl, holds⟩

theorem map {p : Operation (ω × List Call) α} {f : α → β}
    {target : β → Engine → ω → List Call → Prop}
    (first : Handles p e w fun a => target (f a)) : Handles (p.map f) e w target := by
  obtain ⟨a, e', w', made, ran, holds⟩ := first
  exact ⟨f a, e', w', made, fun calls => by rw [Procedure.run_map, ran], holds⟩

theorem andThen {p : Operation (ω × List Call) α} {f : α → Operation (ω × List Call) β}
    {target : β → Engine → ω → List Call → Prop} (first : Handles p e w post)
    (rest : ∀ a e' w' made, post a e' w' made →
      Handles (f a) e' w' fun b e'' w'' more => target b e'' w'' (made ++ more)) :
    Handles (p.andThen f) e w target := by
  obtain ⟨a, e', w', made, ran, holds⟩ := first
  obtain ⟨b, e'', w'', more, ran', holds'⟩ := rest a e' w' made holds
  refine ⟨b, e'', w'', made ++ more, fun calls => ?_, holds'⟩
  rw [Procedure.run_andThen, ran, ran', List.append_assoc]

/-- A step whose outcome is known, and what follows on it. -/
theorem atomic {op : StateM (Stage (ω × List Call)) β} {next : β → Operation (ω × List Call) α}
    {b : β} (ran : ∀ calls, op (e, (w, calls)) = (b, (e', (w', calls ++ made))))
    (rest : Handles (next b) e' w' fun a e'' w'' more => post a e'' w'' (made ++ more)) :
    Handles (.atomic op next) e w post := by
  obtain ⟨a, e'', w'', more, ran', holds⟩ := rest
  refine ⟨a, e'', w'', made ++ more, fun calls => ?_, holds⟩
  have unfolded : (Procedure.atomic op next).run (e, (w, calls)) =
      (next (op (e, (w, calls))).1).run (op (e, (w, calls))).2 := rfl
  rw [unfolded, ran, ran', List.append_assoc]

/-- A question to the host is kept with its answer. -/
theorem ask {op : StateM ω β} {kept : β → List Call} {next : β → Operation (ω × List Call) α}
    (rest : Handles (next (op w).1) e (op w).2 fun a e'' w'' more =>
      post a e'' w'' (kept (op w).1 ++ more)) :
    Handles (.atomic (Operation.onWorld (record op kept)) next) e w post :=
  atomic (fun _ => rfl) rest

/-- A look at the engine. -/
theorem look {read : Engine → β} {next : β → Operation (ω × List Call) α}
    (rest : Handles (next (read e)) e w post) :
    Handles (.atomic (Operation.onStage (do return read (← get))) next) e w post := by
  have looked (calls : List Call) :
      (Operation.onStage (do return read (← get)) : StateM (Stage (ω × List Call)) β)
        (e, (w, calls)) = (read e, (e, (w, calls ++ []))) := by
    rw [List.append_nil]
    rfl
  exact atomic looked rest

/-- An operation that is one section does what the section does. -/
theorem lone {op : Recorded ω α} {does : α → Engine → List Call → Prop}
    (performed : Performs op e does) :
    Handles (.lone op) e w fun a e' _ made => does a e' made := by
  obtain ⟨a, e', w', made, ran, holds⟩ := performed w
  refine ⟨a, e', w', made, fun calls => ?_, holds⟩
  have unfolded : (Operation.lone op).run (e, (w, calls)) =
      ((op e (w, calls)).1.1, ((op e (w, calls)).1.2, (op e (w, calls)).2)) := rfl
  rw [unfolded, ran]

/-- An operation that is one section of a known outcome. -/
theorem lone_eq {op : Recorded ω α} {a : α}
    (ran : ∀ calls, op e (w, calls) = ((a, e'), (w', calls ++ made)))
    (holds : post a e' w' made) : Handles (.lone op) e w post := by
  refine ⟨a, e', w', made, fun calls => ?_, holds⟩
  have unfolded : (Operation.lone op).run (e, (w, calls)) =
      ((op e (w, calls)).1.1, ((op e (w, calls)).1.2, (op e (w, calls)).2)) := rfl
  rw [unfolded, ran]

end Handles

/-- What a procedure of the host does inside a section, it does by itself. -/
theorem Performs.lifted {op : StateM (ω × List Call) α} {e : Engine}
    {post : α → Engine → List Call → Prop} (performed : Performs (liftM op : Recorded ω α) e post)
    (w : ω) : ∃ a w' made, (∀ calls, op (w, calls) = (a, (w', calls ++ made))) ∧ post a e made := by
  obtain ⟨a, e', w', made, ran, holds⟩ := performed w
  have unfolded (calls : List Call) : (liftM op : Recorded ω α) e (w, calls) =
      (((op (w, calls)).1, e), (op (w, calls)).2) := rfl
  have same : e = e' := congrArg (·.1.2) ((unfolded []).symm.trans (ran []))
  subst same
  refine ⟨a, w', made, fun calls => ?_, holds⟩
  have both := (unfolded calls).symm.trans (ran calls)
  exact Prod.ext (congrArg (·.1.1) both) (congrArg (·.2) both)

/-- Calls about nodes that have one of these names in a directory. -/
def LooksInto (dir : Path) (names : List Name) (made : List Call) : Prop :=
  ∀ c ∈ made, ∃ name ∈ names, c = .inspected (dir.push name) ∨ c = .readTags (dir.push name)

inductive Adds (h : Host ω) (e : Engine) (w : ω) (relative : String) :
    Except Refusal Nat → Engine → ω → List Call → Prop
  | outside (no : Library.resolve? e.settings.root (.ofString relative) = none) :
      Adds h e w relative (.error (.invalidPath relative)) e w []
  | noFile {path : Path} {reason : String}
      (resolved : Library.resolve? e.settings.root (.ofString relative) = some path)
      (no : (h.isFile path w).1 = false) :
      Adds h e w relative (.error (.resourceOpen path.display reason)) e (h.isFile path w).2
        [.inspected path]
  | added {path : Path} {tags : Except Fault Library.Tags} {w' : ω}
      (resolved : Library.resolve? e.settings.root (.ofString relative) = some path)
      (file : (h.isFile path w).1 = true)
      (read : h.readTags path (h.isFile path w).2 = (tags, w')) :
      Adds h e w relative (.ok e.playlist.count)
        { e with playlist := e.playlist.push path tags.toOption } w'
        [.inspected path, .readTags path]

inductive Lists (h : Host ω) (e : Engine) (w : ω) (relative : String) :
    Except Refusal Library.Listing → ω → List Call → Prop
  | outside (no : Library.resolve? e.settings.root (.ofString relative) = none) :
      Lists h e w relative (.error (.invalidPath relative)) w []
  | unread {path : Path} {failure : SystemError} {w' : ω}
      (resolved : Library.resolve? e.settings.root (.ofString relative) = some path)
      (no : h.readDirectory path w = (.error failure, w')) :
      Lists h e w relative (.error (.listing failure)) w' [.listed path]
  | listed {path : Path} {names : List Name} {found : List Found} {w₁ w' : ω} {made : List Call}
      (resolved : Library.resolve? e.settings.root (.ofString relative) = some path)
      (read : h.readDirectory path w = (.ok names, w₁)) (looks : LooksInto path names made) :
      Lists h e w relative (.ok (Found.listing found)) w' (.listed path :: made)

/-- The section that a request consists of, for those that cannot be refused. -/
def Request.command? : Request → Option Command
  | .flush => some .flush
  | .pause => some .togglePause
  | .stop => some .stop
  | .prev => some .prev
  | .next => some .next
  | _ => none

/-- What a request with a resource can come to: the response, the engine and the world after it and
the calls made. -/
inductive Request.Serves (h : Host ω) (e : Engine) (w : ω) (resource : String) :
    Request → Response → Engine → ω → List Call → Prop
  | added {index : Nat} {e' : Engine} {w' : ω} {made : List Call}
      (adds : Adds h e w resource (.ok index) e' w' made) :
      Serves h e w resource .addEntry .ok e' w' made
  | notAdded {r : Refusal} {e' : Engine} {w' : ω} {made : List Call}
      (adds : Adds h e w resource (.error r) e' w' made) :
      Serves h e w resource .addEntry (addRefused r) e' w' made
  | badIndex {request : Request} (indexed : request = .playEntry ∨ request = .removeEntry)
      (no : index? resource = none) :
      Serves h e w resource request (.text 400 "Bad index") e w []
  | noEntry {request : Request} {i : Nat}
      (indexed : request = .playEntry ∨ request = .removeEntry) (index : index? resource = some i)
      (outside : e.playlist.count ≤ i) :
      Serves h e w resource request (e.playlist.outOfRange i).response e w []
  | entryPlayed {i : Nat} {r : Except Refusal Unit} {e' : Engine} {w' : ω} {made : List Call}
      (index : index? resource = some i) (inside : i < e.playlist.count)
      (start : e.stopped.Starts i r e' made) :
      Serves h e w resource .playEntry (report r) e' w'
        (dropped e.current ++ dropped e.previous ++ made)
  | entryRemoved {i : Nat} {e' : Engine} {w' : ω} {made : List Call}
      (index : index? resource = some i) (removes : e.Removes i (.ok ()) e' made) :
      Serves h e w resource .removeEntry .ok e' w' made
  | performed {request : Request} {c : Command} {e' : Engine} {w' : ω} {made : List Call}
      (means : request.command? = some c) (effect : Effect e c (.ok ()) e' made) :
      Serves h e w resource request .ok e' w' made
  | playlist : Serves h e w resource .playlist (.json 200 (playlistJson e.playlistView)) e w []
  | status (s : Library.Status) (w' : ω) :
      Serves h e w resource .status (.json 200 s.toJson) e w' []
  | notResumed {r : Refusal} (unnamed : resource = "") (no : e.playTarget none = .error r) :
      Serves h e w resource .play (reportPlay (.error (.notPlayed r))) e w []
  | resumed {i : Nat} {r : Except Refusal Unit} {e' : Engine} {w' : ω} {made : List Call}
      (unnamed : resource = "") (target : e.playTarget none = .ok i)
      (start : e.stopped.Starts i r e' made) :
      Serves h e w resource .play (reportPlay (r.mapError .notPlayed)) e' w'
        (dropped e.current ++ dropped e.previous ++ made)
  | notAppended {r : Refusal} {e' : Engine} {w' : ω} {made : List Call} (named : resource ≠ "")
      (adds : Adds h e w resource (.error r) e' w' made) :
      Serves h e w resource .play (reportPlay (.error (.notAdded r))) e' w' made
  | appended {index : Nat} {r : Except Refusal Unit} {e₁ e' : Engine} {w₁ w' : ω}
      {made more : List Call} (named : resource ≠ "")
      (adds : Adds h e w resource (.ok index) e₁ w₁ made)
      (start : e₁.stopped.Starts index r e' more) :
      Serves h e w resource .play (reportPlay (r.mapError .notPlayed)) e' w'
        (made ++ (dropped e₁.current ++ dropped e₁.previous ++ more))
  | badPosition (no : position? resource = none) :
      Serves h e w resource .seek (.text 400 "Bad position") e w []
  | nothingPlaying {secs : UInt64} (position : position? resource = some secs)
      (no : e.current = none) :
      Serves h e w resource .seek Refusal.nothingPlaying.response e w []
  | sought {secs : UInt64} {s : Session} {r : Except Fault Unit} {w' : ω}
      (position : position? resource = some secs) (there : e.current = some s)
      (ran : h.seek s.file secs w = (r, w')) :
      Serves h e w resource .seek (reportSeek (r.mapError fun f => .seek f.message)) e w'
        [.sought s.file]
  | listed {r : Except Refusal Library.Listing} {w' : ω} {made : List Call}
      (lists : Lists h e w resource r w' made) :
      Serves h e w resource .list (reportList r) e w' made

variable (h : Host ω) (e : Engine) (w : ω)

theorem add_handles (relative : String) :
    Handles (.add h.recorded relative) e w (Adds h e w relative) := by
  refine Handles.look ?_
  cases resolved : Library.resolve? e.settings.root (.ofString relative) with
  | none => exact Handles.done (.outside resolved)
  | some path =>
    dsimp only [Operation.addAt, Host.recorded]
    refine Handles.ask ?_
    cases file : (h.isFile path w).1 with
    | false => exact Handles.done (.noFile resolved file)
    | true =>
      refine Handles.ask ?_
      have pushed (w : ω) (tags : Option Library.Tags) (calls : List Call) :
          Operation.onStage (Engine.push path tags) (e, (w, calls)) =
            (e.playlist.count, ({ e with playlist := e.playlist.push path tags },
              (w, calls ++ []))) := by
        rw [List.append_nil]
        rfl
      exact Handles.atomic (pushed _ _) (Handles.done (.added resolved file rfl))

/-- A name in a directory is inspected, and its tags are read, or it is passed over. -/
theorem inspect_performs (dir : Path) (name : Name) :
    Performs (liftM (inspect h.recorded dir name) : Recorded ω _) e fun _ e' made =>
      e' = e ∧ LooksInto dir [name] made := by
  have nothing : LooksInto dir [name] [] := List.forall_mem_nil _
  have looked : LooksInto dir [name] [.inspected (dir.push name)] := by simp [LooksInto]
  have read : LooksInto dir [name] [.inspected (dir.push name), .readTags (dir.push name)] := by
    simp [LooksInto]
  unfold inspect
  dsimp only
  split
  · exact Performs.result ⟨rfl, nothing⟩
  refine Performs.lift_bind ?_
  refine (Performs.call (h.kindOf? _) fun _ => [.inspected (dir.push name)]).step fun kind => ?_
  rcases kind with _ | _ | _ | _
  · exact Performs.result ⟨rfl, looked⟩
  · dsimp only
    split
    · refine Performs.lift_bind ?_
      refine (Performs.call (h.readTags _) fun _ => [.readTags (dir.push name)]).step fun tags => ?_
      cases tags <;> exact Performs.result ⟨rfl, read⟩
    · exact Performs.result ⟨rfl, looked⟩
  · exact Performs.result ⟨rfl, looked⟩
  · exact Performs.result ⟨rfl, looked⟩

theorem inspectAll_performs (dir : Path) (names : List Name) :
    Performs (liftM (inspectAll h.recorded dir names) : Recorded ω _) e fun _ e' made =>
      e' = e ∧ LooksInto dir names made := by
  induction names generalizing e with
  | nil => exact Performs.result ⟨rfl, List.forall_mem_nil _⟩
  | cons name rest ih =>
    refine Performs.lift_bind ((inspect_performs h e dir name).bind ?_)
    rintro first _ made ⟨rfl, looks⟩
    refine Performs.lift_bind ((ih _).bind ?_)
    rintro others _ more ⟨rfl, looks'⟩
    refine Performs.result ⟨rfl, fun c there => ?_⟩
    rw [List.append_nil] at there
    rcases List.mem_append.mp there with before | after
    · obtain ⟨n, here, about⟩ := looks c before
      exact ⟨n, List.mem_cons.mpr (Or.inl (List.mem_singleton.mp here)), about⟩
    · obtain ⟨n, here, about⟩ := looks' c after
      exact ⟨n, List.mem_cons_of_mem name here, about⟩

theorem list_handles (relative : String) :
    Handles (.list h.recorded relative) e w fun r e' w' made =>
      e' = e ∧ Lists h e w relative r w' made := by
  refine Handles.look ?_
  cases resolved : Library.resolve? e.settings.root (.ofString relative) with
  | none => exact Handles.done ⟨rfl, .outside resolved⟩
  | some path =>
    have asked {answer : Except SystemError (List Name)} {w₁ : ω}
        (read : h.readDirectory path w = (answer, w₁)) (calls : List Call) :
        h.recorded.readDirectory path (w, calls) = (answer, (w₁, calls ++ [.listed path])) := by
      dsimp only [Host.recorded, record]
      rw [read]
    rcases read : h.readDirectory path w with ⟨failure | names, w₁⟩
    · have browsed (calls : List Call) :
          Operation.onWorld (browse h.recorded path) (e, (w, calls)) =
            (.error (.listing failure), (e, (w₁, calls ++ [.listed path]))) := by
        dsimp only [Operation.onWorld, browse, bind, StateT.bind]
        rw [asked read]
        rfl
      exact Handles.atomic browsed (Handles.done ⟨rfl, .unread resolved read⟩)
    · obtain ⟨found, w', made, ran, -, looks⟩ := (inspectAll_performs h e path names).lifted w₁
      have browsed (calls : List Call) :
          Operation.onWorld (browse h.recorded path) (e, (w, calls)) =
            (.ok (Found.listing found), (e, (w', calls ++ .listed path :: made))) := by
        dsimp only [Operation.onWorld, browse, bind, StateT.bind]
        rw [asked read]
        dsimp only [StateT.bind, bind]
        rw [ran, List.append_assoc]
        rfl
      refine Handles.atomic browsed (Handles.done ⟨rfl, ?_⟩)
      rw [List.append_nil]
      exact .listed resolved read looks

namespace Request

/-- Playing an entry, from a known target. -/
theorem play_handles {index : Option Nat} {i : Nat} (target : e.playTarget index = .ok i) :
    Handles (.lone (Engine.play h.recorded index)) e w fun r e' _ made =>
      ∃ more, e.stopped.Starts i r e' more ∧
        made = dropped e.current ++ dropped e.previous ++ more := by
  refine (Handles.lone (Engine.play_performs h e index)).imp ?_
  rintro r e' _ made plays
  cases plays with
  | refused no =>
    rw [target] at no
    cases no
  | tried target' start =>
    rw [target] at target'
    cases target'
    exact ⟨_, start, rfl⟩

/-- A target that is refused changes nothing, in the engine and in the world. -/
theorem play_refused {index : Option Nat} {r : Refusal} (no : e.playTarget index = .error r)
    {post : Except Refusal Unit → Engine → ω → List Call → Prop} (holds : post (.error r) e w []) :
    Handles (.lone (Engine.play h.recorded index)) e w post := by
  refine Handles.lone_eq (fun calls => ?_) holds
  rw [List.append_nil, Engine.play_eq, no]

/-- Seeking asks the current file and keeps its answer. -/
theorem seek_handles (secs : UInt64) {s : Session} (there : e.current = some s) :
    Handles (.lone (Engine.seek h.recorded secs)) e w fun r e' w' made =>
      ∃ answer, h.seek s.file secs w = (answer, w') ∧
        r = answer.mapError (fun f => .seek f.message) ∧ e' = e ∧ made = [.sought s.file] := by
  rcases ran : h.seek s.file secs w with ⟨failure | done, w'⟩
  all_goals
    refine Handles.lone_eq (fun calls => ?_) ⟨_, rfl, rfl, rfl, rfl⟩
    rw [Engine.seek, get_bind_apply, there]
    dsimp only [Host.recorded, record, liftM, monadLift, MonadLift.monadLift, StateT.lift, bind,
      StateT.bind, pure, StateT.pure]
    rw [ran]
    rfl

/-- What comes of a request. -/
theorem handles (r : Request) (resource : String) :
    Handles (r.operation h.recorded resource) e w (Serves h e w resource r) := by
  cases r with
  | addEntry =>
    refine Handles.map ((add_handles h e w resource).imp ?_)
    rintro (r | index) e' w' made adds
    · exact .notAdded adds
    · exact .added adds
  | playEntry =>
    rw [operation]
    cases index : index? resource with
    | none => exact Handles.done (.badIndex (Or.inl rfl) index)
    | some i =>
      refine Handles.map ?_
      by_cases inside : i < e.playlist.count
      · refine (play_handles h e w (Engine.playTarget_given inside)).imp ?_
        rintro r e' w' _ ⟨made, start, rfl⟩
        exact .entryPlayed index inside start
      · have outside : e.playlist.count ≤ i := Nat.le_of_not_lt inside
        have no := Engine.playTarget_outside outside
        exact play_refused h e w no (.noEntry (Or.inl rfl) index outside)
  | removeEntry =>
    rw [operation]
    cases index : index? resource with
    | none => exact Handles.done (.badIndex (Or.inr rfl) index)
    | some i =>
      refine Handles.map ?_
      by_cases inside : i < e.playlist.count
      · refine (Handles.lone (Engine.remove_performs h e i)).imp ?_
        rintro r e' w' made removes
        cases removes with
        | absent outside => exact absurd inside (Nat.not_lt.mpr outside)
        | current inside here => exact .entryRemoved index (.current inside here)
        | other inside elsewhere => exact .entryRemoved index (.other inside elsewhere)
      · have outside : e.playlist.count ≤ i := Nat.le_of_not_lt inside
        have refused (calls : List Call) : Engine.remove h.recorded i e (w, calls) =
            ((.error (e.playlist.outOfRange i), e), (w, calls ++ [])) := by
          rw [List.append_nil, Engine.remove, get_bind_apply, Playlist.check_of_le outside]
          rfl
        exact Handles.lone_eq refused (.noEntry (Or.inr rfl) index outside)
  | flush =>
    refine Handles.map ((Handles.lone (Engine.flush_performs h e)).imp ?_)
    rintro _ _ w' _ ⟨rfl, rfl⟩
    exact .performed rfl .flush
  | playlist => exact Handles.map (Handles.look (Handles.done .playlist))
  | play =>
    rw [operation]
    refine Handles.map ?_
    by_cases unnamed : resource = ""
    · rw [if_pos unnamed]
      refine Handles.map ?_
      cases target : e.playTarget none with
      | error r => exact play_refused h e w target (.notResumed unnamed target)
      | ok i =>
        refine (play_handles h e w target).imp ?_
        rintro r e' w' _ ⟨made, start, rfl⟩
        exact .resumed unnamed target start
    · rw [if_neg unnamed]
      refine (add_handles h e w resource).andThen ?_
      rintro (r | index) e₁ w₁ made adds
      · refine Handles.done ?_
        rw [List.append_nil]
        exact .notAppended unnamed adds
      · have inside : index < e₁.playlist.count := by
          cases adds
          simp [Playlist.push, Playlist.count]
        refine Handles.map ((play_handles h e₁ w₁ (Engine.playTarget_given inside)).imp ?_)
        rintro r e' w' _ ⟨more, start, rfl⟩
        exact .appended unnamed adds start
  | pause =>
    refine Handles.map ((Handles.lone (Engine.togglePause_performs h e)).imp ?_)
    rintro _ _ w' _ ⟨-, toggles⟩
    exact .performed rfl (.togglePause toggles)
  | stop =>
    refine Handles.map ((Handles.lone (Engine.stop_performs h e)).imp ?_)
    rintro _ _ w' _ ⟨rfl, rfl⟩
    exact .performed rfl .stop
  | prev =>
    refine Handles.map ((Handles.lone (Engine.advance_performs h e .backward false)).imp ?_)
    rintro _ _ w' _ advances
    exact .performed rfl (.prev advances)
  | next =>
    refine Handles.map ((Handles.lone (Engine.advance_performs h e .forward false)).imp ?_)
    rintro _ _ w' _ advances
    exact .performed rfl (.next advances)
  | seek =>
    rw [operation]
    cases position : position? resource with
    | none => exact Handles.done (.badPosition position)
    | some secs =>
      refine Handles.map ?_
      cases there : e.current with
      | none =>
        have refused (calls : List Call) : Engine.seek h.recorded secs e (w, calls) =
            ((.error .nothingPlaying, e), (w, calls ++ [])) := by
          rw [List.append_nil, Engine.seek, get_bind_apply, there]
          rfl
        exact Handles.lone_eq refused (.nothingPlaying position there)
      | some s =>
        refine (seek_handles h e w secs there).imp ?_
        rintro _ _ w' _ ⟨answer, ran, rfl, rfl, rfl⟩
        exact .sought position there ran
  | status =>
    refine Handles.map ((Handles.lone (Engine.status_performs h e _)).imp ?_)
    rintro s _ w' _ ⟨rfl, rfl⟩
    exact .status s w'
  | list =>
    refine Handles.map ((list_handles h e w resource).imp ?_)
    rintro r _ w' made ⟨rfl, lists⟩
    exact .listed lists

end Request

end Jukebox.Playback
