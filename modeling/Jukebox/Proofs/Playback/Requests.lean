import Jukebox.Playback.Requests
import Jukebox.Proofs.Playback.Run
/-!
# Requests are made of sections

Each step of a request is one section of the engine, or asks the host something and leaves the
engine alone. Hence whatever several requests and passes of the watcher do together is a run.
-/
namespace Jukebox.Playback

variable {ω α β : Type} {h : Host ω}

/-- A step of an operation on a recorded stage. -/
abbrev StageStep (ω : Type) := Stage (ω × List Call) → Stage (ω × List Call)

namespace Procedure

variable {σ γ : Type}

theorem atomic_andThen (op : StateM σ γ) (next : γ → Procedure σ α) (f : α → Procedure σ β) :
    (atomic op next).andThen f = atomic op fun c => (next c).andThen f := rfl

theorem map_atomic (f : α → β) (op : StateM σ γ) (next : γ → Procedure σ α) :
    (atomic op next).map f = atomic op fun c => (next c).map f := rfl

end Procedure

/-- A step is the section of a command, as far as the engine is concerned. -/
def StageStep.Enacts (h : Host ω) (c : Command) (effect : StageStep ω) : Prop :=
  ∀ e w, ∃ t, t.command = c ∧ Takes h e t (effect (e, w)).1

/-- All steps of an operation are sections of commands, or leave the engine alone. -/
def Procedure.Sectional (h : Host ω) : Operation (ω × List Call) α → Prop
  | .done _ => True
  | .step effect next =>
    ((∃ c, StageStep.Enacts h c effect) ∨ ∀ s, (effect s).1 = s.1) ∧ ∀ s, (next s).Sectional h

theorem StageStep.enacts_body (c : Command) :
    StageStep.Enacts h c fun s => (Operation.onStage (c.body h.recorded) s).2 := by
  rintro e ⟨w, calls⟩
  obtain ⟨r, e', w', made, ran, _⟩ := body_performs (h := h) (e := e) c w
  refine ⟨⟨c, r, made⟩, rfl, w, w', ?_⟩
  have here : (Operation.onStage (c.body h.recorded) (e, (w, calls))).2.1 = e' := by
    rw [Operation.onStage, ran calls]
  rw [ran [], here, List.nil_append]

/-- A section with the engines of a command's section. -/
theorem StageStep.enacts_of_eq (c : Command) {op : Recorded ω β}
    (same : ∀ e w, (op e w).1.2 = (c.body h.recorded e w).1.2) :
    StageStep.Enacts h c fun s => (Operation.onStage op s).2 := by
  intro e w
  obtain ⟨t, named, takes⟩ := enacts_body (h := h) c e w
  have there : (Operation.onStage op (e, w)).2.1 =
      (Operation.onStage (c.body h.recorded) (e, w)).2.1 := same e w
  exact ⟨t, named, there ▸ takes⟩

namespace Procedure.Sectional

theorem map (f : α → β) {p : Operation (ω × List Call) α} (sectional : p.Sectional h) :
    (p.map f).Sectional h := by
  induction p with
  | done a => trivial
  | step effect next ih => exact ⟨sectional.1, fun s => ih s (sectional.2 s)⟩

theorem andThen {f : α → Operation (ω × List Call) β} {p : Operation (ω × List Call) α}
    (sectional : p.Sectional h) (rest : ∀ a, (f a).Sectional h) : (p.andThen f).Sectional h := by
  induction p with
  | done a => exact rest a
  | step effect next ih => exact ⟨sectional.1, fun s => ih s (sectional.2 s)⟩

/-- Looking at the stage before going on. -/
theorem look {op : StateM (Stage (ω × List Call)) β} {next : β → Operation (ω × List Call) α}
    (aside : ∀ s, (op s).2.1 = s.1) (rest : ∀ b, (next b).Sectional h) :
    (Procedure.atomic op next).Sectional h :=
  ⟨Or.inr aside, fun s => rest (op s).1⟩

theorem lone (c : Command) {op : Recorded ω β}
    (same : ∀ e w, (op e w).1.2 = (c.body h.recorded e w).1.2) :
    (Operation.lone op).Sectional h :=
  ⟨Or.inl ⟨c, StageStep.enacts_of_eq c same⟩, fun _ => trivial⟩

theorem addAt (path : Storage.Path) : (Operation.addAt h.recorded path).Sectional h := by
  refine look (fun _ => rfl) ?_
  rintro (_ | _)
  · trivial
  · refine look (fun _ => rfl) fun tags => ⟨Or.inl ⟨.add path tags.toOption, ?_⟩, fun _ => trivial⟩
    exact StageStep.enacts_of_eq _ fun _ _ => rfl

theorem add (relative : String) : (Operation.add h.recorded relative).Sectional h := by
  refine look (fun _ => rfl) fun root => ?_
  cases Library.resolve? root (Storage.Path.ofString relative) with
  | none => trivial
  | some path => exact addAt path

theorem list (relative : String) : (Operation.list h.recorded relative).Sectional h := by
  refine look (fun _ => rfl) fun root => ?_
  cases Library.resolve? root (Storage.Path.ofString relative) with
  | none => trivial
  | some path => exact ⟨Or.inr fun _ => rfl, fun _ => trivial⟩

theorem playEntry (index : Option Nat) : (Operation.playEntry h.recorded index).Sectional h :=
  (lone (.play index) fun _ _ => rfl).map _

theorem playFile (relative : Option String) :
    (Operation.playFile h.recorded relative).Sectional h := by
  cases relative with
  | none => exact playEntry none
  | some relative =>
    refine (add relative).andThen ?_
    rintro (_ | index)
    · trivial
    · exact playEntry (some index)

end Procedure.Sectional

/-- Every request is made of sections. -/
theorem Request.sectional (r : Request) (resource : String) :
    (r.operation h.recorded resource).Sectional h := by
  cases r with
  | addEntry => exact .map _ (.add resource)
  | playEntry =>
    rw [operation]
    cases index? resource with
    | none => trivial
    | some i => exact .map _ (.lone (.play (some i)) fun _ _ => rfl)
  | removeEntry =>
    rw [operation]
    cases index? resource with
    | none => trivial
    | some i => exact .map _ (.lone (.remove i) fun _ _ => rfl)
  | flush => exact .map _ (.lone .flush fun _ _ => rfl)
  | playlist => exact .map _ (.lone .look fun _ _ => rfl)
  | play => exact .map _ (.playFile _)
  | pause => exact .map _ (.lone .togglePause fun _ _ => rfl)
  | stop => exact .map _ (.lone .stop fun _ _ => rfl)
  | prev => exact .map _ (.lone .prev fun _ _ => rfl)
  | next => exact .map _ (.lone .next fun _ _ => rfl)
  | seek =>
    rw [operation]
    cases position? resource with
    | none => trivial
    | some secs => exact .map _ (.lone (.seek secs) fun _ _ => rfl)
  | status => exact .map _ (.lone (.status (wantsPicture resource)) fun _ _ => rfl)
  | list => exact .map _ (.list resource)

/-- What is left after a step of one of several operations is made of sections, too. -/
theorem Procedure.Sectional.after {before after : List (Operation (ω × List Call) α)}
    {effect : StageStep ω} {next : Stage (ω × List Call) → Operation (ω × List Call) α}
    (sectional : ∀ p ∈ before ++ .step effect next :: after, p.Sectional h)
    (s : Stage (ω × List Call)) : ∀ p ∈ before ++ next s :: after, p.Sectional h := by
  intro p there
  rcases List.mem_append.mp there with first | last
  · exact sectional p (List.mem_append_left _ first)
  rcases List.mem_cons.mp last with rfl | last
  · have here : (Procedure.step effect next).Sectional h := sectional _ (by simp)
    exact here.2 s
  · exact sectional p (List.mem_append_right _ (List.mem_cons_of_mem _ last))

/-- Several operations that are made of sections, such as requests and passes of the watcher, take
the engine along a run however their steps are interleaved. -/
theorem Interleaving.run {s t : Stage (ω × List Call)} {ps qs : List (Operation (ω × List Call) α)}
    (steps : Interleaving s ps t qs) (sectional : ∀ p ∈ ps, p.Sectional h) :
    ∃ turns, Run h s.1 turns t.1 := by
  induction steps with
  | refl s ps => exact ⟨[], .start⟩
  | @step s t before after ps effect next _ ih =>
    have here : (Procedure.step effect next).Sectional h := sectional _ (by simp)
    obtain ⟨turns, run⟩ := ih (Procedure.Sectional.after sectional s)
    rcases here.1 with ⟨c, enacts⟩ | aside
    · obtain ⟨turn, _, takes⟩ := enacts s.1 s.2
      exact ⟨turn :: turns, (Run.turn .start takes).append run⟩
    · exact ⟨turns, aside s ▸ run⟩

end Jukebox.Playback
