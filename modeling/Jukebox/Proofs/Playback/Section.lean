import Jukebox.Playback.Engine
/-!
# Sections under any answers

A section of the engine asks its host, and the host may answer as it likes. `Performs` says what is
true of a section's result, of the engine it leaves and of the calls it makes, whatever the world
is in which it runs. The world itself is forgotten: all that a section learns of it is in the
answers that the calls keep.
-/
namespace Jukebox.Playback

open Storage

/-- A section that starts with a look at its engine. -/
theorem get_bind_apply {ω α : Type} (next : Engine → Section ω α) (e : Engine) (w : ω) :
    (get >>= next) e w = next e e w := rfl

theorem bind_apply {ω α β : Type} (first : Section ω α) (next : α → Section ω β) (e : Engine)
    (w : ω) : (first >>= next) e w = next (first e w).1.1 (first e w).1.2 (first e w).2 := rfl

theorem lift_bind_apply {ω α β : Type} (op : StateM ω α) (next : α → Section ω β) (e : Engine)
    (w : ω) : ((liftM op : Section ω α) >>= next) e w = next (op w).1 e (op w).2 := rfl

theorem modify_bind_apply {ω α : Type} (f : Engine → Engine) (next : PUnit → Section ω α)
    (e : Engine) (w : ω) : (modify f >>= next) e w = next ⟨⟩ (f e) w := rfl

/-- A section on a host that keeps a record of its calls. -/
abbrev Recorded (ω α : Type) := Section (ω × List Call) α

/-- In any world, a section started on an engine meets a postcondition on its result, the engine it
leaves and the calls it adds to the record. The calls made before have no influence. -/
def Performs {ω α : Type} (op : Recorded ω α) (e : Engine)
    (post : α → Engine → List Call → Prop) : Prop :=
  ∀ w, ∃ a e' w' made,
    (∀ calls, op e (w, calls) = ((a, e'), (w', calls ++ made))) ∧ post a e' made

namespace Performs

variable {ω α β : Type} {e : Engine} {post : α → Engine → List Call → Prop}

theorem imp {op : Recorded ω α} {weaker : α → Engine → List Call → Prop}
    (first : Performs op e post)
    (implied : ∀ a e' made, post a e' made → weaker a e' made) : Performs op e weaker := by
  intro w
  obtain ⟨a, e', w', made, ran, holds⟩ := first w
  exact ⟨a, e', w', made, ran, implied a e' made holds⟩

/-- Two parts of a section run one after the other, and their calls are made in that order. -/
theorem bind {op : Recorded ω α} {next : α → Recorded ω β} {after : β → Engine → List Call → Prop}
    (first : Performs op e post)
    (rest : ∀ a e' made, post a e' made →
      Performs (next a) e' fun b e'' more => after b e'' (made ++ more)) :
    Performs (op >>= next) e after := by
  intro w
  obtain ⟨a, e', w', made, ran, holds⟩ := first w
  obtain ⟨b, e'', w'', more, ran', holds'⟩ := rest a e' made holds w'
  refine ⟨b, e'', w'', made ++ more, fun calls => ?_, holds'⟩
  have unfolded : (op >>= next) e (w, calls) =
      next (op e (w, calls)).1.1 (op e (w, calls)).1.2 (op e (w, calls)).2 := rfl
  rw [unfolded, ran, ran', List.append_assoc]

/-- What follows a part that leaves one engine only. -/
theorem step {op : Recorded ω α} {next : α → Recorded ω β} {after : β → Engine → List Call → Prop}
    {left : Engine} {kept : α → List Call}
    (first : Performs op e fun a e' made => e' = left ∧ made = kept a)
    (rest : ∀ a, Performs (next a) left fun b e'' more => after b e'' (kept a ++ more)) :
    Performs (op >>= next) e after := by
  refine first.bind ?_
  intro a e' made only
  obtain ⟨rfl, rfl⟩ := only
  exact rest a

theorem result {a : α} (holds : post a e []) : Performs (pure a : Recorded ω α) e post := by
  intro w
  exact ⟨a, e, w, [], fun calls => by rw [List.append_nil]; rfl, holds⟩

theorem get_bind {next : Engine → Recorded ω α} (rest : Performs (next e) e post) :
    Performs (get >>= next) e post := by
  exact rest

theorem set_bind {e' : Engine} {next : PUnit → Recorded ω α}
    (rest : Performs (next ⟨⟩) e' post) : Performs (set e' >>= next) e post := by
  exact rest

theorem modify_bind {f : Engine → Engine} {next : PUnit → Recorded ω α}
    (rest : Performs (next ⟨⟩) (f e) post) : Performs (modify f >>= next) e post := by
  exact rest

theorem modify_last {f : Engine → Engine} {after : PUnit → Engine → List Call → Prop}
    (holds : after ⟨⟩ (f e) []) : Performs (modify f : Recorded ω PUnit) e after := by
  intro w
  exact ⟨⟨⟩, f e, w, [], fun calls => by rw [List.append_nil]; rfl, holds⟩

/-- A question to the host leaves the engine alone and is kept with its answer. -/
theorem call (op : StateM ω α) (kept : α → List Call) :
    Performs (liftM (record op kept) : Recorded ω α) e fun a e' made => e' = e ∧ made = kept a := by
  intro w
  exact ⟨(op w).1, e, (op w).2, kept (op w).1, fun _ => rfl, rfl, rfl⟩

/-- A procedure of the host is run by the section step by step. -/
theorem lift_bind {op : StateM (ω × List Call) β} {next : β → StateM (ω × List Call) α}
    (steps : Performs (liftM op >>= fun b => liftM (next b) : Recorded ω α) e post) :
    Performs (liftM (op >>= next) : Recorded ω α) e post := by
  exact steps

/-- What is performed in any world holds of a run in one. -/
theorem of_run {op : Recorded ω α} {a : α} {e' : Engine} {w w' : ω} {made : List Call}
    (performed : Performs op e post) (ran : op e (w, []) = ((a, e'), (w', made))) :
    post a e' made := by
  obtain ⟨b, f, v, more, eq, holds⟩ := performed w
  have same := (eq []).symm.trans ran
  cases same
  exact holds

end Performs

end Jukebox.Playback
