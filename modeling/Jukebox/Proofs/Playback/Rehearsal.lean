import Jukebox.Proofs.Playback.Run
/-!
# Rehearsals

Runs that can be computed: each command comes with the world it is run in. `Rehearsal` is a small
world for them, with files and streams numbered in the order in which they are asked for.
-/
namespace Jukebox.Playback

open Storage

variable {ω : Type} (h : Host ω)

/-- The turn of a command in a world. -/
def act (c : Command) (w : ω) (e : Engine) : Turn × Engine :=
  let ((r, e'), (_, made)) := c.body h.recorded e (w, [])
  (⟨c, r, made⟩, e')

theorem act_takes (c : Command) (w : ω) (e : Engine) :
    Takes h e (act h c w e).1 (act h c w e).2 :=
  ⟨w, _, rfl⟩

/-- A turn that succeeds. -/
theorem act_succeeds (c : Command) (w : ω) (e : Engine)
    (ok : (act h c w e).1.result.isOk = true) :
    Takes h e ⟨c, .ok (), (act h c w e).1.calls⟩ (act h c w e).2 := by
  rcases ran : c.body h.recorded e (w, []) with ⟨⟨_ | _, e'⟩, w', made⟩
  · simp [act, ran, Except.isOk, Except.toBool] at ok
  · exact ⟨w, w', by simp [act, ran]⟩

/-- Runs each command in the world beside it. -/
def enact : List (Command × ω) → Engine → List Turn × Engine
  | [], e => ([], e)
  | (c, w) :: rest, e =>
    let (t, e') := act h c w e
    let (turns, last) := enact rest e'
    (t :: turns, last)

theorem enact_run (script : List (Command × ω)) (e : Engine) :
    Run h e (enact h script e).1 (enact h script e).2 := by
  induction script generalizing e with
  | nil => exact .start
  | cons line rest ih => exact (Run.turn .start (act_takes h line.1 line.2 e)).append (ih _)

/-- A world in which some files do not open, all open files are in one state, and all streams are
drained or none is. -/
structure Rehearsal where
  files : Nat
  streams : Nat
  broken : List Path
  status : FileStatus
  drained : Bool
  deriving DecidableEq, Repr

def Host.rehearsed : Host Rehearsal where
  isFile _ := pure true
  kindOf? _ := pure (some .file)
  readDirectory _ := pure (.ok [])
  readTags _ := pure (.ok ⟨none, none, none, none, none, 0, 0, none⟩)
  openFile p := do
    let w ← get
    if p ∈ w.broken then return .error (.media "broken")
    set { w with files := w.files + 1 }
    return .ok (⟨w.files⟩, ⟨44100, 2⟩)
  statusOf _ := do return (← get).status
  positionOf _ := pure 0
  lengthOf _ := pure 0
  seek _ _ := pure (.ok ())
  addStream _ _ := do
    let w ← get
    set { w with streams := w.streams + 1 }
    return .ok ⟨w.streams⟩
  playStream _ := pure ()
  pauseStream _ := pure ()
  removeStream _ := pure ()
  isDrained _ := do return (← get).drained

/-- Rehearses a script with a new engine. -/
def rehearse (script : List (Command × Rehearsal)) : List Turn × Engine :=
  enact .rehearsed script (.new .default)

theorem rehearse_run (script : List (Command × Rehearsal)) :
    Run .rehearsed (.new .default) (rehearse script).1 (rehearse script).2 :=
  enact_run _ script _

end Jukebox.Playback
