import Jukebox.Playback.Browsing
import Jukebox.Playback.Engine
/-!
# Operations of clients

A request is handled in several steps. Each step sees and changes the shared state as a whole;
between two steps of one procedure steps of others may run. `Procedure.run` is the run without any
others. `Interleaving` says which states several procedures can reach together.

What a client asks of the engine is a procedure of sections. Most operations are one section.
Adding a file reads the root in one, looks at the file outside the engine and appends the entry in
another, so the engine is not held while tags are read.
-/
namespace Jukebox.Playback

/-- Atomic steps on a shared state `σ` with a result `α` at the end. What follows a step may depend
on the state in which it was taken. -/
inductive Procedure (σ α : Type) where
  | done (a : α)
  | step (effect : σ → σ) (next : σ → Procedure σ α)

namespace Procedure

variable {σ α β : Type}

/-- One step, and what follows on its result. -/
def atomic (op : StateM σ β) (next : β → Procedure σ α) : Procedure σ α :=
  .step (fun s => (op s).2) fun s => next (op s).1

def once (op : StateM σ α) : Procedure σ α :=
  atomic op .done

def map (f : α → β) : Procedure σ α → Procedure σ β
  | .done a => .done (f a)
  | .step effect next => .step effect fun s => (next s).map f

def andThen (f : α → Procedure σ β) : Procedure σ α → Procedure σ β
  | .done a => f a
  | .step effect next => .step effect fun s => (next s).andThen f

def run : Procedure σ α → StateM σ α
  | .done a => pure a
  | .step effect next => fun s => (next s).run (effect s)

end Procedure

/-- Several procedures on one state: any procedure that has a step left may take it. -/
inductive Interleaving {σ α : Type} : σ → List (Procedure σ α) → σ → List (Procedure σ α) → Prop
  | refl (s : σ) (ps : List (Procedure σ α)) : Interleaving s ps s ps
  | step {s t : σ} {before after ps : List (Procedure σ α)} {effect : σ → σ}
      {next : σ → Procedure σ α} :
      Interleaving (effect s) (before ++ next s :: after) t ps →
      Interleaving s (before ++ .step effect next :: after) t ps

open Storage

/-- The engine and the world it runs in. -/
abbrev Stage (ω : Type) := Engine × ω

abbrev Operation (ω α : Type) := Procedure (Stage ω) α

/-- Why a file that is asked for by its path is not played: it is not appended, or the entry is
not played. -/
inductive PlayFailure where
  | notAdded (r : Refusal)
  | notPlayed (r : Refusal)
  deriving DecidableEq, Repr

namespace Operation

variable {ω : Type} (h : Host ω)

def onStage {α : Type} (s : Section ω α) : StateM (Stage ω) α :=
  fun (e, w) =>
    let ((a, e), w) := s e w
    (a, (e, w))

/-- A question to the host as a step on the stage. -/
def onWorld {α : Type} (op : StateM ω α) : StateM (Stage ω) α :=
  fun (e, w) =>
    let (a, w) := op w
    (a, (e, w))

def lone {α : Type} (s : Section ω α) : Operation ω α :=
  .once (onStage s)

/-- Looks at a file and appends it to the playlist. -/
def addAt (path : Path) : Operation ω (Except Refusal Nat) :=
  .atomic (onWorld (h.isFile path)) fun
    | false => .done (.error (.resourceOpen path.display "not a regular file"))
    | true =>
      .atomic (onWorld (h.readTags path)) fun tags =>
        .atomic (onStage (Engine.push path tags.toOption)) fun index => .done (.ok index)

/-- Appends a file, given relative to the music root. Returns its index. Tags that cannot be read
are left out. -/
def add (relative : String) : Operation ω (Except Refusal Nat) :=
  .atomic (onStage (do return (← get).settings.root)) fun root =>
    match Library.resolve? root (Path.ofString relative) with
    | none => .done (.error (.invalidPath relative))
    | some path => addAt h path

/-- Lists a directory, given relative to the music root. -/
def list (relative : String) : Operation ω (Except Refusal Library.Listing) :=
  .atomic (onStage (do return (← get).settings.root)) fun root =>
    match Library.resolve? root (Path.ofString relative) with
    | none => .done (.error (.invalidPath relative))
    | some path => .once (onWorld (browse h path))

def playEntry (index : Option Nat) : Operation ω (Except PlayFailure Unit) :=
  (lone (Engine.play h index)).map fun r => r.mapError .notPlayed

/-- Plays a file after appending it, or without one resumes. The index is carried from one section
to the other. -/
def playFile (relative : Option String) : Operation ω (Except PlayFailure Unit) :=
  match relative with
  | none => playEntry h none
  | some relative =>
    (add h relative).andThen fun
      | .error r => .done (.error (.notAdded r))
      | .ok index => playEntry h (some index)

end Operation

end Jukebox.Playback
