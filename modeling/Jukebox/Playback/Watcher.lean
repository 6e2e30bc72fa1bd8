import Jukebox.Playback.Engine
/-!
# The end-of-track watcher

A watcher is a thread beside the clients: it reads its stop flag, runs one pass of the engine if the
flag is down, and starts over. It is the only one that moves playback on without a request.

Shutting down stops playback, takes the watcher, raises its flag, waits until the thread is gone and
then flushes the engine. `Shutdown` tells these steps apart, between which others may act;
`Player.shutdown` is the shutdown alone.
-/
namespace Jukebox.Playback

variable {ω : Type} (h : Host ω)

inductive Phase where
  /-- About to read the flag. -/
  | reading
  /-- About to run a pass. -/
  | ticking
  /-- Out of the loop. -/
  | gone
  deriving DecidableEq, Repr

structure Watcher where
  raised : Bool
  phase : Phase
  deriving DecidableEq, Repr

inductive Shutdown where
  | notBegun | stopped | taken | raised | joined | finished
  deriving DecidableEq, Repr

namespace Watcher

def started : Watcher :=
  ⟨false, .reading⟩

/-- The thread after a start. One that runs already is kept. -/
def spawn (w : Option Watcher) : Option Watcher :=
  some (w.getD started)

def read (w : Watcher) : Watcher :=
  { w with phase := if w.raised then .gone else .ticking }

def ticked (w : Watcher) : Watcher :=
  { w with phase := .reading }

def stop (w : Watcher) : Watcher :=
  { w with raised := true }

end Watcher

structure Player where
  engine : Engine
  watched : Bool
  deriving DecidableEq, Repr

namespace Player

def new (settings : Config.Music) : Player :=
  ⟨.new settings, false⟩

def onEngine {α : Type} (s : Section ω α) : StateT Player (StateM ω) α :=
  fun p w =>
    let ((a, e), w) := s p.engine w
    ((a, { p with engine := e }), w)

/-- Starts the watcher. One that runs already is kept. -/
def spawnWatcher : StateT Player (StateM ω) Unit :=
  modify fun p => { p with watched := true }

/-- Stops playback, ends the watcher and empties the playlist. -/
def shutdown : StateT Player (StateM ω) Unit := do
  onEngine (Engine.stop h)
  modify fun p => { p with watched := false }
  onEngine (Engine.flush h)

end Player

end Jukebox.Playback
