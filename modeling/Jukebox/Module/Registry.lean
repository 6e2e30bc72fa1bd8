import Jukebox.Config.Store
import Jukebox.Module.Interface
/-!
# The module registry

The registry is the fixed list of modules in the order in which they were opened. A module whose
opening failed stays in the list without a state and is never called. A closed module keeps its
state, since routes bound to it may still be served, but the registry does not call it again.

Every operation calls the modules one after the other, in list order.
-/
namespace Jukebox.Module

open Config (Store)

inductive Slot (μ : Type) where
  | failed
  | opened (state : μ)
  | closed (state : μ)
  deriving DecidableEq, Repr

structure Loaded (μ : Type) where
  id : String
  name : String
  slot : Slot μ
  deriving DecidableEq, Repr

abbrev Registry (μ : Type) := List (Loaded μ)

namespace Loaded

variable {μ ω η α : Type}

def isOpen (m : Loaded μ) : Bool :=
  match m.slot with
  | .opened _ => true
  | _ => false

def call (op : Call μ ω α) (m : Loaded μ) : StateM ω (Option α × Loaded μ) :=
  match m.slot with
  | .opened state => do
    let (a, state) ← op state
    pure (some a, { m with slot := .opened state })
  | _ => pure (none, m)

/-- Calls the module if it was ever opened. -/
def callBound (op : Call μ ω α) (m : Loaded μ) : StateM ω (Option α × Loaded μ) :=
  match m.slot with
  | .opened state => do
    let (a, state) ← op state
    pure (some a, { m with slot := .opened state })
  | .closed state => do
    let (a, state) ← op state
    pure (some a, { m with slot := .closed state })
  | .failed => pure (none, m)

/-- The module marked closed if it is open. -/
def retire (m : Loaded μ) : Loaded μ :=
  match m.slot with
  | .opened state => { m with slot := .closed state }
  | _ => m

end Loaded

namespace Registry

variable {μ ω η : Type}

/-- Opens every module in list order with its section. -/
def load (descriptors : List (Descriptor μ ω)) (store : Store) : StateM ω (Registry μ) :=
  descriptors.mapM fun d => do
    match ← d.opening (store.section? d.id) with
    | .ok state => pure ⟨d.id, d.name, .opened state⟩
    | .error _ => pure ⟨d.id, d.name, .failed⟩

/-- Whether a module of that id is open. Of several the first counts. -/
def isOpen (r : Registry μ) (id : String) : Bool :=
  match r.find? fun m => m.id = id with
  | some m => m.isOpen
  | none => false

/-- Whether there is a module of that id, open or not. -/
def contains (r : Registry μ) (id : String) : Bool :=
  r.any fun m => m.id = id

variable (i : Interface μ ω η)

/-- Calls every open module, each with a call of its own. Gives the answers of the open ones. -/
def callAll {α : Type} (op : Loaded μ → Call μ ω α) :
    Registry μ → StateM ω (List (String × α) × Registry μ)
  | [] => pure ([], [])
  | m :: rest => do
    let (answer, m) ← m.call (op m)
    let (answers, rest) ← callAll op rest
    match answer with
    | some a => pure ((m.id, a) :: answers, m :: rest)
    | none => pure (answers, m :: rest)

/-- The URL tables of the open modules. A handler is bound to the position of its module, counted
from `position` on. -/
def routesFrom (position : Nat) :
    Registry μ → StateM ω (List (String × List (Http.Route (Nat × η))) × Registry μ)
  | [] => pure ([], [])
  | m :: rest => do
    let (answer, m) ← m.call i.routes
    let (answers, rest) ← routesFrom (position + 1) rest
    match answer with
    | some routes =>
      let bound := routes.map fun r => r.withHandler (position, r.handler)
      pure ((m.id, bound) :: answers, m :: rest)
    | none => pure (answers, m :: rest)

def routes (r : Registry μ) :
    StateM ω (List (String × List (Http.Route (Nat × η))) × Registry μ) :=
  routesFrom i 0 r

def defaultAll (r : Registry μ) : StateM ω (Registry μ) := do
  let (_, r) ← callAll (fun _ => i.setConfig none) r
  pure r

/-- Gives every open module its section of the store. -/
def reloadAll (store : Store) (r : Registry μ) : StateM ω (Registry μ) := do
  let (_, r) ← callAll (fun m => i.setConfig (store.section? m.id)) r
  pure r

def callFirst {α : Type} (id : String) (op : Call μ ω α) :
    Registry μ → StateM ω (Option α × Registry μ)
  | [] => pure (none, [])
  | m :: rest =>
    if m.id = id then do
      let (answer, m) ← m.call op
      pure (answer, m :: rest)
    else do
      let (answer, rest) ← callFirst id op rest
      pure (answer, m :: rest)

def apply (id : String) (sectionValue : Json.Value) (r : Registry μ) :
    StateM ω (Except Fault Unit × Registry μ) := do
  let (answer, r) ← callFirst id (i.setConfig (some sectionValue)) r
  match answer with
  | some result => pure (result, r)
  | none => pure (.error (.notFound ("module '" ++ id ++ "'")), r)

/-- The sections of the open modules that have one. -/
def configs (r : Registry μ) : StateM ω (List (String × Json.Value) × Registry μ) := do
  let (answers, r) ← callAll (fun _ => i.getConfig) r
  pure (answers.filterMap fun (id, v) => v.map fun v => (id, v), r)

/-- Copies the sections of the open modules into the store; a module that has none loses its
section there. Sections of other owners stay. -/
def collect (store : Store) (r : Registry μ) : StateM ω (Store × Registry μ) := do
  let (answers, r) ← callAll (fun _ => i.getConfig) r
  pure (answers.foldl (fun s (id, v) => s.setSection id v) store, r)

/-- Asks a module for its section and closes it. -/
def farewell : Call μ ω (Option Json.Value) := do
  let v ← i.getConfig
  let _ ← i.close
  pure v

/-- Takes every open module's section into the store and closes it. -/
def closeAll (store : Store) (r : Registry μ) : StateM ω (Store × Registry μ) := do
  let (answers, r) ← callAll (fun _ => farewell i) r
  pure (answers.foldl (fun s (id, v) => s.setSection id v) store, r.map (·.retire))

/-- Closes what is still open when the registry goes away. -/
def drop (r : Registry μ) : StateM ω (Registry μ) := do
  let (_, r) ← callAll (fun _ => i.close) r
  pure (r.map (·.retire))

/-- Calls the handler of the module at a position, also after it was closed. -/
def handle (position : Nat) (handler : η) (request : Http.Request) :
    Registry μ → StateM ω (Http.Reply × Registry μ)
  | [] => pure (.crashed, [])
  | m :: rest =>
    match position with
    | 0 => do
      let (answer, m) ← m.callBound (i.handle handler request)
      pure (answer.getD .crashed, m :: rest)
    | n + 1 => do
      let (answer, rest) ← handle n handler request rest
      pure (answer, m :: rest)

end Registry

end Jukebox.Module
