import Mathlib.Tactic
import Jukebox.Module.Registry
/-!
# Watched modules

Everything that passes between a registry and its modules is a `Contact`, and a `Journal` lists the
contacts of all modules in the order in which they happened. To see it, modules are watched: their
states carry their place in the list, and the journal stands beside the world.

A registry that is loaded with watched modules and asked for any `Command` one after the other does
what it does with the same modules when nobody watches.
-/
namespace Jukebox.Module

open Config (Store)

variable {μ ω η α β : Type}

inductive Contact (η : Type) where
  | opening (value : Option Json.Value) (succeeded : Bool)
  | setConfig (value : Option Json.Value) (result : Except Fault Unit)
  | getConfig (answer : Option Json.Value)
  | routes (table : List (Http.Route η))
  | close (result : Except Fault Unit)

namespace Contact

def opens : Contact η → Bool
  | .opening _ succeeded => succeeded
  | _ => false

def closes : Contact η → Bool
  | .close _ => true
  | _ => false

/-- The contact is one of those between opening and closing. -/
def Between : Contact η → Prop
  | .opening _ _ => False
  | .close _ => False
  | _ => True

end Contact

/-- Contacts in the order in which they happened, each with the place of its module in the list. -/
abbrev Journal (η : Type) := List (Nat × Contact η)

namespace Journal

def contacts (j : Journal η) (place : Nat) : List (Contact η) :=
  j.filterMap fun e => if e.1 = place then some e.2 else none

/-- The module at a place was opened and is not closed. -/
def isLive (j : Journal η) (place : Nat) : Bool :=
  (j.contacts place).any (·.opens) && !(j.contacts place).any (·.closes)

/-- The ids that modules are listed under, each with its place, of those that are live. -/
def live (j : Journal η) (ids : List String) : List (String × Nat) :=
  ids.zipIdx.filter fun p => j.isLive p.2

end Journal

def Call.watched (op : Call μ ω α) (note : α → Contact η) : Call (Nat × μ) (ω × Journal η) α :=
  fun (place, s) (w, j) =>
    let ((a, s), w) := op s w
    ((a, (place, s)), (w, j ++ [(place, note a)]))

/-- The interface of watched modules. Requests that they handle are no contacts with the registry. -/
def Interface.watched (i : Interface μ ω η) : Interface (Nat × μ) (ω × Journal η) η where
  setConfig value := (i.setConfig value).watched (.setConfig value)
  getConfig := i.getConfig.watched .getConfig
  routes := i.routes.watched .routes
  handle x q := fun (place, s) (w, j) =>
    let ((a, s), w) := i.handle x q s w
    ((a, (place, s)), (w, j))
  close := i.close.watched .close

/-- A module that is watched from its opening on. -/
def Descriptor.watched (d : Descriptor μ ω) (place : Nat) :
    Descriptor (Nat × μ) (ω × Journal η) where
  id := d.id
  name := d.name
  description := d.description
  opening value := fun (w, j) =>
    let (result, w) := d.opening value w
    (result.map (place, ·), (w, j ++ [(place, .opening value result.isOk)]))

/-- Watched modules, with their places counted from one on. -/
def watchedFrom (place : Nat) : List (Descriptor μ ω) → List (Descriptor (Nat × μ) (ω × Journal η))
  | [] => []
  | d :: rest => d.watched place :: watchedFrom (place + 1) rest

def Loaded.unwatched (m : Loaded (Nat × μ)) : Loaded μ where
  id := m.id
  name := m.name
  slot :=
    match m.slot with
    | .failed => .failed
    | .opened s => .opened s.2
    | .closed s => .closed s.2

inductive Command where
  | get (id : String)
  | contains (id : String)
  | routes
  | configs
  | defaultAll
  | reloadAll (store : Store)
  | apply (id : String) (value : Json.Value)
  | collect (store : Store) (sorted : store.document.Sorted)
  | closeAll (store : Store) (sorted : store.document.Sorted)

inductive Answer (η : Type) where
  | found (there : Bool)
  | tables (tables : List (String × List (Http.Route (Nat × η))))
  | sections (sections : List (String × Json.Value))
  | done
  | applied (result : Except Fault Unit)
  | filled (store : Store)

namespace Command

variable (i : Interface μ ω η)

def run : Command → Registry μ → StateM ω (Answer η × Registry μ)
  | .get id, r => pure (.found (r.isOpen id), r)
  | .contains id, r => pure (.found (r.contains id), r)
  | .routes, r => do
    let (tables, r) ← r.routes i
    pure (.tables tables, r)
  | .configs, r => do
    let (sections, r) ← r.configs i
    pure (.sections sections, r)
  | .defaultAll, r => do
    let r ← r.defaultAll i
    pure (.done, r)
  | .reloadAll store, r => do
    let r ← r.reloadAll i store
    pure (.done, r)
  | .apply id value, r => do
    let (result, r) ← r.apply i id value
    pure (.applied result, r)
  | .collect store _, r => do
    let (store, r) ← r.collect i store
    pure (.filled store, r)
  | .closeAll store _, r => do
    let (store, r) ← r.closeAll i store
    pure (.filled store, r)

def runAll : List Command → Registry μ → StateM ω (List (Answer η) × Registry μ)
  | [], r => pure ([], r)
  | c :: rest, r => do
    let (answer, r) ← c.run i r
    let (answers, r) ← runAll rest r
    pure (answer :: answers, r)

end Command

/-- A registry is loaded and asked for one thing after the other. -/
def reached (i : Interface μ ω η) (ds : List (Descriptor μ ω)) (store : Store)
    (commands : List Command) : StateM ω (List (Answer η) × Registry μ) := do
  let r ← Registry.load ds store
  Command.runAll i commands r

/-- The same up to the end, when the registry goes away. -/
def lifetime (i : Interface μ ω η) (ds : List (Descriptor μ ω)) (store : Store)
    (commands : List Command) : StateM ω (List (Answer η) × Registry μ) := do
  let (answers, r) ← reached i ds store commands
  let r ← r.drop i
  pure (answers, r)

namespace Journal

variable {place : Nat}

@[simp] theorem contacts_append (j j' : Journal η) (place : Nat) :
    contacts (j ++ j') place = j.contacts place ++ j'.contacts place :=
  List.filterMap_append

theorem contacts_cons_self (c : Contact η) (j : Journal η) :
    contacts ((place, c) :: j) place = c :: j.contacts place := by
  simp [contacts]

theorem contacts_eq_nil {j : Journal η} (elsewhere : ∀ e ∈ j, e.1 ≠ place) :
    j.contacts place = [] :=
  List.filterMap_eq_nil_iff.mpr fun e there => if_neg (elsewhere e there)

theorem contacts_map_self (cs : List (Contact η)) :
    contacts (cs.map fun c => (place, c)) place = cs := by
  induction cs with
  | nil => rfl
  | cons c rest ih => rw [List.map_cons, contacts_cons_self, ih]

theorem mem_contacts {j : Journal η} {c : Contact η} : c ∈ j.contacts place ↔ (place, c) ∈ j := by
  simp [contacts]

end Journal

/-- A program does the same without a journal, up to a view of its result. -/
def Erases {α' : Type} (view : α' → α) (watched : StateM (ω × Journal η) α') (plain : StateM ω α) :
    Prop :=
  ∀ w j, plain w = (view (watched (w, j)).1, (watched (w, j)).2.1)

namespace Erases

variable {α' β' : Type} {view : α' → α} {view' : β' → β} {watched : StateM (ω × Journal η) α'}
  {plain : StateM ω α}

theorem pure {a : α} {a' : α'} (same : view a' = a) :
    Erases view (Pure.pure a' : StateM (ω × Journal η) α') (Pure.pure a : StateM ω α) := by
  subst same
  exact fun _ _ => rfl

theorem bind (first : Erases view watched plain) {next' : α' → StateM (ω × Journal η) β'}
    {next : α → StateM ω β} (later : ∀ a, Erases view' (next' a) (next (view a))) :
    Erases view' (watched >>= next') (plain >>= next) := by
  intro w j
  have ran : (plain >>= next) w = next (plain w).1 (plain w).2 := rfl
  rw [ran, first w j]
  exact later (watched (w, j)).1 (watched (w, j)).2.1 (watched (w, j)).2.2

def viewAll : α × Registry (Nat × μ) → α × Registry μ :=
  Prod.map id (List.map (·.unwatched))

end Erases

open Erases (viewAll)

theorem erases_watched (op : Call μ ω α) (note : α → Contact η) (s : Nat × μ) :
    Erases (Prod.map id Prod.snd) (op.watched note s) (op s.2) :=
  fun _ _ => rfl

namespace Registry

theorem erases_call {op' : Call (Nat × μ) (ω × Journal η) α} {op : Call μ ω α}
    (same : ∀ s, Erases (Prod.map id Prod.snd) (op' s) (op s.2)) (m : Loaded (Nat × μ)) :
    Erases (Prod.map id Loaded.unwatched) (m.call op') (m.unwatched.call op) := by
  obtain ⟨id, name, slot⟩ := m
  cases slot with
  | opened s => exact .bind (same s) fun _ => .pure rfl
  | failed => exact .pure rfl
  | closed s => exact .pure rfl

theorem erases_callAll (op' : Loaded (Nat × μ) → Call (Nat × μ) (ω × Journal η) α)
    (op : Loaded μ → Call μ ω α)
    (same : ∀ m s, Erases (Prod.map id Prod.snd) (op' m s) (op m.unwatched s.2))
    (r : Registry (Nat × μ)) :
    Erases viewAll (callAll op' r) (callAll op (r.map (·.unwatched))) := by
  induction r with
  | nil => exact .pure rfl
  | cons m rest ih =>
    refine .bind (erases_call (same m) m) fun (answer, m) => .bind ih fun (answers, rest) => ?_
    cases answer <;> exact .pure rfl

theorem erases_routesFrom (i : Interface μ ω η) (place : Nat) (r : Registry (Nat × μ)) :
    Erases viewAll (routesFrom i.watched place r) (routesFrom i place (r.map (·.unwatched))) := by
  induction r generalizing place with
  | nil => exact .pure rfl
  | cons m rest ih =>
    refine .bind (erases_call (erases_watched i.routes .routes) m) fun (answer, m) =>
      .bind (ih (place + 1)) fun (answers, rest) => ?_
    cases answer <;> exact .pure rfl

theorem erases_callFirst (id : String) (op : Call μ ω α) (note : α → Contact η)
    (r : Registry (Nat × μ)) :
    Erases viewAll (callFirst id (op.watched note) r) (callFirst id op (r.map (·.unwatched))) := by
  induction r with
  | nil => exact .pure rfl
  | cons m rest ih =>
    rw [List.map_cons, callFirst, callFirst]
    have named : m.unwatched.id = m.id := rfl
    rw [named]
    split
    · exact .bind (erases_call (erases_watched op note) m) fun _ => .pure rfl
    · exact .bind ih fun _ => .pure rfl

theorem unwatched_retire (r : Registry (Nat × μ)) :
    (r.map (·.retire)).map (·.unwatched) = (r.map (·.unwatched)).map (·.retire) := by
  have same (m : Loaded (Nat × μ)) : m.retire.unwatched = m.unwatched.retire := by
    obtain ⟨id, name, slot⟩ := m
    cases slot <;> rfl
  simp [same]

theorem contains_unwatched (r : Registry (Nat × μ)) (id : String) :
    contains (r.map (·.unwatched)) id = r.contains id := by
  simp [contains, Function.comp_def, Loaded.unwatched]

theorem isOpen_unwatched (r : Registry (Nat × μ)) (id : String) :
    isOpen (r.map (·.unwatched)) id = r.isOpen id := by
  simp only [isOpen, List.find?_map, Function.comp_def]
  have same : (r.find? fun m => decide (m.unwatched.id = id)) = r.find? fun m => m.id = id := rfl
  rw [same]
  generalize List.find? _ r = found
  cases found with
  | none => rfl
  | some m =>
    obtain ⟨_, _, slot⟩ := m
    cases slot <;> rfl

def loadedAs (id name : String) : Except Fault μ → Loaded μ
  | .ok s => ⟨id, name, .opened s⟩
  | .error _ => ⟨id, name, .failed⟩

theorem load_cons {d : Descriptor μ ω} {rest : List (Descriptor μ ω)} {store : Store} {w w' w'' : ω}
    {result : Except Fault μ} {r : Registry μ} (ran : d.opening (store.section? d.id) w = (result, w'))
    (loaded : load rest store w' = (r, w'')) :
    load (d :: rest) store w = (loadedAs d.id d.name result :: r, w'') := by
  have unfolded : load (d :: rest) store w =
      (loadedAs d.id d.name result :: (load rest store w').1, (load rest store w').2) := by
    rw [load, List.mapM_cons]
    dsimp only [bind, StateT.bind]
    rw [ran]
    cases result <;> rfl
  rw [unfolded, loaded]

theorem erases_load (ds : List (Descriptor μ ω)) (store : Store) (place : Nat) :
    Erases (List.map (·.unwatched))
      (load (watchedFrom place ds) store : StateM (ω × Journal η) (Registry (Nat × μ)))
      (load ds store) := by
  induction ds generalizing place with
  | nil => exact .pure rfl
  | cons d rest ih =>
    intro w j
    rcases ran : d.opening (store.section? d.id) w with ⟨result, w'⟩
    rcases loaded : (load (watchedFrom (place + 1) rest) store : StateM (ω × Journal η) _)
        (w', j ++ [(place, .opening (store.section? d.id) result.isOk)]) with ⟨r, w'', j'⟩
    have plain : load rest store w' = (r.map (·.unwatched), w'') := by
      rw [ih (place + 1) w' (j ++ [(place, .opening (store.section? d.id) result.isOk)]), loaded]
    have opening : (d.watched place).opening (store.section? d.id) (w, j) =
        (result.map fun s => (place, s),
          (w', j ++ [(place, .opening (store.section? d.id) result.isOk)])) := by
      simp only [Descriptor.watched, ran]
    have watched : load (watchedFrom place (d :: rest)) store (w, j) =
        (loadedAs d.id d.name (result.map fun s => (place, s)) :: r, (w'', j')) :=
      load_cons opening loaded
    rw [load_cons ran plain, watched]
    cases result <;> rfl

end Registry

theorem erases_farewell (i : Interface μ ω η) (s : Nat × μ) :
    Erases (Prod.map id Prod.snd) (Registry.farewell i.watched s) (Registry.farewell i s.2) :=
  fun _ _ => rfl

/-- Commands do the same with modules that are not watched. -/
theorem Command.erases (i : Interface μ ω η) (c : Command) (r : Registry (Nat × μ)) :
    Erases viewAll (c.run i.watched r) (c.run i (r.map (·.unwatched))) := by
  have asked := Registry.erases_callAll (fun _ => i.watched.getConfig)
    (fun _ => i.getConfig) (fun _ => erases_watched i.getConfig .getConfig) r
  have set (value : String → Option Json.Value) := Registry.erases_callAll
    (fun m => i.watched.setConfig (value m.id)) (fun m => i.setConfig (value m.id))
    (fun m => erases_watched (i.setConfig (value m.id)) (.setConfig (value m.id))) r
  intro w j
  cases c with
  | get id =>
    simp only [run, Registry.isOpen_unwatched]
    rfl
  | contains id =>
    simp only [run, Registry.contains_unwatched]
    rfl
  | routes =>
    have bound := Registry.erases_routesFrom i 0 r
    simp only [run, Registry.routes, bind, StateT.bind, bound w j]
    rfl
  | configs =>
    simp only [run, Registry.configs, bind, StateT.bind, asked w j]
    rfl
  | defaultAll =>
    simp only [run, Registry.defaultAll, bind, StateT.bind, set (fun _ => none) w j]
    rfl
  | reloadAll store =>
    simp only [run, Registry.reloadAll, bind, StateT.bind, set store.section? w j]
    rfl
  | apply id value =>
    have first := Registry.erases_callFirst (η := η) id (i.setConfig (some value))
      (.setConfig (some value)) r
    simp only [run, Registry.apply, Interface.watched, bind, StateT.bind, first w j]
    rcases Registry.callFirst id ((i.setConfig (some value)).watched (.setConfig (some value))) r
      (w, j) with ⟨⟨_ | result, r'⟩, w', j'⟩ <;> rfl
  | collect store sorted =>
    simp only [run, Registry.collect, bind, StateT.bind, asked w j]
    rfl
  | closeAll store sorted =>
    have parted := Registry.erases_callAll (fun _ => Registry.farewell i.watched)
      (fun _ => Registry.farewell i) (fun _ => erases_farewell i) r
    simp only [run, Registry.closeAll, bind, StateT.bind, parted w j]
    exact congrArg₂ Prod.mk (congrArg (Prod.mk _) (Registry.unwatched_retire _).symm) rfl

theorem erases_runAll (i : Interface μ ω η) (commands : List Command) (r : Registry (Nat × μ)) :
    Erases viewAll (Command.runAll i.watched commands r)
      (Command.runAll i commands (r.map (·.unwatched))) := by
  induction commands generalizing r with
  | nil => exact .pure rfl
  | cons c commands ih =>
    exact .bind (c.erases i r) fun (a, r) => .bind (ih r) fun (answers, r) => .pure rfl

/-- Watching the modules of a registry changes nothing. -/
theorem erases_lifetime (i : Interface μ ω η) (ds : List (Descriptor μ ω)) (store : Store)
    (commands : List Command) :
    Erases viewAll (lifetime i.watched (watchedFrom 0 ds) store commands)
      (lifetime i ds store commands) := by
  refine .bind (.bind (Registry.erases_load ds store 0) (erases_runAll i commands))
    fun (answers, r) => ?_
  have parted := Registry.erases_callAll (fun _ => i.watched.close) (fun _ => i.close)
    (fun _ => erases_watched i.close .close) r
  intro w j
  simp only [Registry.drop, bind, StateT.bind, viewAll, Prod.map, id, parted w j]
  exact congrArg₂ Prod.mk (congrArg (Prod.mk _) (Registry.unwatched_retire _).symm) rfl

end Jukebox.Module
