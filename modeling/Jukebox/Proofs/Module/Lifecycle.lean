import Mathlib.Tactic
import Jukebox.Proofs.Config.Sections
import Jukebox.Proofs.Module.Calls
import Jukebox.Proofs.Module.Watching
/-!
# The life of a module

`Serves` says what each operation of a registry answers and which contacts with its modules it makes,
by the ids of the list and the journal so far. From that follows what the contacts with one module
are from the loading of the registry to its end.
-/
namespace Jukebox.Module

open Config (Store)

variable {μ ω η α β : Type}

/-- All contacts with one module from its opening to the end of the registry. -/
inductive Lived (value : Option Json.Value) : List (Contact η) → Prop
  | failed : Lived value [.opening value false]
  | closed {talk : List (Contact η)} {result : Except Fault Unit} (between : ∀ c ∈ talk, c.Between) :
      Lived value (.opening value true :: (talk ++ [.close result]))

structure Told (α : Type) where
  id : String
  place : Nat
  answer : α

/-- Every live module told something, in the order of the list. -/
def Round (live : List (String × Nat)) (told : List (Told α)) : Prop :=
  told.map (fun t => (t.id, t.place)) = live

structure Fills (store : Store) (told : List (Told (Option Json.Value))) (store' : Store) :
    Prop where
  path_eq : store'.path = store.path
  sorted : store'.document.Sorted
  replaced : ∀ before t later, told = before ++ t :: later → (∀ t' ∈ later, t'.id ≠ t.id) →
    store'.section? t.id = t.answer
  others : ∀ id, (∀ t ∈ told, t.id ≠ id) → store'.section? id = store.section? id

/-- The first module of the list that has an id, with its place. -/
def firstOf (ids : List String) (id : String) : Option (String × Nat) :=
  ids.zipIdx.find? fun p => p.1 = id

/-- What the registry answers and which contacts it makes, if modules are listed under `ids` and
those in `live` are open. -/
inductive Serves (ids : List String) (live : List (String × Nat)) :
    Command → Answer η → Journal η → Prop
  | get {id : String} {there : Bool}
      (tells : there = true ↔ ∃ p, firstOf ids id = some p ∧ p ∈ live) :
      Serves ids live (.get id) (.found there) []
  | contains (id : String) : Serves ids live (.contains id) (.found (decide (id ∈ ids))) []
  | routes {told : List (Told (List (Http.Route η)))} (round : Round live told) :
      Serves ids live .routes
        (.tables (told.map fun t =>
          (t.id, t.answer.map fun r => r.withHandler (t.place, r.handler))))
        (told.map fun t => (t.place, .routes t.answer))
  | configs {told : List (Told (Option Json.Value))} (round : Round live told) :
      Serves ids live .configs (.sections (told.filterMap fun t => t.answer.map fun v => (t.id, v)))
        (told.map fun t => (t.place, .getConfig t.answer))
  | defaultAll {told : List (Told (Except Fault Unit))} (round : Round live told) :
      Serves ids live .defaultAll .done (told.map fun t => (t.place, .setConfig none t.answer))
  | reloadAll {store : Store} {told : List (Told (Except Fault Unit))} (round : Round live told) :
      Serves ids live (.reloadAll store) .done
        (told.map fun t => (t.place, .setConfig (store.section? t.id) t.answer))
  | applied {id : String} {value : Json.Value} {place : Nat} {result : Except Fault Unit}
      (first : firstOf ids id = some (id, place)) (there : (id, place) ∈ live) :
      Serves ids live (.apply id value) (.applied result)
        [(place, .setConfig (some value) result)]
  | unapplied {id : String} {value : Json.Value}
      (shut : ∀ p, firstOf ids id = some p → p ∉ live) :
      Serves ids live (.apply id value)
        (.applied (.error (.notFound ("module '" ++ id ++ "'")))) []
  | collect {store store' : Store} {sorted : store.document.Sorted}
      {told : List (Told (Option Json.Value))} (round : Round live told)
      (fills : Fills store told store') :
      Serves ids live (.collect store sorted) (.filled store')
        (told.map fun t => (t.place, .getConfig t.answer))
  | closeAll {store store' : Store} {sorted : store.document.Sorted}
      {told : List (Told (Option Json.Value × Except Fault Unit))} (round : Round live told)
      (fills : Fills store (told.map fun t => ⟨t.id, t.place, t.answer.1⟩) store') :
      Serves ids live (.closeAll store sorted) (.filled store')
        (told.flatMap fun t => [(t.place, .getConfig t.answer.1), (t.place, .close t.answer.2)])

inductive ServesAll (ids : List String) :
    Journal η → List Command → List (Answer η) → Journal η → Prop
  | nil (j : Journal η) : ServesAll ids j [] [] j
  | cons {j segment j' : Journal η} {c : Command} {commands : List Command} {a : Answer η}
      {answers : List (Answer η)} (serves : Serves ids (j.live ids) c a segment)
      (others : ServesAll ids (j ++ segment) commands answers j') :
      ServesAll ids j (c :: commands) (a :: answers) j'

/-- The contacts when modules are opened with the sections of a store. -/
def openings (store : Store) (opened : List (Told Bool)) : Journal η :=
  opened.map fun t => (t.place, .opening (store.section? t.id) t.answer)

def closings (closed : List (Told (Except Fault Unit))) : Journal η :=
  closed.map fun t => (t.place, .close t.answer)

namespace Registry

/-- The open modules with their places, counted from one on. -/
def openFrom (place : Nat) : Registry μ → List (String × Nat)
  | [] => []
  | m :: rest =>
    if m.isOpen then (m.id, place) :: openFrom (place + 1) rest else openFrom (place + 1) rest

/-- Open modules carry their places. -/
def PlacedFrom (place : Nat) : Registry (Nat × μ) → Prop
  | [] => True
  | m :: rest => (∀ s, m.slot = .opened s → s.1 = place) ∧ PlacedFrom (place + 1) rest

/-- Modules that are not called stay as they are, and those that are called keep their places. -/
def Stays : Registry (Nat × μ) → Registry (Nat × μ) → Prop :=
  Moves fun _ s s' => s'.1 = s.1

variable {place : Nat}

@[simp] theorem openFrom_opened (id name : String) (s : μ) (rest : Registry μ) :
    openFrom place (⟨id, name, .opened s⟩ :: rest) = (id, place) :: openFrom (place + 1) rest := rfl

theorem openFrom_shut {m : Loaded μ} (shut : m.isOpen = false) (rest : Registry μ) :
    openFrom place (m :: rest) = openFrom (place + 1) rest := by
  rw [openFrom, shut]
  rfl

theorem le_of_mem_openFrom {r : Registry μ} {p : String × Nat} (there : p ∈ r.openFrom place) :
    place ≤ p.2 := by
  induction r generalizing place with
  | nil => cases there
  | cons m rest ih =>
    rw [openFrom] at there
    split at there
    · rcases List.mem_cons.mp there with rfl | later
      · exact le_rfl
      · exact Nat.le_of_succ_le (ih later)
    · exact Nat.le_of_succ_le (ih there)

theorem call_shut {m : Loaded μ} (shut : m.isOpen = false) (op : Call μ ω α) (w : ω) :
    m.call op w = ((none, m), w) := by
  obtain ⟨id, name, slot⟩ := m
  cases slot with
  | opened s => cases shut
  | failed => rfl
  | closed s => rfl

/-- Calls that tell and note something of every open module make a round. -/
theorem callAll_round (op : Loaded (Nat × μ) → Call (Nat × μ) (ω × Journal η) α) (f : β → α)
    (note : String → Nat → β → Journal η)
    (notes : ∀ m place s w j, ∃ b s' w',
      op m (place, s) (w, j) = ((f b, (place, s')), (w', j ++ note m.id place b)))
    (r : Registry (Nat × μ)) (placed : r.PlacedFrom place) (w : ω) (j : Journal η) :
    ∃ told r' w', Round (r.openFrom place) told ∧ Stays r r' ∧
      callAll op r (w, j) = ((told.map fun t => (t.id, f t.answer), r'),
        (w', j ++ told.flatMap fun t => note t.id t.place t.answer)) := by
  induction r generalizing place w j with
  | nil => exact ⟨[], [], w, rfl, .nil, by simp [callAll]; rfl⟩
  | cons m rest ih =>
    obtain ⟨here, others⟩ := placed
    by_cases opened : m.isOpen = true
    · obtain ⟨id, name, _ | ⟨k, s⟩ | s⟩ := m
      · cases opened
      · obtain rfl : k = place := here (k, s) rfl
        obtain ⟨b, s', w', ran⟩ := notes ⟨id, name, .opened (k, s)⟩ k s w j
        obtain ⟨told, r', w'', round, stays, all⟩ := ih others w' (j ++ note id k b)
        refine ⟨⟨id, k, b⟩ :: told, ⟨id, name, .opened (k, s')⟩ :: r', w'', ?_,
          .cons (.opened rfl) stays, ?_⟩
        · rw [Round, List.map_cons, round, openFrom_opened]
        · have first : Loaded.call (op ⟨id, name, .opened (k, s)⟩) ⟨id, name, .opened (k, s)⟩
              (w, j) = ((some (f b), ⟨id, name, .opened (k, s')⟩), (w', j ++ note id k b)) := by
            simp only [Loaded.call, bind, StateT.bind, ran]
            rfl
          simp only [callAll, bind, StateT.bind, first, all]
          dsimp only [pure, StateT.pure]
          simp
      · cases opened
    · have shut : m.isOpen = false := (Bool.not_eq_true _).mp opened
      obtain ⟨told, r', w', round, stays, all⟩ := ih others w j
      refine ⟨told, m :: r', w', ?_, .cons (.kept m) stays, ?_⟩
      · rw [Round, round, openFrom_shut shut]
      · simp only [callAll, bind, StateT.bind, call_shut shut, all]
        rfl

/-- Asking for routes makes a round; handlers are bound to the places of their modules. -/
theorem routesFrom_round (i : Interface μ ω η) (r : Registry (Nat × μ)) (placed : r.PlacedFrom place)
    (w : ω) (j : Journal η) :
    ∃ told r' w', Round (r.openFrom place) told ∧ Stays r r' ∧
      routesFrom i.watched place r (w, j) =
        ((told.map fun t => (t.id, t.answer.map fun route =>
            route.withHandler (t.place, route.handler)), r'),
          (w', j ++ told.map fun t => (t.place, .routes t.answer))) := by
  induction r generalizing place w j with
  | nil => exact ⟨[], [], w, rfl, .nil, by simp [routesFrom]; rfl⟩
  | cons m rest ih =>
    obtain ⟨here, others⟩ := placed
    by_cases opened : m.isOpen = true
    · obtain ⟨id, name, _ | ⟨k, s⟩ | s⟩ := m
      · cases opened
      · obtain rfl : k = place := here (k, s) rfl
        rcases ran : i.routes s w with ⟨⟨table, s'⟩, w'⟩
        obtain ⟨told, r', w'', round, stays, all⟩ := ih others w' (j ++ [(k, .routes table)])
        refine ⟨⟨id, k, table⟩ :: told, ⟨id, name, .opened (k, s')⟩ :: r', w'', ?_,
          .cons (.opened rfl) stays, ?_⟩
        · rw [Round, List.map_cons, round, openFrom_opened]
        · have first : Loaded.call i.watched.routes ⟨id, name, .opened (k, s)⟩ (w, j) =
              ((some table, ⟨id, name, .opened (k, s')⟩), (w', j ++ [(k, .routes table)])) := by
            simp only [Loaded.call, Interface.watched, Call.watched, bind, StateT.bind, ran]
            rfl
          simp only [routesFrom, bind, StateT.bind, first, all]
          dsimp only [pure, StateT.pure]
          simp
      · cases opened
    · have shut : m.isOpen = false := (Bool.not_eq_true _).mp opened
      obtain ⟨told, r', w', round, stays, all⟩ := ih others w j
      refine ⟨told, m :: r', w', ?_, .cons (.kept m) stays, ?_⟩
      · rw [Round, round, openFrom_shut shut]
      · simp only [routesFrom, bind, StateT.bind, call_shut shut, all]
        rfl

def ids (r : Registry μ) : List String :=
  r.map (·.id)

/-- The first module of an id, counted from a place on, is open. -/
def FirstOpen (place : Nat) (r : Registry μ) (id : String) (p : String × Nat) : Prop :=
  (r.ids.zipIdx place).find? (fun p => p.1 = id) = some p ∧ p ∈ r.openFrom place

theorem firstOpen_head {m : Loaded μ} {rest : Registry μ} {p : String × Nat} :
    FirstOpen place (m :: rest) m.id p ↔ p = (m.id, place) ∧ m.isOpen = true := by
  have first : ((ids (m :: rest)).zipIdx place).find? (fun p => p.1 = m.id) =
      some (m.id, place) := by
    simp [ids]
  rw [FirstOpen, first]
  constructor
  · rintro ⟨same, there⟩
    obtain rfl := Option.some.inj same
    refine ⟨rfl, ?_⟩
    by_contra shut
    rw [openFrom_shut ((Bool.not_eq_true _).mp shut)] at there
    exact absurd (le_of_mem_openFrom there) (by simp)
  · rintro ⟨rfl, opened⟩
    rw [openFrom, if_pos opened]
    exact ⟨rfl, List.mem_cons_self⟩

theorem firstOpen_tail {m : Loaded μ} {rest : Registry μ} {id : String} (other : m.id ≠ id)
    {p : String × Nat} :
    FirstOpen place (m :: rest) id p ↔ FirstOpen (place + 1) rest id p := by
  have later : ((ids (m :: rest)).zipIdx place).find? (fun p => p.1 = id) =
      ((ids rest).zipIdx (place + 1)).find? fun p => p.1 = id := by
    simp [ids, other]
  rw [FirstOpen, FirstOpen, later, and_congr_right_iff]
  intro found
  have apart : p ≠ (m.id, place) := by
    rintro rfl
    simpa [other] using List.find?_some found
  rw [openFrom]
  split <;> simp [apart]

theorem isOpen_iff (r : Registry μ) (id : String) :
    r.isOpen id = true ↔ ∃ p, FirstOpen place r id p := by
  induction r generalizing place with
  | nil => simp [isOpen, FirstOpen, openFrom]
  | cons m rest ih =>
    by_cases named : m.id = id
    · subst named
      simp [isOpen, firstOpen_head]
    · simp only [firstOpen_tail named, ← ih, isOpen]
      rw [List.find?_cons_of_neg (by simpa using named)]

/-- A call of the first module of an id is one contact if that is open, and none if it is not. -/
theorem callFirst_told (op : Call μ ω α) (note : α → Contact η) (id : String)
    (r : Registry (Nat × μ)) (placed : r.PlacedFrom place) (w : ω) (j : Journal η) :
    (∃ a k r' w', FirstOpen place r id (id, k) ∧ Stays r r' ∧
      callFirst id (op.watched note) r (w, j) = ((some a, r'), (w', j ++ [(k, note a)]))) ∨
    (∀ p, ¬FirstOpen place r id p) ∧
      callFirst id (op.watched note) r (w, j) = ((none, r), (w, j)) := by
  induction r generalizing place with
  | nil => exact Or.inr ⟨fun p first => by simp [FirstOpen, openFrom] at first, rfl⟩
  | cons m rest ih =>
    obtain ⟨here, others⟩ := placed
    by_cases named : m.id = id
    · subst named
      by_cases opened : m.isOpen = true
      · obtain ⟨id, name, _ | ⟨k, s⟩ | s⟩ := m
        · cases opened
        · obtain rfl : k = place := here (k, s) rfl
          rcases ran : op s w with ⟨⟨a, s'⟩, w'⟩
          refine Or.inl ⟨a, k, ⟨id, name, .opened (k, s')⟩ :: rest, w',
            firstOpen_head.mpr ⟨rfl, rfl⟩, .cons (.opened rfl) (Moves.refl rest), ?_⟩
          rw [callFirst, if_pos rfl]
          simp only [Loaded.call, Call.watched, bind, StateT.bind, ran]
          rfl
        · cases opened
      · refine Or.inr ⟨fun p first => opened (firstOpen_head.mp first).2, ?_⟩
        have shut : m.isOpen = false := (Bool.not_eq_true _).mp opened
        rw [callFirst, if_pos rfl]
        simp only [bind, StateT.bind, call_shut shut]
        rfl
    · simp only [firstOpen_tail named, callFirst, if_neg named]
      rcases ih others with ⟨a, k, r', w', first, stays, ran⟩ | ⟨never, ran⟩
      · refine Or.inl ⟨a, k, m :: r', w', first, .cons (.kept m) stays, ?_⟩
        simp only [bind, StateT.bind, ran]
        rfl
      · refine Or.inr ⟨never, ?_⟩
        simp only [bind, StateT.bind, ran]
        rfl

theorem le_of_round {r : Registry μ} {told : List (Told α)} (round : Round (r.openFrom place) told)
    {t : Told α} (there : t ∈ told) : place ≤ t.place := by
  refine le_of_mem_openFrom (r := r) (p := (t.id, t.place)) ?_
  rw [← round]
  exact List.mem_map_of_mem there

theorem openFrom_eq_of_shape {r r' : Registry μ} (same : r'.shape = r.shape) :
    r'.openFrom place = r.openFrom place := by
  induction r generalizing r' place with
  | nil =>
    obtain rfl := List.map_eq_nil_iff.mp same
    rfl
  | cons m rest ih =>
    cases r' with
    | nil => cases same
    | cons m' rest' =>
      obtain ⟨head, tail⟩ := List.cons.inj same
      obtain ⟨id_eq, open_eq⟩ := Prod.mk.inj head
      rw [openFrom, openFrom, ih tail, id_eq, open_eq]

def members (r : Registry μ) : List (String × String) :=
  r.map fun m => (m.id, m.name)

theorem ids_eq_members (r : Registry μ) : r.ids = r.members.map Prod.fst := by
  simp [ids, members]

theorem members_retire (r : Registry μ) : members (r.map (·.retire)) = r.members := by
  have same (m : Loaded μ) : m.retire.id = m.id ∧ m.retire.name = m.name := by
    obtain ⟨id, name, slot⟩ := m
    cases slot <;> exact ⟨rfl, rfl⟩
  simp [members, same]

theorem shut_retire (r : Registry μ) : ∀ m ∈ r.map (·.retire), m.isOpen = false := by
  intro m there
  obtain ⟨m', -, rfl⟩ := List.mem_map.mp there
  obtain ⟨id, name, slot⟩ := m'
  cases slot <;> rfl

namespace Stays

variable {r r' : Registry (Nat × μ)}

theorem refl (r : Registry (Nat × μ)) : Stays r r := Moves.refl r

theorem members_eq (stays : Stays r r') : r'.members = r.members := by
  induction stays with
  | nil => rfl
  | cons one _ ih =>
    rw [members, List.map_cons, members, List.map_cons]
    refine congrArg₂ (· :: ·) ?_ ih
    cases one <;> rfl

theorem openFrom_eq (stays : Stays r r') : r'.openFrom place = r.openFrom place :=
  openFrom_eq_of_shape (Moves.shape_eq stays)

end Stays

end Registry

theorem watched_notes (op : Call μ ω α) (note : α → Contact η) (place : Nat) (s : μ) (w : ω)
    (j : Journal η) : ∃ a s' w', op.watched note (place, s) (w, j) =
      ((a, (place, s')), (w', j ++ [(place, note a)])) :=
  ⟨_, _, _, rfl⟩

/-- Two contacts are made when a module is closed with the others: it tells its section, and right
after that it is closed. -/
theorem farewell_notes (i : Interface μ ω η) (place : Nat) (s : μ) (w : ω) (j : Journal η) :
    ∃ b : Option Json.Value × Except Fault Unit, ∃ s' w',
      Registry.farewell i.watched (place, s) (w, j) =
        ((b.1, (place, s')), (w', j ++ [(place, .getConfig b.1), (place, .close b.2)])) := by
  rcases asked : i.getConfig s w with ⟨⟨value, s'⟩, w'⟩
  rcases ended : i.close s' w' with ⟨⟨result, s''⟩, w''⟩
  refine ⟨(value, result), s'', w'', ?_⟩
  simp only [Registry.farewell, Interface.watched, Call.watched, bind, StateT.bind, asked, ended]
  dsimp only [pure, StateT.pure]
  simp

/-- Setting the sections that were told is what fills a store with them. -/
theorem fills_filled {store : Store} (sorted : store.document.Sorted)
    (told : List (Told (Option Json.Value))) :
    Fills store told (store.filled (told.map fun t => (t.id, t.answer))) where
  path_eq := store.filled_path _
  sorted := Store.filled_sorted sorted
  replaced := by
    rintro before t later rfl last
    rw [List.map_append, List.map_cons]
    refine Store.section?_filled sorted fun again => ?_
    obtain ⟨t', there, same⟩ : ∃ t' ∈ later, t'.id = t.id := by simpa using again
    exact last t' there same
  others := by
    intro id silent
    refine Store.section?_filled_other fun again => ?_
    obtain ⟨t, there, same⟩ : ∃ t ∈ told, t.id = id := by simpa using again
    exact silent t there same

namespace Command

variable (i : Interface μ ω η)

def closes : Command → Bool
  | .closeAll _ _ => true
  | _ => false

/-- Every command is served, and leaves the modules in their places. -/
theorem serves (c : Command) (r : Registry (Nat × μ)) (placed : r.PlacedFrom 0) (w : ω)
    (j : Journal η) :
    ∃ answer r₁ w' segment, Serves r.ids (r.openFrom 0) c answer segment ∧ r.Stays r₁ ∧
      c.run i.watched r (w, j) =
        ((answer, if c.closes then r₁.map (·.retire) else r₁), (w', j ++ segment)) := by
  cases c with
  | get id =>
    refine ⟨_, r, w, [], .get (r.isOpen_iff id), .refl r, ?_⟩
    rw [List.append_nil]
    rfl
  | contains id =>
    refine ⟨_, r, w, [], .contains id, .refl r, ?_⟩
    have same : r.contains id = decide (id ∈ r.ids) := by
      rw [Bool.eq_iff_iff]
      simp [Registry.contains, Registry.ids]
    rw [List.append_nil, run, same]
    rfl
  | routes =>
    obtain ⟨told, r', w', round, stays, ran⟩ := r.routesFrom_round i placed w j
    refine ⟨_, r', w', _, .routes round, stays, ?_⟩
    simp only [run, Registry.routes, bind, StateT.bind, ran]
    rfl
  | configs =>
    obtain ⟨told, r', w', round, stays, ran⟩ := Registry.callAll_round
      (fun _ => i.watched.getConfig) id (fun _ k v => [(k, .getConfig v)])
      (fun _ => watched_notes i.getConfig .getConfig) r placed w j
    refine ⟨_, r', w', _, .configs round, stays, ?_⟩
    simp only [run, Registry.configs, bind, StateT.bind, ran, ← List.map_eq_flatMap]
    rw [List.filterMap_map]
    rfl
  | defaultAll =>
    obtain ⟨told, r', w', round, stays, ran⟩ := Registry.callAll_round
      (fun _ => i.watched.setConfig none) id (fun _ k a => [(k, .setConfig none a)])
      (fun _ => watched_notes (i.setConfig none) (.setConfig none)) r placed w j
    refine ⟨_, r', w', _, .defaultAll round, stays, ?_⟩
    simp only [run, Registry.defaultAll, bind, StateT.bind, ran, ← List.map_eq_flatMap]
    rfl
  | reloadAll store =>
    obtain ⟨told, r', w', round, stays, ran⟩ := Registry.callAll_round
      (fun m => i.watched.setConfig (store.section? m.id)) id
      (fun id k a => [(k, .setConfig (store.section? id) a)])
      (fun m => watched_notes (i.setConfig (store.section? m.id)) (.setConfig _)) r placed w j
    refine ⟨_, r', w', _, .reloadAll round, stays, ?_⟩
    simp only [run, Registry.reloadAll, bind, StateT.bind, ran, ← List.map_eq_flatMap]
    rfl
  | apply id value =>
    rcases Registry.callFirst_told (i.setConfig (some value)) (.setConfig (some value)) id r
      placed w j with
      ⟨a, k, r', w', ⟨first, there⟩, stays, ran⟩ | ⟨never, ran⟩
    · refine ⟨.applied a, r', w', [(k, .setConfig (some value) a)], .applied first there, stays, ?_⟩
      simp only [run, Registry.apply, Interface.watched, bind, StateT.bind, ran]
      rfl
    · have shut : ∀ p, firstOf r.ids id = some p → p ∉ r.openFrom 0 := fun p first there =>
        never p ⟨first, there⟩
      refine ⟨_, r, w, [], .unapplied shut, .refl r, ?_⟩
      simp only [run, Registry.apply, Interface.watched, bind, StateT.bind, ran, List.append_nil]
      rfl
  | collect store sorted =>
    obtain ⟨told, r', w', round, stays, ran⟩ := Registry.callAll_round
      (fun _ => i.watched.getConfig) id (fun _ k v => [(k, .getConfig v)])
      (fun _ => watched_notes i.getConfig .getConfig) r placed w j
    refine ⟨_, r', w', _, .collect round (fills_filled sorted told), stays, ?_⟩
    simp only [run, Registry.collect, bind, StateT.bind, ran, ← List.map_eq_flatMap]
    rfl
  | closeAll store sorted =>
    obtain ⟨told, r', w', round, stays, ran⟩ := Registry.callAll_round
      (fun _ => Registry.farewell i.watched) Prod.fst
      (fun _ k b => [(k, .getConfig b.1), (k, .close b.2)])
      (fun _ => farewell_notes i) r placed w j
    refine ⟨_, r', w', _, .closeAll round (fills_filled sorted _), stays, ?_⟩
    simp only [run, Registry.closeAll, bind, StateT.bind, ran, List.map_map]
    rfl

end Command

/-- The contacts with the module at a place are those that lead to what became of it. -/
inductive Standing (value : Option Json.Value) (place : Nat) :
    Slot (Nat × μ) → List (Contact η) → Prop
  | failed : Standing value place .failed [.opening value false]
  | opened {s : μ} {talk : List (Contact η)} (between : ∀ c ∈ talk, c.Between) :
      Standing value place (.opened (place, s)) (.opening value true :: talk)
  | closed {s : Nat × μ} {talk : List (Contact η)} {result : Except Fault Unit}
      (between : ∀ c ∈ talk, c.Between) :
      Standing value place (.closed s) (.opening value true :: (talk ++ [.close result]))

/-- A journal tells of every module of a registry, its place counted from one on, what it has come
to, and of nothing behind the last one. -/
def Recorded (value : String → Option Json.Value) (j : Journal η) :
    Nat → Registry (Nat × μ) → Prop
  | place, [] => ∀ k, place ≤ k → j.contacts k = []
  | place, m :: rest =>
    Standing (value m.id) place m.slot (j.contacts place) ∧ Recorded value j (place + 1) rest

theorem Contact.not_closes {c : Contact η} (between : c.Between) : c.closes = false := by
  cases c <;> first | rfl | exact between.elim

namespace Standing

variable {value : Option Json.Value} {place : Nat} {m m' : Loaded (Nat × μ)}
  {cs more : List (Contact η)}

theorem place_eq (standing : Standing value place m.slot cs) {s : Nat × μ}
    (here : m.slot = .opened s) : s.1 = place := by
  rw [here] at standing
  cases standing
  rfl

theorem isLive_eq (standing : Standing value place m.slot cs) :
    (cs.any (·.opens) && !cs.any (·.closes)) = m.isOpen := by
  obtain ⟨id, name, slot⟩ := m
  cases standing with
  | failed => rfl
  | @opened s talk between =>
    have quiet : talk.any (·.closes) = false := List.any_eq_false.mpr fun c there =>
      Bool.eq_false_iff.mp (Contact.not_closes (between c there))
    rw [List.any_cons, List.any_cons, quiet]
    rfl
  | closed between => simp [Contact.opens, Contact.closes, Loaded.isOpen]

/-- Talk leaves an open module open; with others there must be none. -/
theorem talked (standing : Standing value place m.slot cs)
    (moves : Loaded.Moves (fun _ s s' => s'.1 = s.1) m m') (between : ∀ c ∈ more, c.Between)
    (silent : m.isOpen = false → more = []) : Standing value place m'.slot (cs ++ more) := by
  cases moves with
  | kept =>
    obtain ⟨id, name, slot⟩ := m
    cases standing with
    | failed =>
      rw [silent rfl]
      exact .failed
    | opened talk =>
      exact .opened fun c there => (List.mem_append.mp there).elim (talk c) (between c)
    | closed talk =>
      rw [silent rfl, List.append_nil]
      exact .closed talk
  | @opened id name s s' same =>
    obtain ⟨k, s⟩ := s
    obtain ⟨k', s'⟩ := s'
    obtain rfl : k' = k := same
    cases standing with
    | opened talk =>
      exact .opened fun c there => (List.mem_append.mp there).elim (talk c) (between c)
  | closed s s' =>
    cases standing with
    | closed talk =>
      rw [silent rfl, List.append_nil]
      exact .closed talk

/-- A contact that closes ends what there is to tell of an open module; with others there must be
none. -/
theorem parted (standing : Standing value place m.slot cs)
    (ends : m.isOpen = true → ∃ talk result, more = talk ++ [.close result] ∧ ∀ c ∈ talk, c.Between)
    (silent : m.isOpen = false → more = []) : Standing value place m.retire.slot (cs ++ more) := by
  obtain ⟨id, name, slot⟩ := m
  cases standing with
  | failed =>
    rw [silent rfl]
    exact .failed
  | opened before =>
    obtain ⟨talk, result, rfl, between⟩ := ends rfl
    rw [List.cons_append, ← List.append_assoc]
    exact .closed fun c there => (List.mem_append.mp there).elim (before c) (between c)
  | closed before =>
    rw [silent rfl, List.append_nil]
    exact .closed before

/-- What there is to tell of a module that is not open any more is all there will be. -/
theorem lived (standing : Standing value place m.slot cs) (shut : m.isOpen = false) :
    Lived value cs := by
  obtain ⟨id, name, slot⟩ := m
  cases standing with
  | failed => exact .failed
  | opened between => cases shut
  | closed between => exact .closed between

end Standing

namespace Recorded

variable {value : String → Option Json.Value} {j j' : Journal η} {place : Nat}
  {r r' : Registry (Nat × μ)}

theorem placed (recorded : Recorded value j place r) : r.PlacedFrom place := by
  induction r generalizing place with
  | nil => trivial
  | cons m rest ih =>
    obtain ⟨standing, others⟩ := recorded
    exact ⟨fun s here => standing.place_eq here, ih others⟩

/-- The journal tells which modules are open. -/
theorem live_eq (recorded : Recorded value j place r) :
    ((r.ids.zipIdx place).filter fun p => j.isLive p.2) = r.openFrom place := by
  induction r generalizing place with
  | nil => rfl
  | cons m rest ih =>
    obtain ⟨standing, others⟩ := recorded
    have here : j.isLive place = m.isOpen := standing.isLive_eq
    have listed : (Registry.ids (m :: rest)).zipIdx place =
        (m.id, place) :: (Registry.ids rest).zipIdx (place + 1) := rfl
    rw [listed, List.filter_cons, here, ih others, Registry.openFrom]

theorem congr (recorded : Recorded value j place r)
    (same : ∀ k, place ≤ k → j'.contacts k = j.contacts k) : Recorded value j' place r := by
  induction r generalizing place with
  | nil => exact fun k after => (same k after).trans (recorded k after)
  | cons m rest ih =>
    obtain ⟨standing, others⟩ := recorded
    exact ⟨(same place le_rfl).symm ▸ standing, ih others fun k after => same k (by omega)⟩

/-- Talk with open modules leaves them open, and the others as they are. -/
theorem talked (segment : Journal η) (recorded : Recorded value j place r)
    (stays : Registry.Stays r r')
    (talk : ∀ e ∈ segment, place ≤ e.1 → e.2.Between ∧ ∃ id, (id, e.1) ∈ r.openFrom place) :
    Recorded value (j ++ segment) place r' := by
  induction stays generalizing place with
  | nil =>
    refine recorded.congr fun k after => ?_
    rw [Journal.contacts_append, Journal.contacts_eq_nil (j := segment), List.append_nil]
    rintro e there rfl
    obtain ⟨-, id, nowhere⟩ := talk e there after
    cases nowhere
  | @cons m m' rest rest' one _ ih =>
    obtain ⟨standing, others⟩ := recorded
    have later : ∀ e ∈ segment, place + 1 ≤ e.1 →
        e.2.Between ∧ ∃ id, (id, e.1) ∈ Registry.openFrom (place + 1) rest := by
      intro e there after
      obtain ⟨between, id, opened⟩ := talk e there (by omega)
      refine ⟨between, id, ?_⟩
      rw [Registry.openFrom] at opened
      split at opened
      · rcases List.mem_cons.mp opened with same | later
        · have := congrArg Prod.snd same
          dsimp only at this
          omega
        · exact later
      · exact opened
    refine ⟨?_, ih others later⟩
    have shut (closed : m.isOpen = false) : segment.contacts place = [] := by
      refine Journal.contacts_eq_nil ?_
      rintro e there rfl
      obtain ⟨-, id, opened⟩ := talk e there le_rfl
      rw [Registry.openFrom_shut closed] at opened
      exact absurd (Registry.le_of_mem_openFrom opened) (by simp)
    have between : ∀ c ∈ segment.contacts place, c.Between := fun c there =>
      (talk _ (Journal.mem_contacts.mp there) le_rfl).1
    rw [Journal.contacts_append]
    have same : m'.id = m.id := by cases one <;> rfl
    exact same ▸ standing.talked one between shut

/-- When every open module is closed last of all, there is no more to tell of any. -/
theorem parted {told : List (Told β)} (parting : Told β → List (Contact η))
    (recorded : Recorded value j place r) (round : Round (r.openFrom place) told)
    (ends : ∀ t ∈ told, ∃ talk result, parting t = talk ++ [.close result] ∧
      ∀ c ∈ talk, c.Between) :
    Recorded value (j ++ told.flatMap fun t => (parting t).map fun c => (t.place, c)) place
      (r.map (·.retire)) := by
  induction r generalizing place told with
  | nil =>
    obtain rfl := List.map_eq_nil_iff.mp round
    exact fun k after => by simpa using recorded k after
  | cons m rest ih =>
    obtain ⟨standing, others⟩ := recorded
    have elsewhere {told : List (Told β)}
        (later : Round (Registry.openFrom (place + 1) rest) told) :
        Journal.contacts (told.flatMap fun t => (parting t).map fun c => (t.place, c)) place = [] := by
      refine Journal.contacts_eq_nil fun e there => ?_
      obtain ⟨t, asked, there⟩ := List.mem_flatMap.mp there
      obtain ⟨c, -, rfl⟩ := List.mem_map.mp there
      have := Registry.le_of_round later asked
      dsimp only
      omega
    have named : m.retire.id = m.id := by
      obtain ⟨id, name, slot⟩ := m
      cases slot <;> rfl
    by_cases opened : m.isOpen = true
    · rw [Registry.openFrom, if_pos opened] at round
      cases told with
      | nil => cases round
      | cons t told =>
        obtain ⟨head, tail⟩ := List.cons.inj round
        obtain rfl : t.place = place := congrArg Prod.snd head
        rw [List.flatMap_cons]
        refine ⟨?_, (ih others tail fun t there => ends t (List.mem_cons_of_mem _ there)).congr
          fun k after => ?_⟩
        · rw [named, Journal.contacts_append, Journal.contacts_append, Journal.contacts_map_self,
            elsewhere tail, List.append_nil]
          exact standing.parted (fun _ => ends t List.mem_cons_self) fun shut =>
            absurd opened (by simp [shut])
        · rw [Journal.contacts_append, Journal.contacts_append, Journal.contacts_append,
            Journal.contacts_eq_nil (j := (parting t).map _), List.nil_append]
          intro e there
          obtain ⟨c, -, rfl⟩ := List.mem_map.mp there
          dsimp only
          omega
    · have shut : m.isOpen = false := (Bool.not_eq_true _).mp opened
      rw [Registry.openFrom_shut shut] at round
      refine ⟨?_, ih others round ends⟩
      rw [named, Journal.contacts_append, elsewhere round]
      exact standing.parted (fun now => absurd now opened) fun _ => rfl

/-- Of modules that are not open any more everything is told. -/
theorem lived (recorded : Recorded value j place r) (shut : ∀ m ∈ r, m.isOpen = false) :
    (∀ k id, r.ids[k]? = some id → Lived (value id) (j.contacts (place + k))) ∧
      ∀ k, r.ids.length ≤ k → j.contacts (place + k) = [] := by
  induction r generalizing place with
  | nil => exact ⟨fun k id there => (by cases there), fun k _ => recorded (place + k) (by omega)⟩
  | cons m rest ih =>
    obtain ⟨standing, others⟩ := recorded
    obtain ⟨each, none⟩ := ih others fun m' there => shut m' (List.mem_cons_of_mem m there)
    have shift (k : Nat) : place + (k + 1) = place + 1 + k := by omega
    refine ⟨fun k id there => ?_, fun k after => ?_⟩
    · cases k with
      | zero =>
        obtain rfl : m.id = id := Option.some.inj there
        exact standing.lived (shut m List.mem_cons_self)
      | succ k =>
        rw [shift]
        exact each k id there
    · cases k with
      | zero => cases after
      | succ k =>
        rw [shift]
        exact none k (Nat.le_of_succ_le_succ after)

end Recorded

namespace Registry

/-- Loading opens every module once, in the order of the list, each with its section. -/
theorem load_recorded (ds : List (Descriptor μ ω)) (store : Store) (place : Nat) (w : ω)
    {j : Journal η} (fresh : ∀ k, place ≤ k → j.contacts k = []) :
    ∃ opened r w', Round ((ds.map (·.id)).zipIdx place) opened ∧
      r.members = ds.map (fun d => (d.id, d.name)) ∧
      Recorded store.section? (j ++ openings store opened) place r ∧
      load (watchedFrom place ds) store (w, j) = (r, (w', j ++ openings store opened)) := by
  induction ds generalizing place w j with
  | nil =>
    refine ⟨[], [], w, rfl, rfl, fun k after => ?_, ?_⟩
    · simpa [openings] using fresh k after
    · simp [openings]
      rfl
  | cons d rest ih =>
    rcases ran : d.opening (store.section? d.id) w with ⟨result, w'⟩
    have fresh' : ∀ k, place + 1 ≤ k → Journal.contacts
        (j ++ [(place, .opening (store.section? d.id) result.isOk)]) k = [] := by
      intro k after
      rw [Journal.contacts_append, fresh k (by omega), Journal.contacts_eq_nil (j := [_])]
      · rfl
      · rintro e there rfl
        obtain rfl := List.mem_singleton.mp there
        dsimp only at after
        omega
    obtain ⟨opened, r, w'', round, members_eq, recorded, loaded⟩ := ih (place + 1) w' fresh'
    have later : Journal.contacts (openings (η := η) store opened) place = [] := by
      refine Journal.contacts_eq_nil fun e there => ?_
      obtain ⟨t, asked, rfl⟩ := List.mem_map.mp there
      have listed : (t.id, t.place) ∈ (rest.map (·.id)).zipIdx (place + 1) :=
        round ▸ List.mem_map_of_mem asked
      have := List.le_snd_of_mem_zipIdx listed
      dsimp only at this ⊢
      omega
    have first : Journal.contacts ((j ++ [(place, .opening (store.section? d.id) result.isOk)]) ++
        openings store opened) place = [.opening (store.section? d.id) result.isOk] := by
      rw [Journal.contacts_append, Journal.contacts_append, fresh place le_rfl,
        Journal.contacts_cons_self, later]
      rfl
    have all : j ++ openings store (⟨d.id, place, result.isOk⟩ :: opened) =
        (j ++ [(place, .opening (store.section? d.id) result.isOk)]) ++ openings store opened := by
      rw [List.append_assoc]
      rfl
    have listed : Round (((d :: rest).map (·.id)).zipIdx place)
        (⟨d.id, place, result.isOk⟩ :: opened) := by
      rw [Round, List.map_cons, round]
      rfl
    have opening : (d.watched place).opening (store.section? d.id) (w, j) =
        (result.map fun s => (place, s),
          (w', j ++ [(place, .opening (store.section? d.id) result.isOk)])) := by
      simp only [Descriptor.watched, ran]
    refine ⟨⟨d.id, place, result.isOk⟩ :: opened,
      loadedAs d.id d.name (result.map fun s => (place, s)) :: r, w'', listed, ?_, ?_, ?_⟩
    · rw [members, List.map_cons, List.map_cons, ← members_eq, members]
      cases result <;> rfl
    · rw [all]
      cases result with
      | error f => exact ⟨first ▸ .failed, recorded⟩
      | ok s => exact ⟨first ▸ .opened (List.forall_mem_nil _), recorded⟩
    · rw [all]
      exact load_cons opening loaded

end Registry

namespace Recorded

variable {value : String → Option Json.Value} {j : Journal η} {r r' : Registry (Nat × μ)}

/-- A round of talk. -/
theorem talked_round {told : List (Told α)} {note : Told α → Contact η}
    (between : ∀ t, (note t).Between) (recorded : Recorded value j 0 r)
    (stays : Registry.Stays r r') (round : Round (r.openFrom 0) told) :
    Recorded value (j ++ told.map fun t => (t.place, note t)) 0 r' := by
  refine recorded.talked _ stays fun e there _ => ?_
  obtain ⟨t, asked, rfl⟩ := List.mem_map.mp there
  exact ⟨between t, t.id, round ▸ List.mem_map_of_mem asked⟩

/-- Whatever is served, the journal tells of every module what it has come to. -/
theorem served {c : Command} {a : Answer η} {segment : Journal η} (recorded : Recorded value j 0 r)
    (serves : Serves r.ids (r.openFrom 0) c a segment) (stays : Registry.Stays r r') :
    Recorded value (j ++ segment) 0 (if c.closes then r'.map (·.retire) else r') := by
  have silence := recorded.talked [] stays (List.forall_mem_nil _)
  cases serves with
  | get tells => exact silence
  | contains id => exact silence
  | routes round => exact recorded.talked_round (fun _ => trivial) stays round
  | configs round => exact recorded.talked_round (fun _ => trivial) stays round
  | defaultAll round => exact recorded.talked_round (fun _ => trivial) stays round
  | reloadAll round => exact recorded.talked_round (fun _ => trivial) stays round
  | @applied id value place result first there =>
    refine recorded.talked _ stays fun e noted _ => ?_
    obtain rfl := List.mem_singleton.mp noted
    exact ⟨trivial, id, there⟩
  | unapplied shut => exact silence
  | collect round fills => exact recorded.talked_round (fun _ => trivial) stays round
  | @closeAll store store' sorted told round fills =>
    rw [List.append_nil] at silence
    exact silence.parted (fun t => [.getConfig t.answer.1, .close t.answer.2])
      (stays.openFrom_eq.symm ▸ round) fun t _ =>
        ⟨[.getConfig t.answer.1], t.answer.2, rfl, by simp [Contact.Between]⟩

end Recorded

theorem runAll_served (i : Interface μ ω η) (commands : List Command)
    {value : String → Option Json.Value} {j : Journal η} {r : Registry (Nat × μ)}
    (recorded : Recorded value j 0 r) (w : ω) :
    ∃ answers r' w' j', ServesAll r.ids j commands answers j' ∧ Recorded value j' 0 r' ∧
      r'.members = r.members ∧
      Command.runAll i.watched commands r (w, j) = ((answers, r'), (w', j')) := by
  induction commands generalizing j r w with
  | nil => exact ⟨[], r, w, j, .nil j, recorded, rfl, rfl⟩
  | cons c commands ih =>
    obtain ⟨a, r₁, w₁, segment, serves, stays, ran⟩ := c.serves i r recorded.placed w j
    have members_eq : (if c.closes then r₁.map (·.retire) else r₁ : Registry (Nat × μ)).members =
        r.members := by
      split
      · exact (Registry.members_retire r₁).trans stays.members_eq
      · exact stays.members_eq
    obtain ⟨answers, r', w', j', all, recorded', members_eq', ran'⟩ :=
      ih (recorded.served serves stays) w₁
    rw [Registry.ids_eq_members, members_eq, ← Registry.ids_eq_members] at all
    have live : j.live r.ids = r.openFrom 0 := recorded.live_eq
    refine ⟨a :: answers, r', w', j', .cons (live ▸ serves) all, recorded',
      members_eq'.trans members_eq, ?_⟩
    simp only [Command.runAll, bind, StateT.bind, ran, ran']
    rfl

/-- When a registry goes away, what is still open is closed. -/
theorem drop_parted (i : Interface μ ω η) {value : String → Option Json.Value} {j : Journal η}
    {r : Registry (Nat × μ)} (recorded : Recorded value j 0 r) (w : ω) :
    ∃ closed r' w', Round (j.live r.ids) closed ∧ Recorded value (j ++ closings closed) 0 r' ∧
      (∀ m ∈ r', m.isOpen = false) ∧ r'.members = r.members ∧
      r.drop i.watched (w, j) = (r', (w', j ++ closings closed)) := by
  obtain ⟨closed, r₁, w', round, stays, ran⟩ := Registry.callAll_round
    (fun _ => i.watched.close) id (fun _ k a => [(k, .close a)])
    (fun _ => watched_notes i.close .close) r recorded.placed w j
  have live : j.live r.ids = r.openFrom 0 := recorded.live_eq
  have silence := recorded.talked [] stays (List.forall_mem_nil _)
  rw [List.append_nil] at silence
  have parted := silence.parted (fun t => [.close t.answer]) (stays.openFrom_eq.symm ▸ round)
    fun t _ => ⟨[], t.answer, rfl, List.forall_mem_nil _⟩
  simp only [List.map_cons, List.map_nil, ← List.map_eq_flatMap] at parted
  refine ⟨closed, r₁.map (·.retire), w', live ▸ round, parted, r₁.shut_retire,
    (Registry.members_retire r₁).trans stays.members_eq, ?_⟩
  simp only [Registry.drop, bind, StateT.bind, ran, ← List.map_eq_flatMap]
  rfl

/-- The lives of all modules of a registry, from its loading through any commands to its end. Every
module is opened once, in the order of the list; every command is served by the modules that are
live then; at the end those that are still live are closed. So every module that was opened is
closed once and not called after that, one that failed to open is never called, and the list stays
as it is. To watch the modules changes nothing. -/
theorem lifecycle (i : Interface μ ω η) (ds : List (Descriptor μ ω)) (store : Store)
    (commands : List Command) (w : ω) :
    ∃ opened answers j closed r w₁ r' w',
      Round (ds.map (·.id)).zipIdx opened ∧
      ServesAll (ds.map (·.id)) (openings store opened) commands answers j ∧
      Round (j.live (ds.map (·.id))) closed ∧
      reached i.watched (watchedFrom 0 ds) store commands (w, []) = ((answers, r), (w₁, j)) ∧
      lifetime i.watched (watchedFrom 0 ds) store commands (w, []) =
        ((answers, r'), (w', j ++ closings closed)) ∧
      lifetime i ds store commands w = ((answers, r'.map (·.unwatched)), w') ∧
      r.members = ds.map (fun d => (d.id, d.name)) ∧
      r'.members = ds.map (fun d => (d.id, d.name)) ∧
      (∀ place d, ds[place]? = some d →
        Lived (store.section? d.id) ((j ++ closings closed).contacts place)) ∧
      ∀ place, ds.length ≤ place → (j ++ closings closed).contacts place = [] := by
  have ids_of {r : Registry (Nat × μ)} (same : r.members = ds.map fun d => (d.id, d.name)) :
      r.ids = ds.map (·.id) := by
    rw [Registry.ids_eq_members, same, List.map_map]
    rfl
  obtain ⟨opened, r₀, w₀, round, members₀, recorded₀, loaded⟩ :=
    Registry.load_recorded ds store 0 w (j := []) fun _ _ => rfl
  rw [List.nil_append] at recorded₀ loaded
  obtain ⟨answers, r, w₁, j, all, recorded, members, ran⟩ :=
    runAll_served i commands recorded₀ w₀
  obtain ⟨closed, r', w', round', recorded', shut, members', dropped⟩ := drop_parted i recorded w₁
  have listed := members.trans members₀
  have listed' := members'.trans listed
  rw [ids_of members₀] at all
  rw [ids_of listed] at round'
  have reaches : reached i.watched (watchedFrom 0 ds) store commands (w, []) =
      ((answers, r), (w₁, j)) := by
    simp only [reached, bind, StateT.bind, loaded, ran]
  have ends : lifetime i.watched (watchedFrom 0 ds) store commands (w, []) =
      ((answers, r'), (w', j ++ closings closed)) := by
    simp only [lifetime, bind, StateT.bind, reaches, dropped]
    rfl
  obtain ⟨each, none⟩ := recorded'.lived shut
  simp only [ids_of listed', Nat.zero_add] at each none
  refine ⟨opened, answers, j, closed, r, w₁, r', w', round, all, round', reaches, ends, ?_, listed,
    listed', fun place d there => each place d.id ?_, fun place after => none place ?_⟩
  · rw [erases_lifetime i ds store commands w [], ends]
    rfl
  · rw [List.getElem?_map, there]
    rfl
  · rwa [List.length_map]

end Jukebox.Module
