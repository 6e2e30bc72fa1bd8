import Mathlib.Tactic
import Jukebox.Module.Registry
/-!
# Calls on a registry

The operations of a registry call its open modules one after the other. `Called` says which calls
those are and what they answer, each in some world, since modules share one that any of them may
change. `Registry.Moves` keeps only that the states moved by such calls: the modules stay in their
places, and those that were open stay open.
-/
namespace Jukebox.Module

variable {μ ω η α : Type}

/-- A call takes one state of a module to another, in some world. -/
def Call.Takes (op : Call μ ω α) (s : μ) (a : α) (s' : μ) : Prop :=
  ∃ w w', op s w = ((a, s'), w')

inductive Called (op : Loaded μ → Call μ ω α) :
    Registry μ → List (String × α) → Registry μ → Prop
  | nil : Called op [] [] []
  | opened {id name : String} {s s' : μ} {a : α} {rest rest' : Registry μ}
      {answers : List (String × α)} (takes : (op ⟨id, name, .opened s⟩).Takes s a s')
      (others : Called op rest answers rest') :
      Called op (⟨id, name, .opened s⟩ :: rest) ((id, a) :: answers)
        (⟨id, name, .opened s'⟩ :: rest')
  | passed {m : Loaded μ} {rest rest' : Registry μ} {answers : List (String × α)}
      (shut : m.isOpen = false) (others : Called op rest answers rest') :
      Called op (m :: rest) answers (m :: rest')

inductive Loaded.Moves (P : String → μ → μ → Prop) : Loaded μ → Loaded μ → Prop
  | kept (m : Loaded μ) : Moves P m m
  | opened {id name : String} {s s' : μ} (moved : P id s s') :
      Moves P ⟨id, name, .opened s⟩ ⟨id, name, .opened s'⟩
  | closed {id name : String} (s s' : μ) : Moves P ⟨id, name, .closed s⟩ ⟨id, name, .closed s'⟩

/-- What becomes of a module that is opened with a section. -/
inductive Loaded.Loads (d : Descriptor μ ω) (value : Option Json.Value) : Loaded μ → Prop
  | opened {s : μ} {w w' : ω} (ran : d.opening value w = (.ok s, w')) :
      Loads d value ⟨d.id, d.name, .opened s⟩
  | failed {f : Fault} {w w' : ω} (ran : d.opening value w = (.error f, w')) :
      Loads d value ⟨d.id, d.name, .failed⟩

namespace Registry

/-- Ids in their places, with whether the module there is open. -/
def shape (r : Registry μ) : List (String × Bool) :=
  r.map fun m => (m.id, m.isOpen)

/-- Every open module is in a state of a kind. -/
def Holds (P : String → μ → Prop) (r : Registry μ) : Prop :=
  ∀ m ∈ r, ∀ s, m.slot = .opened s → P m.id s

/-- The open modules with something that their states tell. -/
def live (tells : μ → α) (r : Registry μ) : List (String × α) :=
  r.filterMap fun m =>
    match m.slot with
    | .opened s => some (m.id, tells s)
    | _ => none

/-- The modules stay in their places and their states move. -/
def Moves (P : String → μ → μ → Prop) : Registry μ → Registry μ → Prop :=
  List.Forall₂ (Loaded.Moves P)

section

variable {P : String → μ → Prop} {tells : μ → α} {m : Loaded μ} {rest : Registry μ}

theorem Holds.head (holds : Holds P (m :: rest)) {s : μ} (here : m.slot = .opened s) : P m.id s :=
  holds m List.mem_cons_self s here

theorem Holds.tail (holds : Holds P (m :: rest)) : Holds P rest :=
  fun m' there => holds m' (List.mem_cons_of_mem m there)

theorem Holds.nil : Holds P ([] : Registry μ) := List.forall_mem_nil _

theorem Holds.cons (head : ∀ s, m.slot = .opened s → P m.id s) (tail : Holds P rest) :
    Holds P (m :: rest) :=
  List.forall_mem_cons.mpr ⟨head, tail⟩

@[simp] theorem live_opened (id name : String) (s : μ) (rest : Registry μ) :
    live tells (⟨id, name, .opened s⟩ :: rest) = (id, tells s) :: live tells rest := rfl

theorem live_shut (shut : m.isOpen = false) : live tells (m :: rest) = live tells rest := by
  obtain ⟨id, name, slot⟩ := m
  cases slot with
  | opened s => cases shut
  | failed => rfl
  | closed s => rfl

theorem exists_of_live {r : Registry μ} {id : String} {a : α} (there : (id, a) ∈ r.live tells) :
    ∃ s, a = tells s := by
  obtain ⟨m, -, same⟩ := List.mem_filterMap.mp there
  split at same
  · rename_i s _
    cases same
    exact ⟨s, rfl⟩
  · cases same

end

namespace Moves

variable {P : String → μ → μ → Prop} {r r' : Registry μ}

theorem refl (r : Registry μ) : Moves P r r := by
  induction r with
  | nil => exact .nil
  | cons m rest ih => exact .cons (.kept m) ih

theorem trans {r'' : Registry μ} (first : Moves P r r') (second : Moves P r' r'')
    (compose : ∀ id s s' s'', P id s s' → P id s' s'' → P id s s'') : Moves P r r'' := by
  induction first generalizing r'' with
  | nil => exact second
  | cons one _ ih =>
    cases second with
    | cons two later =>
      refine .cons ?_ (ih later)
      cases one with
      | kept m => exact two
      | opened moved =>
        cases two with
        | kept m => exact .opened moved
        | opened moved' => exact .opened (compose _ _ _ _ moved moved')
      | closed s s' =>
        cases two with
        | kept m => exact .closed s s'
        | closed _ s'' => exact .closed s s''

theorem shape_eq (moves : Moves P r r') : r'.shape = r.shape := by
  induction moves with
  | nil => rfl
  | cons first _ ih =>
    rw [shape, List.map_cons, shape, List.map_cons]
    refine congrArg₂ (· :: ·) ?_ ih
    cases first <;> rfl

/-- What the moves keep holds of the states after them. -/
theorem holds {Q : String → μ → Prop} (moves : Moves P r r') (before : Holds Q r)
    (keeps : ∀ id s s', Q id s → P id s s' → Q id s') : Holds Q r' := by
  induction moves with
  | nil => exact .nil
  | cons first _ ih =>
    refine .cons (fun s here => ?_) (ih before.tail)
    cases first with
    | kept m => exact before.head here
    | opened moved =>
      cases here
      exact keeps _ _ _ (before.head rfl) moved
    | closed s s' => cases here

end Moves

end Registry

namespace Called

open Registry (Holds)

variable {op : Loaded μ → Call μ ω α} {r r' : Registry μ} {answers : List (String × α)}

theorem moves (called : Called op r answers r') {P : String → μ → μ → Prop}
    (keeps : ∀ m s a s', (op m).Takes s a s' → P m.id s s') : Registry.Moves P r r' := by
  induction called with
  | nil => exact .nil
  | opened takes _ ih => exact .cons (.opened (keeps _ _ _ _ takes)) ih
  | passed shut _ ih => exact .cons (.kept _) ih

/-- Only open modules answer. -/
theorem open_of_answer (called : Called op r answers r') {id : String}
    (there : id ∈ answers.map Prod.fst) : (id, true) ∈ r.shape := by
  induction called with
  | nil => cases there
  | opened takes _ ih =>
    rcases List.mem_cons.mp there with rfl | later
    · exact List.mem_cons_self
    · exact List.mem_cons_of_mem _ (ih later)
  | passed shut _ ih => exact List.mem_cons_of_mem _ (ih there)

/-- Calls that answer what the states tell, and leave that as it is, answer what is live. -/
theorem tells {P : String → μ → Prop} {tells : μ → α} (called : Called op r answers r')
    (before : Holds P r)
    (told : ∀ m s a s', P m.id s → (op m).Takes s a s' → a = tells s) :
    answers = r.live tells := by
  induction called with
  | nil => rfl
  | opened takes _ ih =>
    rw [Registry.live_opened, ih before.tail, told _ _ _ _ (before.head rfl) takes]
  | passed shut _ ih => rw [Registry.live_shut shut, ih before.tail]

/-- What calls leave alone is live afterwards as it was before. -/
theorem live_eq {P : String → μ → Prop} {β : Type} {tells : μ → β}
    (called : Called op r answers r') (before : Holds P r)
    (kept : ∀ m s a s', P m.id s → (op m).Takes s a s' → tells s' = tells s) :
    r'.live tells = r.live tells := by
  induction called with
  | nil => rfl
  | opened takes _ ih =>
    rw [Registry.live_opened, Registry.live_opened, ih before.tail,
      kept _ _ _ _ (before.head rfl) takes]
  | passed shut _ ih => rw [Registry.live_shut shut, Registry.live_shut shut, ih before.tail]

end Called

namespace Registry

theorem callAll_called (op : Loaded μ → Call μ ω α) (r : Registry μ) (w : ω) :
    Called op r (callAll op r w).1.1 (callAll op r w).1.2 := by
  induction r generalizing w with
  | nil => exact .nil
  | cons m rest ih =>
    obtain ⟨id, name, slot⟩ := m
    cases slot with
    | opened s =>
      exact .opened ⟨w, (op ⟨id, name, .opened s⟩ s w).2, rfl⟩
        (ih (op ⟨id, name, .opened s⟩ s w).2)
    | failed => exact .passed rfl (ih w)
    | closed s => exact .passed rfl (ih w)

theorem called_of_callAll {op : Loaded μ → Call μ ω α} {r r' : Registry μ} {w w' : ω}
    {answers : List (String × α)} (ran : callAll op r w = ((answers, r'), w')) :
    Called op r answers r' := by
  have called := callAll_called op r w
  rwa [ran] at called

theorem routesFrom_called (i : Interface μ ω η) (position : Nat) (r : Registry μ) (w : ω) :
    ∃ answers, Called (fun _ => i.routes) r answers (routesFrom i position r w).1.2 := by
  induction r generalizing position w with
  | nil => exact ⟨[], .nil⟩
  | cons m rest ih =>
    obtain ⟨id, name, slot⟩ := m
    cases slot with
    | opened s =>
      obtain ⟨answers, called⟩ := ih (position + 1) (i.routes s w).2
      exact ⟨_, .opened ⟨w, (i.routes s w).2, rfl⟩ called⟩
    | failed =>
      obtain ⟨answers, called⟩ := ih (position + 1) w
      exact ⟨answers, .passed rfl called⟩
    | closed s =>
      obtain ⟨answers, called⟩ := ih (position + 1) w
      exact ⟨answers, .passed rfl called⟩

theorem callFirst_moves (id : String) (op : Call μ ω α) {P : String → μ → μ → Prop}
    (keeps : ∀ s a s', op.Takes s a s' → P id s s') (r : Registry μ) (w : ω) :
    Moves P r (callFirst id op r w).1.2 := by
  induction r with
  | nil => exact .nil
  | cons m rest ih =>
    rw [callFirst]
    by_cases named : m.id = id
    · rw [if_pos named]
      obtain ⟨_, name, slot⟩ := m
      obtain rfl := named
      cases slot with
      | opened s =>
        exact .cons (.opened (keeps s _ _ ⟨w, (op s w).2, rfl⟩)) (Moves.refl rest)
      | failed => exact .cons (.kept _) (Moves.refl rest)
      | closed s => exact .cons (.kept _) (Moves.refl rest)
    · rw [if_neg named]
      exact .cons (.kept m) ih

theorem apply_moves (i : Interface μ ω η) (id : String) (value : Json.Value)
    {P : String → μ → μ → Prop}
    (keeps : ∀ s a s', (i.setConfig (some value)).Takes s a s' → P id s s') (r : Registry μ)
    (w : ω) : Moves P r (apply i id value r w).1.2 := by
  have moves := callFirst_moves id (i.setConfig (some value)) keeps r w
  rw [apply]
  simp only [bind, StateT.bind]
  rcases called : callFirst id (i.setConfig (some value)) r w with ⟨⟨_ | result, r'⟩, w'⟩ <;>
    rw [called] at moves <;> exact moves

theorem handle_moves (i : Interface μ ω η) (position : Nat) (x : η) (q : Http.Request)
    {P : String → μ → μ → Prop} (keeps : ∀ id s a s', (i.handle x q).Takes s a s' → P id s s')
    (r : Registry μ) (w : ω) : Moves P r (handle i position x q r w).1.2 := by
  induction r generalizing position with
  | nil => cases position <;> exact .nil
  | cons m rest ih =>
    cases position with
    | zero =>
      obtain ⟨id, name, slot⟩ := m
      cases slot with
      | opened s =>
        exact .cons (.opened (keeps id s _ _ ⟨w, (i.handle x q s w).2, rfl⟩)) (Moves.refl rest)
      | failed => exact .cons (.kept _) (Moves.refl rest)
      | closed s => exact .cons (.closed s _) (Moves.refl rest)
    | succ n => exact .cons (.kept m) (ih n)

/-- Each module is opened with its section of the store. -/
theorem load_loads (descriptors : List (Descriptor μ ω)) (store : Config.Store) (w : ω) :
    List.Forall₂ (fun d m => Loaded.Loads d (store.section? d.id) m) descriptors
      (load descriptors store w).1 := by
  induction descriptors generalizing w with
  | nil => exact .nil
  | cons d rest ih =>
    rcases ran : d.opening (store.section? d.id) w with ⟨f | s, w'⟩
    · have unfolded : (load (d :: rest) store w).1 =
          ⟨d.id, d.name, .failed⟩ :: (load rest store w').1 := by
        rw [load, List.mapM_cons]
        dsimp only [bind, StateT.bind]
        rw [ran]
        rfl
      rw [unfolded]
      exact .cons (.failed ran) (ih w')
    · have unfolded : (load (d :: rest) store w).1 =
          ⟨d.id, d.name, .opened s⟩ :: (load rest store w').1 := by
        rw [load, List.mapM_cons]
        dsimp only [bind, StateT.bind]
        rw [ran]
        rfl
      rw [unfolded]
      exact .cons (.opened ran) (ih w')

end Registry

end Jukebox.Module
