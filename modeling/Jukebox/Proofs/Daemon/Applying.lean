import Jukebox.Proofs.Daemon.Parting
/-!
# Applying sections

A body of sections is applied key by key. `Core.Applied` says what comes of it without following
that order: each open module that is named is given its section as if it were the only one, and
everything else stays. It holds when modules are independent of each other (`Conduct.Independent`),
and it depends on a body only through what is found in it under each key, so the order of keys and
the rest of the body do not matter.
-/
namespace Jukebox.Module

variable {μ ω η α : Type}

/-- The module after it was given its section of a body. -/
def Loaded.given (i : Interface μ ω η) (body : Json.Members) (w : ω) (m : Loaded μ) : Loaded μ :=
  match m.slot, body.find? m.id with
  | .opened s, some v => { m with slot := .opened (i.setConfig (some v) s w).1.2 }
  | _, _ => m

namespace Loaded

variable {i : Interface μ ω η} {body : Json.Members} {w : ω} {m : Loaded μ}

theorem given_of_named {s : μ} {v : Json.Value} (here : m.slot = .opened s)
    (named : body.find? m.id = some v) :
    m.given i body w = { m with slot := .opened (i.setConfig (some v) s w).1.2 } := by
  simp [given, here, named]

theorem given_of_unnamed (unnamed : body.find? m.id = none) : m.given i body w = m := by
  unfold given
  split
  · rename_i named
    simp [unnamed] at named
  · rfl

theorem given_of_shut (shut : m.isOpen = false) : m.given i body w = m := by
  obtain ⟨id, name, slot⟩ := m
  cases slot with
  | opened s => cases shut
  | failed => rfl
  | closed s => rfl

/-- Only what is found in the body under its id matters to a module. -/
theorem given_congr {body' : Json.Members} (found : body.find? m.id = body'.find? m.id) :
    m.given i body w = m.given i body' w := by
  rw [given, found, given]

@[simp] theorem given_id : (m.given i body w).id = m.id := by
  unfold given
  split <;> rfl

@[simp] theorem given_isOpen : (m.given i body w).isOpen = m.isOpen := by
  unfold given
  split
  · rename_i s v here _
    simp [isOpen, here]
  · rfl

theorem exists_of_isOpen (running : m.isOpen = true) : ∃ s, m.slot = .opened s := by
  obtain ⟨id, name, slot⟩ := m
  cases slot with
  | opened s => exact ⟨s, rfl⟩
  | failed => cases running
  | closed s => cases running

end Loaded

namespace Registry

variable {id : String} {r : Registry μ}

theorem live_append (tells : μ → α) (before after : Registry μ) :
    live tells (before ++ after) = live tells before ++ live tells after :=
  List.filterMap_append

/-- A call to a module that is not open does not take place. -/
theorem callFirst_of_shut (op : Call μ ω α) (shut : r.isOpen id = false) (w : ω) :
    callFirst id op r w = ((none, r), w) := by
  induction r with
  | nil => rfl
  | cons m rest ih =>
    by_cases named : m.id = id
    · have here : m.isOpen = false := by simpa [isOpen, named] using shut
      obtain ⟨_, name, slot⟩ := m
      obtain rfl := named
      rw [callFirst, if_pos rfl]
      cases slot with
      | opened s => cases here
      | failed => rfl
      | closed s => rfl
    · have others : isOpen rest id = false := by simpa [isOpen, named] using shut
      rw [callFirst, if_neg named]
      simp only [bind, StateT.bind]
      rw [ih others]
      rfl

/-- A call to a module that is open moves its state and leaves the others alone. -/
theorem callFirst_of_open (op : Call μ ω α) (running : r.isOpen id = true) :
    ∃ before name s after, r = before ++ ⟨id, name, .opened s⟩ :: after ∧ ∀ w,
      callFirst id op r w = ((some (op s w).1.1,
        before ++ ⟨id, name, .opened (op s w).1.2⟩ :: after), (op s w).2) := by
  induction r with
  | nil => cases running
  | cons m rest ih =>
    by_cases named : m.id = id
    · have here : m.isOpen = true := by simpa [isOpen, named] using running
      obtain ⟨_, name, slot⟩ := m
      obtain rfl := named
      cases slot with
      | opened s =>
        refine ⟨[], name, s, rest, rfl, fun w => ?_⟩
        rw [callFirst, if_pos rfl]
        rfl
      | failed => cases here
      | closed s => cases here
    · have others : isOpen rest id = true := by simpa [isOpen, named] using running
      obtain ⟨before, name, s, after, whole, called⟩ := ih others
      refine ⟨m :: before, name, s, after, by rw [whole]; rfl, fun w => ?_⟩
      rw [callFirst, if_neg named]
      simp only [bind, StateT.bind]
      rw [called]
      rfl

/-- Whether a module is open is a matter of the shape. -/
theorem isOpen_of_shape {r' : Registry μ} (same : r'.shape = r.shape) (id : String) :
    r'.isOpen id = r.isOpen id := by
  induction r generalizing r' with
  | nil =>
    obtain rfl := List.map_eq_nil_iff.mp same
    rfl
  | cons m rest ih =>
    cases r' with
    | nil => cases same
    | cons m' rest' =>
      obtain ⟨head, tail⟩ := List.cons.inj same
      obtain ⟨same_id, same_open⟩ := Prod.mk.inj head
      have others := ih tail
      by_cases named : m.id = id
      · simp [isOpen, named, same_id, same_open]
      · simpa [isOpen, named, same_id] using others

/-- Of modules with different ids, one that is open is found to be. -/
theorem isOpen_of_mem (distinct : (r.map (·.id)).Nodup) {m : Loaded μ} (there : m ∈ r) :
    r.isOpen m.id = m.isOpen := by
  induction r with
  | nil => cases there
  | cons first rest ih =>
    obtain ⟨absent, others⟩ := List.nodup_cons.mp distinct
    rcases List.mem_cons.mp there with rfl | later
    · simp [isOpen]
    · have apart : first.id ≠ m.id := by
        intro same
        exact absent (List.mem_map.mpr ⟨m, later, same.symm⟩)
      rw [← ih others later]
      simp [isOpen, apart]

end Registry

end Jukebox.Module

namespace Jukebox.Daemon

open Config (Httpd Store)
open Storage (FileSystem)
open Jukebox.Module (Call Called Descriptor Interface Loaded Registry)

variable {μ ω η : Type} {modules : Surroundings μ ω η}
  {descriptors : FileSystem → List (Descriptor μ ω)} {alike : String → ω → ω → Prop}
  {c c₁ c₂ : Core μ ω} {body : Json.Members}

/-- Modules that keep their configuration when they are given what they told. -/
def Conduct.Steady (conduct : Conduct modules descriptors) : Prop :=
  ∀ {fs id s v r s'}, conduct.Valid id s → conduct.config s = some v →
    ((modules fs).setConfig (some v)).Takes s r s' → conduct.config s' = some v

/-- Modules that are independent of each other: worlds may be alike to a module although they are
not the same, it takes a section alike in all of those, and the worlds before and after are alike to
every other module. -/
structure Conduct.Independent (conduct : Conduct modules descriptors)
    (alike : String → ω → ω → Prop) : Prop where
  equivalence : ∀ id, Equivalence (alike id)
  own : ∀ {fs id value s w w'}, conduct.Valid id s → alike id w w' →
    ((modules fs).setConfig value s w).1 = ((modules fs).setConfig value s w').1 ∧
      alike id ((modules fs).setConfig value s w).2 ((modules fs).setConfig value s w').2
  others : ∀ {fs id other value s w}, conduct.Valid id s → other ≠ id →
    alike other ((modules fs).setConfig value s w).2 w

structure Core.Same (alike : String → ω → ω → Prop) (c c' : Core μ ω) : Prop where
  registry : c.registry = c'.registry
  httpd : c.httpd = c'.httpd
  store : c.store = c'.store
  files : c.files = c'.files
  world : ∀ id, alike id c.world c'.world

/-- Every owner that a body names was given its section, and nothing else happened. -/
structure Core.Applied (modules : Surroundings μ ω η) (alike : String → ω → ω → Prop)
    (body : Json.Members) (c c' : Core μ ω) : Prop where
  registry : c'.registry = c.registry.map (·.given (modules c.files) body c.world)
  httpd : c'.httpd = ((body.find? Httpd.key).map fun v => Httpd.ofSection (some v)).getD c.httpd
  store : c'.store = c.store
  files : c'.files = c.files
  unnamed : ∀ id, (∀ m ∈ c.registry, m.id = id → m.isOpen = true → body.find? id = none) →
    alike id c'.world c.world
  named : ∀ m ∈ c.registry, ∀ s v, m.slot = .opened s → body.find? m.id = some v →
    alike m.id c'.world ((modules c.files).setConfig (some v) s c.world).2

namespace Core

variable (modules) (c)

theorem applySection_own (v : Json.Value) :
    (applySection modules Httpd.key v c).2 = { c with httpd := .ofSection (some v) } := rfl

/-- A key that no open module has does nothing. -/
theorem applySection_shut {key : String} (foreign : key ≠ Httpd.key)
    (shut : c.registry.isOpen key = false) (v : Json.Value) :
    (applySection modules key v c).2 = c := by
  have called := Registry.callFirst_of_shut ((modules c.files).setConfig (some v)) shut c.world
  rw [applySection, if_neg foreign]
  simp only [bind, StateT.bind, onRegistry, Registry.apply]
  rw [called]
  rfl

/-- A key that an open module has gives it the section, whatever it says to that. -/
theorem applySection_open {key : String} (foreign : key ≠ Httpd.key)
    (running : c.registry.isOpen key = true) (v : Json.Value) :
    ∃ before name s after, c.registry = before ++ ⟨key, name, .opened s⟩ :: after ∧
      (applySection modules key v c).2 =
        { c with
          registry := before ++
            ⟨key, name, .opened ((modules c.files).setConfig (some v) s c.world).1.2⟩ :: after
          world := ((modules c.files).setConfig (some v) s c.world).2 } := by
  obtain ⟨before, name, s, after, whole, called⟩ :=
    Registry.callFirst_of_open ((modules c.files).setConfig (some v)) running
  refine ⟨before, name, s, after, whole, ?_⟩
  rw [applySection, if_neg foreign]
  simp only [bind, StateT.bind, onRegistry, Registry.apply]
  rw [called]
  rfl

/-- Without a choice, the sections of a body are applied one after the other. -/
theorem apply_eq_foldl (body : Json.Members) :
    (apply modules "" body c).2 =
      body.foldl (fun c m => (applySection modules m.1 m.2 c).2) c := by
  induction body generalizing c with
  | nil => rfl
  | cons m rest ih =>
    rw [apply_cons, ih]
    simp [selects]

theorem apply_one (m : String × Json.Value) :
    (apply modules "" [m] c).2 = (applySection modules m.1 m.2 c).2 := by
  rw [apply_eq_foldl]
  rfl

/-- Applying a body for one resource is applying its section of that key. -/
theorem apply_filter {resource : String} (chosen : resource ≠ "") (body : Json.Members) :
    apply modules resource body c = apply modules "" (body.filter fun m => m.1 = resource) c := by
  refine Prod.ext rfl ?_
  induction body generalizing c with
  | nil => rfl
  | cons m rest ih =>
    rw [apply_cons]
    by_cases here : m.1 = resource
    · rw [List.filter_cons_of_pos (by simp [here]), apply_cons, ih]
      simp [selects, chosen, here]
    · rw [List.filter_cons_of_neg (by simp [here]), ih]
      simp [selects, chosen, Ne.symm here]

/-- Keys that name no open module make no difference. -/
theorem apply_open (body : Json.Members) :
    (apply modules "" body c).2 = (apply modules ""
      (body.filter fun m => m.1 = Httpd.key ∨ c.registry.isOpen m.1 = true) c).2 := by
  rw [apply_eq_foldl, apply_eq_foldl]
  induction body generalizing c with
  | nil => rfl
  | cons m rest ih =>
    obtain ⟨key, v⟩ := m
    have moves : (Conduct.unknown modules).Moves c.registry
        (applySection modules key v c).2.registry := Conduct.applySection_moves key v c
    have shape := Registry.Moves.shape_eq moves
    rw [List.foldl_cons, ih]
    simp only [Registry.isOpen_of_shape shape]
    by_cases owned : key = Httpd.key ∨ c.registry.isOpen key = true
    · rw [List.filter_cons_of_pos (by simpa using owned), List.foldl_cons]
    · obtain ⟨foreign, shut⟩ := not_or.mp owned
      rw [List.filter_cons_of_neg (by simpa using owned),
        applySection_shut modules c foreign ((Bool.not_eq_true _).mp shut)]

/-- A snapshot for one resource is its section of the whole. -/
theorem snapshot_filter {resource : String} (chosen : resource ≠ "") :
    snapshot modules resource c = ((snapshot modules "" c).1.filter fun m => m.1 = resource,
      (snapshot modules "" c).2) := by
  obtain ⟨answers, r, w, ran, some_of⟩ := snapshot_effect modules c resource
  obtain ⟨answers', r', w', ran', all_of⟩ := snapshot_effect modules c ""
  obtain ⟨⟨rfl, rfl⟩, rfl⟩ := Prod.mk.inj (ran.symm.trans ran') |>.imp_left Prod.mk.inj
  rw [some_of, all_of]
  refine Prod.ext ?_ rfl
  have collected (pairs : List (String × Json.Value)) :
      (Json.Members.ofList pairs).filter (fun m => decide (m.1 = resource)) =
        Json.Members.ofList (pairs.filter fun m => decide (m.1 = resource)) :=
    (Json.Members.ofList_filter (fun key => decide (key = resource)) pairs).symm
  have every (key : String) : selects "" key = true := by simp [selects]
  have only (key : String) : selects resource key = decide (key = resource) := by
    simp [selects, chosen, eq_comm]
  simp only [every, only, if_true, List.filter_true, List.singleton_append]
  rw [collected, List.filter_cons]
  split <;> rfl

end Core

namespace Core.Applied

variable {conduct : Conduct modules descriptors}

theorem nothing (independent : conduct.Independent alike) (c : Core μ ω) :
    Applied modules alike [] c c where
  registry := by
    have kept (m : Loaded μ) : m.given (modules c.files) [] c.world = m :=
      Loaded.given_of_unnamed rfl
    simp [kept]
  httpd := rfl
  store := rfl
  files := rfl
  unnamed id _ := (independent.equivalence id).refl _
  named := by
    intro m there s v here named
    cases named

section

variable {key : String} {v : Json.Value}

theorem find?_only {id : String} (apart : id ≠ key) :
    Json.Members.find? id [(key, v)] = none := by
  simp [Json.Members.find?, apart.symm]

theorem find?_itself : Json.Members.find? key [(key, v)] = some v := by
  simp [Json.Members.find?]

/-- A key that no open module has moves no module. -/
theorem of_unowned (independent : conduct.Independent alike)
    (never : ∀ m ∈ c.registry, m.isOpen = true → m.id ≠ key) {httpd : Httpd}
    (told : httpd =
      ((Json.Members.find? Httpd.key [(key, v)]).map fun v => .ofSection (some v)).getD c.httpd) :
    Applied modules alike [(key, v)] c { c with httpd } where
  registry := by
    have kept : ∀ m ∈ c.registry, m.given (modules c.files) [(key, v)] c.world = m := by
      intro m there
      by_cases running : m.isOpen = true
      · exact Loaded.given_of_unnamed (find?_only (never m there running))
      · exact Loaded.given_of_shut ((Bool.not_eq_true _).mp running)
    rw [List.map_congr_left kept]
    exact (List.map_id _).symm
  httpd := told
  store := rfl
  files := rfl
  unnamed id _ := (independent.equivalence id).refl _
  named := by
    intro m there s v' here named
    rw [find?_only (never m there (by simp [Loaded.isOpen, here]))] at named
    cases named

/-- A key that one open module has moves that module only. -/
theorem of_owner (independent : conduct.Independent alike) (sound : conduct.Sound c)
    (distinct : (c.registry.map (·.id)).Nodup) (foreign : key ≠ Httpd.key)
    (running : c.registry.isOpen key = true) :
    Applied modules alike [(key, v)] c (applySection modules key v c).2 := by
  have itself : Json.Members.find? key [(key, v)] = some v := find?_itself
  obtain ⟨before, name, s, after, whole, applied⟩ := applySection_open modules c foreign running v
  have apart : ∀ m ∈ before ++ after, m.id ≠ key := by
    rw [whole, List.map_append, List.map_cons] at distinct
    have alone := (List.nodup_cons.mp (List.nodup_middle.mp distinct)).1
    rintro m there rfl
    rw [← List.map_append] at alone
    exact alone (List.mem_map.mpr ⟨m, there, rfl⟩)
  have valid : conduct.Valid key s := sound ⟨key, name, .opened s⟩ (by simp [whole]) s rfl
  have kept : ∀ m ∈ before ++ after, m.given (modules c.files) [(key, v)] c.world = m :=
    fun m there => Loaded.given_of_unnamed (find?_only (apart m there))
  rw [applied]
  constructor
  · rw [whole, List.map_append, List.map_cons,
      List.map_congr_left fun m there => kept m (List.mem_append_left _ there),
      List.map_congr_left fun m there => kept m (List.mem_append_right _ there),
      Loaded.given_of_named rfl itself]
    simp
  · simp [find?_only (Ne.symm foreign)]
  · rfl
  · rfl
  · intro id unnamed
    by_cases here : id = key
    · have absent := unnamed ⟨key, name, .opened s⟩ (by simp [whole]) here.symm rfl
      rw [here, itself] at absent
      cases absent
    · exact independent.others valid here
  · intro m there s' v' here named
    have owner : m = ⟨key, name, .opened s⟩ := by
      by_contra other
      have elsewhere : m ∈ before ++ after := by
        rw [whole] at there
        simpa [other] using there
      rw [find?_only (apart m elsewhere)] at named
      cases named
    subst owner
    cases here
    obtain rfl : v = v' := Option.some.inj (itself.symm.trans named)
    exact (independent.equivalence key).refl _

end

/-- Applying one section does to its owner what the section says. -/
theorem one (independent : conduct.Independent alike) (sound : conduct.Sound c)
    (distinct : (c.registry.map (·.id)).Nodup) (foreign : Httpd.key ∉ c.registry.map (·.id))
    (key : String) (v : Json.Value) :
    Applied modules alike [(key, v)] c (applySection modules key v c).2 := by
  by_cases own : key = Httpd.key
  · subst own
    rw [applySection_own]
    refine of_unowned independent ?_ (by simp [find?_itself])
    rintro m there - same
    exact foreign (same ▸ List.mem_map_of_mem there)
  by_cases running : c.registry.isOpen key = true
  · exact of_owner independent sound distinct own running
  · have shut : c.registry.isOpen key = false := (Bool.not_eq_true _).mp running
    rw [applySection_shut modules c own shut]
    refine of_unowned independent ?_ (by simp [find?_only (Ne.symm own)])
    rintro m there opened rfl
    rw [Registry.isOpen_of_mem distinct there, opened] at shut
    cases shut

/-- An owner that is not named is left alone. -/
theorem kept (applied : Applied modules alike body c c₁) {m : Loaded μ} (there : m ∈ c.registry)
    (unnamed : body.find? m.id = none) : m ∈ c₁.registry := by
  rw [applied.registry]
  exact List.mem_map.mpr ⟨m, there, Loaded.given_of_unnamed unnamed⟩

/-- A module that is given its section of one body and then that of another one, of which only one
names it, is given its section of both. -/
theorem given_given {later : Json.Members} (independent : conduct.Independent alike)
    (sound : conduct.Sound c) (first : Applied modules alike body c c₁)
    (apart : ∀ key, body.find? key = none ∨ later.find? key = none) {m : Loaded μ}
    (there : m ∈ c.registry) :
    (m.given (modules c.files) body c.world).given (modules c.files) later c₁.world =
      m.given (modules c.files) (body ++ later) c.world := by
  by_cases running : m.isOpen = true
  · obtain ⟨s, here⟩ := Loaded.exists_of_isOpen running
    have valid := sound m there s here
    cases named : body.find? m.id with
    | some v =>
      have unnamed := (apart m.id).resolve_left (by simp [named])
      rw [Loaded.given_of_unnamed (by simp [unnamed]),
        Loaded.given_of_named here named, Loaded.given_of_named here]
      simp [Json.Members.find?_append, named]
    | none =>
      rw [Loaded.given_of_unnamed named]
      cases named' : later.find? m.id with
      | none =>
        rw [Loaded.given_of_unnamed named', Loaded.given_of_unnamed]
        simp [Json.Members.find?_append, named, named']
      | some v =>
        have both : (body ++ later).find? m.id = some v := by
          simp [Json.Members.find?_append, named, named']
        have same_world := first.unnamed m.id fun _ _ _ _ => named
        rw [Loaded.given_of_named here named', Loaded.given_of_named here both,
          (independent.own valid same_world).1]
  · have shut := (Bool.not_eq_true _).mp running
    rw [Loaded.given_of_shut shut, Loaded.given_of_shut shut, Loaded.given_of_shut shut]

/-- Two bodies without a common key, applied one after the other, are one body. -/
theorem trans {later : Json.Members} (independent : conduct.Independent alike)
    (sound : conduct.Sound c) (first : Applied modules alike body c c₁)
    (second : Applied modules alike later c₁ c₂)
    (apart : ∀ key, body.find? key = none ∨ later.find? key = none) :
    Applied modules alike (body ++ later) c c₂ := by
  have equivalence := independent.equivalence
  have files := first.files
  constructor
  · rw [second.registry, first.registry, List.map_map]
    apply List.map_congr_left
    intro m there
    rw [Function.comp_apply, files]
    exact given_given independent sound first apart there
  · rw [second.httpd, first.httpd, Json.Members.find?_append]
    cases named : body.find? Httpd.key with
    | none => simp
    | some v =>
      have unnamed := (apart Httpd.key).resolve_left (by simp [named])
      simp [unnamed]
  · exact second.store.trans first.store
  · exact second.files.trans files
  · intro id unnamed
    apply (equivalence id).trans
    · apply second.unnamed
      intro m there named running
      rw [first.registry] at there
      obtain ⟨m', there', rfl⟩ := List.mem_map.mp there
      rw [Loaded.given_id] at named
      rw [Loaded.given_isOpen] at running
      have absent := unnamed m' there' named running
      rw [Json.Members.find?_append] at absent
      exact (Option.or_eq_none_iff.mp absent).2
    · apply first.unnamed
      intro m there named running
      have absent := unnamed m there named running
      rw [Json.Members.find?_append] at absent
      exact (Option.or_eq_none_iff.mp absent).1
  · intro m there s v here named
    have valid := sound m there s here
    cases named₁ : body.find? m.id with
    | some v₁ =>
      have unnamed := (apart m.id).resolve_left (by simp [named₁])
      obtain rfl : v₁ = v := by simpa [Json.Members.find?_append, named₁] using named
      apply (equivalence m.id).trans
      · exact second.unnamed m.id fun _ _ _ _ => unnamed
      · exact first.named m there s v₁ here named₁
    | none =>
      have named₂ : later.find? m.id = some v := by
        simpa [Json.Members.find?_append, named₁] using named
      have same_world := first.unnamed m.id fun _ _ _ _ => named₁
      have given := second.named m (first.kept there named₁) s v here named₂
      rw [files] at given
      exact (equivalence m.id).trans given (independent.own valid same_world).2

/-- An owner that is named gets to the state in which its section alone would leave it, whatever
becomes of other sections. -/
theorem reached (applied : Applied modules alike body c c₁) {m : Loaded μ} (there : m ∈ c.registry)
    {s : μ} {v : Json.Value} (here : m.slot = .opened s) (named : body.find? m.id = some v) :
    { m with slot := .opened ((modules c.files).setConfig (some v) s c.world).1.2 } ∈
      c₁.registry := by
  rw [applied.registry]
  exact List.mem_map.mpr ⟨m, there, Loaded.given_of_named here named⟩

theorem ids_eq (applied : Applied modules alike body c c₁) :
    c₁.registry.map (·.id) = c.registry.map (·.id) := by
  rw [applied.registry, List.map_map]
  apply List.map_congr_left
  intro m _
  simp

/-- Bodies in which the same is found have the same effect. -/
theorem same {body' : Json.Members} (independent : conduct.Independent alike)
    (first : Applied modules alike body c c₁) (second : Applied modules alike body' c c₂)
    (found : ∀ key, body.find? key = body'.find? key) : Same alike c₁ c₂ := by
  have equivalence := independent.equivalence
  constructor
  · rw [first.registry, second.registry]
    exact List.map_congr_left fun m _ => Loaded.given_congr (found m.id)
  · rw [first.httpd, second.httpd, found]
  · exact first.store.trans second.store.symm
  · exact first.files.trans second.files.symm
  · intro id
    by_cases named : ∃ m ∈ c.registry, m.id = id ∧ m.isOpen = true ∧ body.find? id ≠ none
    · obtain ⟨m, there, rfl, running, some_section⟩ := named
      obtain ⟨s, here⟩ := Loaded.exists_of_isOpen running
      obtain ⟨v, named⟩ := Option.ne_none_iff_exists'.mp some_section
      apply (equivalence m.id).trans
      · exact first.named m there s v here named
      · exact (equivalence m.id).symm (second.named m there s v here (found m.id ▸ named))
    · have unnamed : ∀ m ∈ c.registry, m.id = id → m.isOpen = true → body.find? id = none := by
        intro m there same running
        by_contra some_section
        exact named ⟨m, there, same, running, some_section⟩
      apply (equivalence id).trans
      · exact first.unnamed id unnamed
      · exact (equivalence id).symm (second.unnamed id (found id ▸ unnamed))

/-- Applying a body has that effect, if no key is listed twice. -/
theorem of_apply (independent : conduct.Independent alike) (sound : conduct.Sound c)
    (distinct : (c.registry.map (·.id)).Nodup) (foreign : Httpd.key ∉ c.registry.map (·.id))
    (keys : (body.map Prod.fst).Nodup) :
    Applied modules alike body c (apply modules "" body c).2 := by
  rw [apply_eq_foldl]
  induction body generalizing c with
  | nil => exact nothing independent c
  | cons m rest ih =>
    obtain ⟨key, v⟩ := m
    obtain ⟨absent, others⟩ := List.nodup_cons.mp keys
    have first := one independent sound distinct foreign key v
    have sound₁ : conduct.Sound (applySection modules key v c).2 :=
      (Conduct.applySection_moves key v c).sound sound
    have second := ih sound₁ (first.ids_eq ▸ distinct) (first.ids_eq ▸ foreign) others
    refine trans independent sound first second fun k => ?_
    by_cases here : k = key
    · right
      apply Json.Members.find?_eq_none
      rintro m there same
      exact absent (List.mem_map.mpr ⟨m, there, same.trans here⟩)
    · left
      simp [Json.Members.find?, Ne.symm here]

end Core.Applied

section Telling

variable {conduct : Conduct modules descriptors}

/-- A section that its owner told is taken back by it. -/
theorem Core.applySection_told (steady : conduct.Steady) (sound : conduct.Sound c) {key : String}
    {v : Json.Value} (own : key = Httpd.key → Httpd.ofSection (some v) = c.httpd)
    (told : ∀ value, (key, value) ∈ c.registry.live conduct.config → value = some v) :
    (applySection modules key v c).2.registry.live conduct.config =
        c.registry.live conduct.config ∧
      (applySection modules key v c).2.httpd = c.httpd := by
  by_cases here : key = Httpd.key
  · subst here
    rw [applySection_own]
    exact ⟨rfl, own rfl⟩
  by_cases running : c.registry.isOpen key = true
  · obtain ⟨before, name, s, after, whole, applied⟩ := applySection_open modules c here running v
    have valid : conduct.Valid key s := sound ⟨key, name, .opened s⟩ (by simp [whole]) s rfl
    have present : (key, conduct.config s) ∈ c.registry.live conduct.config := by
      rw [whole, Registry.live_append, Registry.live_opened]
      exact List.mem_append_right _ List.mem_cons_self
    have tells := told _ present
    have kept : conduct.config ((modules c.files).setConfig (some v) s c.world).1.2 = some v :=
      steady valid tells ⟨c.world, _, rfl⟩
    rw [applied, whole]
    refine ⟨?_, rfl⟩
    rw [Registry.live_append, Registry.live_append, Registry.live_opened, Registry.live_opened,
      kept, tells]
  · rw [applySection_shut modules c here ((Bool.not_eq_true _).mp running)]
    exact ⟨rfl, rfl⟩

/-- So are all sections of a body in which owners find what they told. -/
theorem Core.apply_told (steady : conduct.Steady) (sound : conduct.Sound c)
    (told : ∀ m ∈ body, (m.1 = Httpd.key → Httpd.ofSection (some m.2) = c.httpd) ∧
      ∀ value, (m.1, value) ∈ c.registry.live conduct.config → value = some m.2) :
    (apply modules "" body c).2.registry.live conduct.config = c.registry.live conduct.config ∧
      (apply modules "" body c).2.httpd = c.httpd := by
  rw [apply_eq_foldl]
  induction body generalizing c with
  | nil => exact ⟨rfl, rfl⟩
  | cons m rest ih =>
    obtain ⟨own, value⟩ := told m List.mem_cons_self
    obtain ⟨live, httpd⟩ := applySection_told steady sound own value
    have sound₁ : conduct.Sound (applySection modules m.1 m.2 c).2 :=
      (Conduct.applySection_moves m.1 m.2 c).sound sound
    obtain ⟨live', httpd'⟩ := ih sound₁ fun m' there => by
      rw [live, httpd]
      exact told m' (List.mem_cons_of_mem m there)
    exact ⟨live'.trans live, httpd'.trans httpd⟩

theorem Conduct.told_congr
    (live : c₁.registry.live conduct.config = c.registry.live conduct.config)
    (httpd : c₁.httpd = c.httpd) : conduct.told c₁ = conduct.told c := by
  rw [told, told, live, httpd]

/-- Owners that have no section are left out; the others keep their order. -/
theorem telling_ids (answers : List (String × Option Json.Value)) :
    ((answers.filterMap fun (id, v) => v.map fun v => (id, v)).map Prod.fst).Sublist
      (answers.map Prod.fst) := by
  induction answers with
  | nil => exact .slnil
  | cons answer rest ih =>
    obtain ⟨id, _ | v⟩ := answer
    · exact ih.cons id
    · exact ih.cons_cons id

/-- Owners with ids of their own tell sections under different keys. -/
theorem Conduct.telling_keys (distinct : (c.registry.map (·.id)).Nodup)
    (foreign : Httpd.key ∉ c.registry.map (·.id)) :
    (((Httpd.key, c.httpd.toSection) ::
      (c.registry.live conduct.config).filterMap fun (id, v) => v.map fun v => (id, v)).map
        Prod.fst).Nodup := by
  have among := (telling_ids (c.registry.live conduct.config)).trans (conduct.live_ids c.registry)
  exact List.nodup_cons.mpr ⟨fun present => foreign (among.subset present), among.nodup distinct⟩

/-- What is found in the live configuration is what the owners told. -/
theorem Conduct.mem_told (distinct : (c.registry.map (·.id)).Nodup)
    (foreign : Httpd.key ∉ c.registry.map (·.id)) {m : String × Json.Value}
    (there : m ∈ conduct.told c) :
    (m.1 = Httpd.key → Httpd.ofSection (some m.2) = c.httpd) ∧
      ∀ value, (m.1, value) ∈ c.registry.live conduct.config → value = some m.2 := by
  have among := conduct.live_ids c.registry
  have live_distinct := among.nodup distinct
  have live_foreign : Httpd.key ∉ (c.registry.live conduct.config).map Prod.fst :=
    fun present => foreign (among.subset present)
  have found := Json.Members.find?_of_mem (Json.Members.ofList_sorted _) there
  rw [Json.Members.find?_ofList (telling_keys distinct foreign)] at found
  have listed : m ∈ _ := Json.Members.mem_of_find? found
  rcases List.mem_cons.mp listed with rfl | later
  · refine ⟨fun _ => httpd_restored c.httpd, fun value present => ?_⟩
    exact absurd (List.mem_map_of_mem present) live_foreign
  · obtain ⟨⟨id, value⟩, present, same⟩ := List.mem_filterMap.mp later
    obtain ⟨v, rfl, rfl⟩ := Option.map_eq_some_iff.mp same
    constructor
    · rintro rfl
      exact absurd (List.mem_map_of_mem present) live_foreign
    · intro value' present'
      have one := List.inj_on_of_nodup_map live_distinct present' present rfl
      exact (Prod.mk.inj one).2

/-- Applying the live configuration changes nothing about it. -/
theorem Conduct.apply_snapshot (steady : conduct.Steady) (sound : conduct.Sound c)
    (distinct : (c.registry.map (·.id)).Nodup) (foreign : Httpd.key ∉ c.registry.map (·.id)) :
    (Core.snapshot modules "" (Core.apply modules "" (Core.snapshot modules "" c).1
        (Core.snapshot modules "" c).2).2).1 = (Core.snapshot modules "" c).1 := by
  have sound₁ : conduct.Sound (Core.snapshot modules "" c).2 :=
    Event.sound conduct (.snapshot "") c sound
  have ids : (Core.snapshot modules "" c).2.registry.map (·.id) = c.registry.map (·.id) :=
    Event.ids_eq (.snapshot "") conduct c
  have told_after : conduct.told (Core.snapshot modules "" c).2 = conduct.told c := by
    obtain ⟨answers, r, w, ran, after⟩ := Core.snapshot_effect modules c ""
    rw [after]
    exact told_congr (get_live (Registry.called_of_callAll ran) sound).2 rfl
  have sound₂ : conduct.Sound (Core.apply modules "" (Core.snapshot modules "" c).1
      (Core.snapshot modules "" c).2).2 := Event.sound conduct (.apply "" _) _ sound₁
  have told (m : String × Json.Value) (there : m ∈ (Core.snapshot modules "" c).1) := by
    rw [snapshot_told conduct sound, ← told_after] at there
    exact mem_told (ids ▸ distinct) (ids ▸ foreign) there
  obtain ⟨live, httpd⟩ := Core.apply_told steady sound₁ told
  calc (Core.snapshot modules "" (Core.apply modules "" (Core.snapshot modules "" c).1
        (Core.snapshot modules "" c).2).2).1
      = conduct.told (Core.apply modules "" (Core.snapshot modules "" c).1
          (Core.snapshot modules "" c).2).2 := snapshot_told conduct sound₂
    _ = conduct.told (Core.snapshot modules "" c).2 := told_congr live httpd
    _ = conduct.told c := told_after
    _ = (Core.snapshot modules "" c).1 := (snapshot_told conduct sound).symm

end Telling

section Player

/-- Modules that take back what they told keep it when they are given it. -/
theorem Conduct.Lawful.steady {conduct : Conduct modules descriptors} (lawful : conduct.Lawful) :
    conduct.Steady := by
  intro fs id s v r s' valid tells takes
  rw [← tells] at takes
  rw [lawful.restored valid valid takes, tells]

/-- Players leave the world alone when they are given a section. -/
theorem players_independent {υ : Type} {h : FileSystem → Playback.Host υ}
    {descriptors : FileSystem → List (Descriptor Playback.Player (υ × List Playback.Call))}
    (conduct : Conduct (Playback.Service.modules h) descriptors) :
    conduct.Independent fun _ => Eq where
  equivalence _ := eq_equivalence
  own := by
    rintro fs id value s w w' - rfl
    exact ⟨rfl, rfl⟩
  others := by
    intro fs id other value s w _ _
    rfl

end Player

/-- The laws of reading and applying the configuration, for independent modules with ids of their
own. Applying what was read changes nothing about it. A resource chooses one section, of what is
read and of what is applied. Sections may be applied one by one in any order. Keys that name no open
module do nothing; an owner that is not named is left alone, and one that is named is given its
section as if it were the only one, whatever other owners say to theirs. Neither the document nor a
file is touched. The player is such a module. -/
theorem Reachable.config_laws {conduct : Conduct modules descriptors} {ids : List String}
    (reachable : Reachable conduct c) (known : ∀ fs, (descriptors fs).map (·.id) = ids)
    (distinct : ids.Nodup) (foreign : Httpd.key ∉ ids) (steady : conduct.Steady)
    (independent : conduct.Independent alike) (keys : (body.map Prod.fst).Nodup) :
    (Core.snapshot modules "" (Core.apply modules "" (Core.snapshot modules "" c).1
        (Core.snapshot modules "" c).2).2).1 = (Core.snapshot modules "" c).1 ∧
    (∀ resource, resource ≠ "" →
      Core.apply modules resource body c =
        Core.apply modules "" (body.filter fun m => m.1 = resource) c ∧
      Core.snapshot modules resource c =
        ((Core.snapshot modules "" c).1.filter fun m => m.1 = resource,
          (Core.snapshot modules "" c).2)) ∧
    (∀ order : Json.Members, order.Perm body →
      Core.Same alike (order.foldl (fun c m => (Core.apply modules "" [m] c).2) c)
        (Core.apply modules "" body c).2) ∧
    (Core.apply modules "" body c).2 = (Core.apply modules ""
      (body.filter fun m => m.1 = Httpd.key ∨ c.registry.isOpen m.1 = true) c).2 ∧
    (body.find? Httpd.key = none → (Core.apply modules "" body c).2.httpd = c.httpd) ∧
    (∀ m ∈ c.registry, body.find? m.id = none →
      m ∈ (Core.apply modules "" body c).2.registry) ∧
    (∀ m ∈ c.registry, ∀ s v, m.slot = .opened s → body.find? m.id = some v →
      { m with slot := .opened ((modules c.files).setConfig (some v) s c.world).1.2 } ∈
        (Core.apply modules "" body c).2.registry) ∧
    Core.Applied modules alike body c (Core.apply modules "" body c).2 ∧
    (∀ resource,
      (Core.apply modules resource body c).2.store = c.store ∧
      (Core.apply modules resource body c).2.files = c.files ∧
      (Core.snapshot modules resource c).2.store = c.store ∧
      (Core.snapshot modules resource c).2.files = c.files) ∧
    ∀ {υ : Type} (h : FileSystem → Playback.Host υ),
      (Playback.Service.conduct h).Steady ∧
        (Playback.Service.conduct h).Independent fun _ => Eq := by
  have sound := reachable.sound
  have ids_eq := reachable.ids_eq known
  have distinct' : (c.registry.map (·.id)).Nodup := ids_eq ▸ distinct
  have foreign' : Httpd.key ∉ c.registry.map (·.id) := ids_eq ▸ foreign
  have applied := Core.Applied.of_apply independent sound distinct' foreign' keys
  refine ⟨Conduct.apply_snapshot steady sound distinct' foreign', ?_, ?_,
    Core.apply_open modules c body, ?_, ?_, ?_, applied, ?_, ?_⟩
  · intro resource chosen
    exact ⟨Core.apply_filter modules c chosen body, Core.snapshot_filter modules c chosen⟩
  · intro order perm
    have order_keys : (order.map Prod.fst).Nodup := (perm.map Prod.fst).nodup_iff.mpr keys
    have one_by_one : order.foldl (fun c m => (Core.apply modules "" [m] c).2) c =
        (Core.apply modules "" order c).2 := by
      rw [Core.apply_eq_foldl]
      simp only [Core.apply_one]
    rw [one_by_one]
    exact Core.Applied.same independent
      (Core.Applied.of_apply independent sound distinct' foreign' order_keys) applied
      fun key => Json.Members.find?_perm perm order_keys key
  · intro unnamed
    rw [applied.httpd, unnamed]
    rfl
  · exact fun m there unnamed => applied.kept there unnamed
  · exact fun m there s v here named => applied.reached there here named
  · intro resource
    obtain ⟨store, files⟩ := Core.apply_frame modules c resource body
    exact ⟨store, files, rfl, rfl⟩
  · exact fun h => ⟨(player_lawful h).steady, players_independent _⟩

section Duo

/-- A section of one player, one of nobody, and that of the HTTP layer. -/
def duoBody : Json.Members :=
  [("files", .object [("path", .string "/music")]), ("ghost", .null),
    (Httpd.key, .object [("port", .nat 9001)])]

/-- Two players are given a body in two orders. -/
theorem duo_config :
    Reachable duoConduct (duo .empty) ∧ duoConduct.Steady ∧
    (duoConduct.Independent fun _ => Eq) ∧ (duoBody.map Prod.fst).Nodup ∧
    (Core.snapshot rehearsedModules "" (Core.apply rehearsedModules ""
        (Core.snapshot rehearsedModules "" (duo .empty)).1
        (Core.snapshot rehearsedModules "" (duo .empty)).2).2).1 =
      (Core.snapshot rehearsedModules "" (duo .empty)).1 ∧
    (duoBody.reverse.foldl (fun c m => (Core.apply rehearsedModules "" [m] c).2)
        (duo .empty)).registry =
      (Core.apply rehearsedModules "" duoBody (duo .empty)).2.registry ∧
    (Core.apply rehearsedModules "" duoBody (duo .empty)).2.httpd = ⟨9001⟩ ∧
    (Core.apply rehearsedModules "" duoBody (duo .empty)).2.registry.live duoConduct.config =
      [("files", some (Config.Music.toSection ⟨.ofString "/music"⟩)),
        ("radio", some (Config.Music.toSection ⟨.ofString "/radio"⟩))] := by
  have reachable : Reachable duoConduct (duo .empty) :=
    ⟨⟨Store.plainPath, []⟩, .empty, (⟨0, 0, [], .playing, false⟩, []), .event .start _ trivial⟩
  have steady : duoConduct.Steady := by
    intro fs id s v r s' valid tells takes
    exact @Conduct.Lawful.steady _ _ _ _ _ _ (player_lawful _) fs id s v r s' valid tells takes
  have keys : (duoBody.map Prod.fst).Nodup := by decide
  obtain ⟨unchanged, -, orders, -⟩ := reachable.config_laws (fun _ => rfl) (by decide)
    (by decide) steady (players_independent duoConduct) keys
  exact ⟨reachable, steady, players_independent duoConduct, keys, unchanged,
    (orders _ (List.reverse_perm duoBody)).registry, rfl, rfl⟩

end Duo

end Jukebox.Daemon
