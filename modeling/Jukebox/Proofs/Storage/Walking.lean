import Mathlib.Tactic
import Jukebox.Proofs.Storage.Components
import Jukebox.Storage.FileSystem
/-!
# Walking a file system

`Leads` holds of the walks that succeed, one rule for each kind of step, and says where they end.
Two facts about walks carry everything that is proved about paths: changes at places through which
nothing leads do not turn a walk to a directory aside (`Leads.frame`), and a walk to a name where no
link is followed is a walk to a directory and one step more (`Leads.split_last`,
`Leads.append_last`).
-/
namespace Jukebox.Storage

/-- The bytes of a path end in a name, behind a slash if there is anything before it. -/
def EndsIn (bytes : List UInt8) (name : Name) : Prop :=
  bytes = name ∨ ∃ xs, bytes = xs ++ slash :: name

/-- What is behind the last slash. -/
theorem exists_last (bytes : List UInt8) : ∃ last, slash ∉ last ∧ EndsIn bytes last := by
  induction bytes with
  | nil => exact ⟨[], List.not_mem_nil, Or.inl rfl⟩
  | cons b rest ih =>
    obtain ⟨last, no_slash, rfl | ⟨xs, rfl⟩⟩ := ih
    · by_cases sep : b = slash
      · exact ⟨rest, no_slash, Or.inr ⟨[], by rw [sep]; rfl⟩⟩
      · exact ⟨b :: rest, List.mem_cons.not.mpr (not_or.mpr ⟨Ne.symm sep, no_slash⟩), Or.inl rfl⟩
    · exact ⟨last, no_slash, Or.inr ⟨b :: xs, rfl⟩⟩

namespace EndsIn

variable {bytes : List UInt8} {name : Name}

theorem pieces_eq (ends : EndsIn bytes name) (no_slash : slash ∉ name) :
    ∃ before, pieces bytes = before ++ [name] := by
  rcases ends with rfl | ⟨xs, rfl⟩
  · exact ⟨[], pieces_of_no_slash no_slash⟩
  · exact ⟨pieces xs, by rw [pieces_append_slash, pieces_of_no_slash no_slash]⟩

theorem getLast?_ne (ends : EndsIn bytes name) (no_slash : slash ∉ name) (filled : name ≠ []) :
    bytes.getLast? ≠ some slash := by
  intro trailing
  have same : bytes.getLast? = name.getLast? := by
    rcases ends with rfl | ⟨xs, rfl⟩
    · rfl
    · rw [List.getLast?_append_cons]
      cases name with
      | nil => exact absurd rfl filled
      | cons b rest => exact List.getLast?_cons_cons
  exact no_slash (List.mem_of_getLast? (same ▸ trailing))

/-- Such a path is walked to that name. -/
theorem steps_eq (ends : EndsIn bytes name) (no_slash : slash ∉ name) (filled : name ≠ []) :
    ∃ names, FileSystem.steps ⟨bytes⟩ = names ++ [name] := by
  obtain ⟨before, parts⟩ := ends.pieces_eq no_slash
  refine ⟨before.filter (· ≠ []), ?_⟩
  rw [FileSystem.steps, parts, if_neg fun trailing =>
    ends.getLast?_ne no_slash filled trailing.2]
  simp [filled]

theorem fileName?_eq (ends : EndsIn bytes name) (normal : NormalName name) :
    (⟨bytes⟩ : Path).fileName? = some name := by
  have part : (pieces name).filterMap Component.ofPiece? = [.normal name] := by
    rw [pieces_of_no_slash normal.no_slash]
    simp [ofPiece?_normal normal]
  rw [Path.fileName?]
  rcases ends with rfl | ⟨_ | ⟨b, xs⟩, rfl⟩
  · rw [Path.components_name normal]
    rfl
  · rw [List.nil_append, Path.components_root_slash, part]
    rfl
  · rw [Path.components_append_slash (List.cons_ne_nil b xs), part]
    simp

end EndsIn

theorem Path.push_endsIn (p : Path) (name : Name) : EndsIn (p.push name).bytes name := by
  obtain ⟨bytes⟩ := p
  rcases List.eq_nil_or_concat bytes with rfl | ⟨xs, last, rfl⟩
  · exact Or.inl rfl
  · rw [List.concat_eq_append]
    by_cases sep : last = slash
    · exact Or.inr ⟨xs, by simp [Path.push, sep]⟩
    · exact Or.inr ⟨xs ++ [last], by simp [Path.push, sep]⟩

namespace FileSystem

variable {fs fs' : FileSystem} {purpose : Purpose} {links : Nat} {start place last : Place}
  {names : List Name}

structure Entry (name : Name) : Prop where
  not_idle : ¬(name = [] ∨ name = [dot])
  not_parent : name ≠ [dot, dot]
  short : ¬maxName < name.length

/-- The walks that succeed, and the places that they lead to. -/
inductive Leads (fs : FileSystem) (purpose : Purpose) : Nat → Place → List Name → Place → Prop
  | here (links : Nat) (place : Place) : Leads fs purpose links place [] place
  | stay {links : Nat} {place last : Place} {name : Name} {rest : List Name}
      (inside : fs.node? place = some .directory) (idle : name = [] ∨ name = [dot])
      (later : Leads fs purpose links place rest last) :
      Leads fs purpose links place (name :: rest) last
  | up {links : Nat} {place last : Place} {rest : List Name}
      (inside : fs.node? place = some .directory)
      (later : Leads fs purpose links place.dropLast rest last) :
      Leads fs purpose links place ([dot, dot] :: rest) last
  | missing {links : Nat} {place : Place} {name : Name}
      (inside : fs.node? place = some .directory) (entry : Entry name)
      (absent : fs.node? (place ++ [name]) = none) :
      Leads fs purpose links place [name] (place ++ [name])
  | link {links : Nat} {place : Place} {name : Name} {target : Path}
      (inside : fs.node? place = some .directory) (entry : Entry name)
      (there : fs.node? (place ++ [name]) = some (.link target)) (itself : purpose = .itself) :
      Leads fs purpose links place [name] (place ++ [name])
  | follow {links : Nat} {place last : Place} {name : Name} {target : Path} {rest : List Name}
      (inside : fs.node? place = some .directory) (entry : Entry name)
      (no_slash : ¬(purpose = .creation ∧ rest = [[]]))
      (there : fs.node? (place ++ [name]) = some (.link target))
      (goes_on : ¬(rest = [] ∧ purpose = .itself))
      (later : Leads fs purpose links (if target.isAbsolute then [] else place)
        (steps target ++ rest) last) :
      Leads fs purpose (links + 1) place (name :: rest) last
  | enter {links : Nat} {place last : Place} {name : Name} {node : Node} {rest : List Name}
      (inside : fs.node? place = some .directory) (entry : Entry name)
      (no_slash : ¬(purpose = .creation ∧ rest = [[]]))
      (there : fs.node? (place ++ [name]) = some node) (no_link : ∀ target, node ≠ .link target)
      (later : Leads fs purpose links (place ++ [name]) rest last) :
      Leads fs purpose links place (name :: rest) last

theorem leads_of_walk {node : Option Node}
    (walked : walk fs purpose links start names = .ok (last, node)) :
    Leads fs purpose links start names last ∧ node = fs.node? last := by
  fun_induction walk fs purpose links start names with
  | case1 links place =>
    cases walked
    exact ⟨.here _ _, rfl⟩
  | case2 links place name rest inside idle ih =>
    obtain ⟨later, found⟩ := ih walked
    exact ⟨.stay inside idle later, found⟩
  | case3 links place rest inside _ ih =>
    obtain ⟨later, found⟩ := ih walked
    exact ⟨.up inside later, found⟩
  | case6 links place name inside idle parent short next absent _ =>
    obtain ⟨rfl, rfl⟩ := Prod.mk.inj (Except.ok.inj walked)
    exact ⟨.missing inside ⟨idle, parent, short⟩ absent, absent.symm⟩
  | case8 links place name rest inside idle parent _ short next target there stops =>
    obtain ⟨rfl, rfl⟩ := Prod.mk.inj (Except.ok.inj walked)
    obtain ⟨rfl, itself⟩ := stops
    exact ⟨.link inside ⟨idle, parent, short⟩ there itself, there.symm⟩
  | case10 place name rest inside idle parent no_slash short next target there goes_on links ih =>
    obtain ⟨later, found⟩ := ih walked
    exact ⟨.follow inside ⟨idle, parent, short⟩ no_slash there goes_on later, found⟩
  | case11 links place name rest inside idle parent no_slash short next node no_link there ih =>
    obtain ⟨later, found⟩ := ih walked
    exact ⟨.enter inside ⟨idle, parent, short⟩ no_slash there no_link later, found⟩
  | _ => cases walked

theorem Leads.walk_eq (leads : Leads fs purpose links start names last) :
    walk fs purpose links start names = .ok (last, fs.node? last) := by
  induction leads with
  | here links place => rw [walk]
  | stay inside idle _ ih => rw [walk, inside]; simp [idle, ih]
  | up inside _ ih => rw [walk, inside]; simp [ih]
  | missing inside entry absent =>
    rw [walk, inside]
    simp [entry.not_idle, entry.not_parent, entry.short, absent]
  | link inside entry there itself =>
    rw [walk, inside]
    simp [entry.not_idle, entry.not_parent, entry.short, there, itself]
  | follow inside entry no_slash there goes_on _ ih =>
    rw [walk, inside]
    simp [entry.not_idle, entry.not_parent, entry.short, no_slash, there, goes_on, ih]
  | enter inside entry no_slash there no_link _ ih =>
    rw [walk, inside]
    simp [entry.not_idle, entry.not_parent, entry.short, no_slash, there, ih]

/-- A walk that does not start in a directory ends at once. -/
theorem Leads.stuck (leads : Leads fs purpose links start names last)
    (outside : fs.node? start ≠ some .directory) : names = [] ∧ last = start := by
  cases leads with
  | here => exact ⟨rfl, rfl⟩
  | _ => exact absurd ‹_› outside

/-- A walk can be interrupted, in a directory if it ends in one. -/
theorem Leads.interrupt {xs ys : List Name} (leads : Leads fs .target links start (xs ++ ys) last)
    (ends : fs.node? last = some .directory) :
    ∃ middle, Leads fs .target links start xs middle ∧
      fs.node? middle = some .directory := by
  generalize whole : xs ++ ys = steps at leads
  induction leads generalizing xs with
  | here =>
    obtain ⟨rfl, -⟩ := List.append_eq_nil_iff.mp whole
    exact ⟨_, .here _ _, ends⟩
  | stay inside idle _ ih =>
    cases xs with
    | nil => exact ⟨_, .here _ _, inside⟩
    | cons x xs =>
      obtain ⟨rfl, others⟩ := List.cons.inj whole
      obtain ⟨middle, first, found⟩ := ih ends others
      exact ⟨middle, .stay inside idle first, found⟩
  | up inside _ ih =>
    cases xs with
    | nil => exact ⟨_, .here _ _, inside⟩
    | cons x xs =>
      obtain ⟨rfl, others⟩ := List.cons.inj whole
      obtain ⟨middle, first, found⟩ := ih ends others
      exact ⟨middle, .up inside first, found⟩
  | missing _ _ absent =>
    rw [absent] at ends
    cases ends
  | link _ _ _ itself => cases itself
  | follow inside entry no_slash there goes_on _ ih =>
    cases xs with
    | nil => exact ⟨_, .here _ _, inside⟩
    | cons x xs =>
      obtain ⟨rfl, rfl⟩ := List.cons.inj whole
      obtain ⟨middle, first, found⟩ := ih ends (List.append_assoc _ _ _)
      exact ⟨middle, .follow inside entry (by rintro ⟨⟨⟩, -⟩) there (by rintro ⟨-, ⟨⟩⟩) first,
        found⟩
  | enter inside entry no_slash there no_link _ ih =>
    cases xs with
    | nil => exact ⟨_, .here _ _, inside⟩
    | cons x xs =>
      obtain ⟨rfl, others⟩ := List.cons.inj whole
      obtain ⟨middle, first, found⟩ := ih ends others
      exact ⟨middle, .enter inside entry (by rintro ⟨⟨⟩, -⟩) there no_link first, found⟩

/-- No walk goes through a place on its way to a directory: there is no directory at the place, and
no link that leads to one. -/
structure Blocked (fs : FileSystem) (place : Place) : Prop where
  outside : fs.node? place ≠ some .directory
  no_link : ∀ parent name target links last, place = parent ++ [name] →
    fs.node? place = some (.link target) →
    Leads fs .target links (if target.isAbsolute then [] else parent) (steps target) last →
    fs.node? last ≠ some .directory

/-- Walks to directories are the same if file systems differ in blocked places only. -/
theorem Leads.frame (same : ∀ p, Blocked fs p ∨ fs'.node? p = fs.node? p)
    (leads : Leads fs .target links start names last) (ends : fs.node? last = some .directory) :
    Leads fs' .target links start names last ∧ fs'.node? last = some .directory := by
  have kept {p : Place} (inside : fs.node? p = some .directory) :
      fs'.node? p = some .directory := by
    rcases same p with blocked | unchanged
    · exact absurd inside blocked.outside
    · exact unchanged.trans inside
  refine ⟨?_, kept ends⟩
  induction leads with
  | here => exact .here _ _
  | stay inside idle _ ih => exact .stay (kept inside) idle (ih ends)
  | up inside _ ih => exact .up (kept inside) (ih ends)
  | missing _ _ absent =>
    rw [absent] at ends
    cases ends
  | link _ _ _ itself => cases itself
  | @follow _ place _ name target _ inside entry no_slash there goes_on later ih =>
    rcases same (place ++ [name]) with blocked | unchanged
    · obtain ⟨middle, first, found⟩ := later.interrupt ends
      exact absurd found (blocked.no_link place name target _ middle rfl there first)
    · exact .follow (kept inside) entry no_slash (unchanged.trans there) goes_on (ih ends)
  | @enter _ place _ name _ _ inside entry no_slash there no_link later ih =>
    rcases same (place ++ [name]) with blocked | unchanged
    · obtain ⟨-, rfl⟩ := later.stuck blocked.outside
      exact absurd ends blocked.outside
    · exact .enter (kept inside) entry no_slash (unchanged.trans there) no_link (ih ends)

/-- A walk that may follow more links leads to the same place. -/
theorem Leads.more (leads : Leads fs purpose links start names last) (further : Nat) :
    Leads fs purpose (links + further) start names last := by
  induction leads with
  | here => exact .here _ _
  | stay inside idle _ ih => exact .stay inside idle ih
  | up inside _ ih => exact .up inside ih
  | missing inside entry absent => exact .missing inside entry absent
  | link inside entry there itself => exact .link inside entry there itself
  | @follow links _ _ _ _ _ inside entry no_slash there goes_on _ ih =>
    rw [Nat.succ_add_eq_add_succ]
    exact .follow inside entry no_slash there goes_on ih
  | enter inside entry no_slash there no_link _ ih =>
    exact .enter inside entry no_slash there no_link ih

/-- Walks of the same names lead to the same place. -/
theorem Leads.unique {links' : Nat} {last' : Place}
    (leads : Leads fs purpose links start names last)
    (leads' : Leads fs purpose links' start names last') : last' = last := by
  have more := (leads.more links').walk_eq
  have more' := (leads'.more links).walk_eq
  rw [Nat.add_comm, more] at more'
  exact ((Prod.mk.inj (Except.ok.inj more')).1).symm

/-- Walks that find something are the same if something more is there. -/
theorem Leads.grow (kept : ∀ p node, fs.node? p = some node → fs'.node? p = some node)
    (leads : Leads fs purpose links start names last) (there : fs.node? last ≠ none) :
    Leads fs' purpose links start names last := by
  induction leads with
  | here => exact .here _ _
  | stay inside idle _ ih => exact .stay (kept _ _ inside) idle (ih there)
  | up inside _ ih => exact .up (kept _ _ inside) (ih there)
  | missing _ _ absent => exact absurd absent there
  | link inside entry found itself => exact .link (kept _ _ inside) entry (kept _ _ found) itself
  | follow inside entry no_slash found goes_on _ ih =>
    exact .follow (kept _ _ inside) entry no_slash (kept _ _ found) goes_on (ih there)
  | enter inside entry no_slash found no_link _ ih =>
    exact .enter (kept _ _ inside) entry no_slash (kept _ _ found) no_link (ih there)

/-- A walk to a name itself is a walk to a directory and one step more. -/
theorem Leads.split_last {name : Name} (normal : NormalName name)
    (leads : Leads fs .itself links start (names ++ [name]) last) :
    ∃ directory, Leads fs .target links start names directory ∧
      fs.node? directory = some .directory ∧ Entry name ∧ last = directory ++ [name] := by
  generalize whole : names ++ [name] = steps at leads
  induction leads generalizing names with
  | here => simp at whole
  | @stay links place last first rest inside idle later ih =>
    cases names with
    | nil =>
      obtain ⟨rfl, -⟩ := List.cons.inj whole
      exact (idle.elim normal.nonempty normal.not_current).elim
    | cons _ names =>
      obtain ⟨rfl, others⟩ := List.cons.inj whole
      obtain ⟨directory, before, found⟩ := ih others
      exact ⟨directory, .stay inside idle before, found⟩
  | @up links place last rest inside later ih =>
    cases names with
    | nil => exact absurd (List.cons.inj whole).1 normal.not_parent
    | cons _ names =>
      obtain ⟨rfl, others⟩ := List.cons.inj whole
      obtain ⟨directory, before, found⟩ := ih others
      exact ⟨directory, .up inside before, found⟩
  | @missing links place first inside entry absent =>
    cases names with
    | nil =>
      obtain ⟨rfl, -⟩ := List.cons.inj whole
      exact ⟨place, .here _ _, inside, entry, rfl⟩
    | cons _ names => simp at whole
  | @link links place first target inside entry there itself =>
    cases names with
    | nil =>
      obtain ⟨rfl, -⟩ := List.cons.inj whole
      exact ⟨place, .here _ _, inside, entry, rfl⟩
    | cons _ names => simp at whole
  | @follow links place last first target rest inside entry no_slash there goes_on later ih =>
    cases names with
    | nil =>
      obtain ⟨rfl, rfl⟩ := List.cons.inj whole
      exact absurd ⟨rfl, rfl⟩ goes_on
    | cons _ names =>
      obtain ⟨rfl, rfl⟩ := List.cons.inj whole
      obtain ⟨directory, before, found⟩ := ih (List.append_assoc _ _ _)
      exact ⟨directory, .follow inside entry (by rintro ⟨⟨⟩, -⟩) there (by rintro ⟨-, ⟨⟩⟩) before,
        found⟩
  | @enter links place last first node rest inside entry no_slash there no_link later ih =>
    cases names with
    | nil =>
      obtain ⟨rfl, rfl⟩ := List.cons.inj whole
      cases later
      exact ⟨place, .here _ _, inside, entry, rfl⟩
    | cons _ names =>
      obtain ⟨rfl, others⟩ := List.cons.inj whole
      obtain ⟨directory, before, found⟩ := ih others
      exact ⟨directory, .enter inside entry (by rintro ⟨⟨⟩, -⟩) there no_link before, found⟩

theorem Leads.append_last {name : Name} (entry : Entry name)
    (direct : purpose = .itself ∨ ∀ target, fs.node? (last ++ [name]) ≠ some (.link target))
    (leads : Leads fs .target links start names last) (inside : fs.node? last = some .directory) :
    Leads fs purpose links start (names ++ [name]) (last ++ [name]) := by
  have no_slash {rest : List Name} : ¬(purpose = .creation ∧ rest ++ [name] = [[]]) := by
    rintro ⟨-, ends⟩
    cases rest with
    | nil => exact entry.not_idle (Or.inl (List.cons.inj ends).1)
    | cons _ rest => simp at ends
  have goes_on {rest : List Name} : ¬(rest ++ [name] = [] ∧ purpose = .itself) := by simp
  induction leads with
  | here links place =>
    cases there : fs.node? (place ++ [name]) with
    | none => exact .missing inside entry there
    | some node =>
      by_cases no_link : ∀ target, node ≠ .link target
      · exact .enter inside entry (by rintro ⟨-, ⟨⟩⟩) there no_link (.here _ _)
      · obtain ⟨target, rfl⟩ := not_forall_not.mp no_link
        rcases direct with itself | no_link
        · exact .link inside entry there itself
        · exact absurd there (no_link target)
  | stay inside' idle _ ih => exact .stay inside' idle (ih direct inside)
  | up inside' _ ih => exact .up inside' (ih direct inside)
  | missing _ _ absent => rw [absent] at inside; cases inside
  | link _ _ _ itself => cases itself
  | @follow _ _ _ _ target rest inside' entry' _ there _ _ ih =>
    refine .follow inside' entry' no_slash there goes_on ?_
    have whole := List.append_assoc (steps target) rest [name]
    exact whole ▸ ih direct inside
  | enter inside' entry' _ there no_link _ ih =>
    exact .enter inside' entry' no_slash there no_link (ih direct inside)

section Changes

variable (fs)

theorem lookup_replace (node : Node) (nodes : List (Place × Node)) (other : Place) :
    (nodes.map fun (p, n) => if p = place then (p, node) else (p, n)).lookup other =
      if other = place then (nodes.lookup other).map fun _ => node else nodes.lookup other := by
  induction nodes with
  | nil => simp
  | cons entry rest ih =>
    obtain ⟨p, n⟩ := entry
    by_cases here : other = p
    · subst here
      by_cases same : other = place <;> simp [same]
    · have apart : (other == p) = false := by simpa using here
      by_cases replaced : p = place
      · simp only [List.map_cons, if_pos replaced, List.lookup_cons, apart, ih]
      · simp only [List.map_cons, if_neg replaced, List.lookup_cons, apart, ih]

theorem lookup_erased (nodes : List (Place × Node)) (other : Place) :
    (nodes.filter fun (p, _) => p ≠ place).lookup other =
      if other = place then none else nodes.lookup other := by
  induction nodes with
  | nil => simp
  | cons entry rest ih =>
    obtain ⟨p, n⟩ := entry
    by_cases erased : p = place
    · rw [List.filter_cons_of_neg (by simpa using erased), ih]
      by_cases here : other = place
      · simp [here]
      · have apart : (other == p) = false := by simpa [erased] using here
        simp [here, List.lookup_cons, apart]
    · rw [List.filter_cons_of_pos (by simpa using erased), List.lookup_cons, List.lookup_cons, ih]
      by_cases here : other = p
      · subst here
        simp [erased]
      · have apart : (other == p) = false := by simpa using here
        simp [apart]

theorem node?_put_self (below : place ≠ []) (node : Node) :
    (fs.put place node).node? place = some node := by
  rw [node?, if_neg below, put]
  split
  · rename_i there
    obtain ⟨old, found⟩ := Option.isSome_iff_exists.mp there
    rw [lookup_replace, if_pos rfl, found]
    rfl
  · rename_i absent
    rw [List.lookup_append, Option.not_isSome_iff_eq_none.mp absent]
    simp

theorem node?_put_other {other : Place} (apart : other ≠ place) (node : Node) :
    (fs.put place node).node? other = fs.node? other := by
  have unequal : (other == place) = false := by simpa using apart
  rw [node?, node?]
  split
  · rfl
  rw [put]
  split
  · rw [lookup_replace, if_neg apart]
  · simp [List.lookup_append, List.lookup_cons, unequal]

theorem node?_erase_other {other : Place} (apart : other ≠ place) :
    (fs.erase place).node? other = fs.node? other := by
  rw [node?, node?, erase, lookup_erased, if_neg apart]

@[simp] theorem put_workingDirectory (place : Place) (node : Node) :
    (fs.put place node).workingDirectory = fs.workingDirectory := by
  rw [put]
  split <;> rfl

variable {fs}

/-- Files, and what is not there, block every walk. -/
theorem blocked_of_plain (outside : fs.node? place ≠ some .directory)
    (no_link : ∀ target, fs.node? place ≠ some (.link target)) : Blocked fs place where
  outside := outside
  no_link _ _ target _ _ _ there := absurd there (no_link target)

end Changes

section Locating

variable {p : Path}

/-- A path that the system takes at all. -/
structure Sane (p : Path) : Prop where
  no_nul : p.bytes.contains 0 = false
  filled : p.bytes ≠ []
  short : ¬maxPath < p.bytes.length

/-- Where a path starts. -/
def origin (fs : FileSystem) (p : Path) : Place :=
  if p.isAbsolute then [] else fs.workingDirectory

theorem leads_of_locate {node : Option Node} (found : fs.locate purpose p = .ok (place, node)) :
    Sane p ∧ Leads fs purpose maxLinks (fs.origin p) (steps p) place ∧
      node = fs.node? place := by
  unfold locate at found
  split at found
  · cases found
  split at found
  · cases found
  split at found
  · cases found
  · exact ⟨⟨(Bool.not_eq_true _).mp ‹_›, ‹_›, ‹_›⟩, leads_of_walk found⟩

theorem Leads.locate_eq (sane : Sane p)
    (leads : Leads fs purpose maxLinks (fs.origin p) (steps p) place) :
    fs.locate purpose p = .ok (place, fs.node? place) := by
  rw [locate, sane.no_nul, if_neg (by simp), if_neg sane.filled, if_neg sane.short]
  exact leads.walk_eq

@[simp] theorem origin_put (place : Place) (node : Node) (p : Path) :
    (fs.put place node).origin p = fs.origin p := by
  rw [origin, put_workingDirectory]
  rfl

@[simp] theorem origin_erase (place : Place) (p : Path) :
    (fs.erase place).origin p = fs.origin p := rfl

/-- A path that ends in a name leads to a name in a directory, if a link there is not followed. -/
theorem leads_of_locate_name {name : Name} {node : Option Node} (ends : EndsIn p.bytes name)
    (normal : NormalName name) (found : fs.locate .itself p = .ok (place, node)) :
    ∃ names directory, steps p = names ++ [name] ∧
      Leads fs .target maxLinks (fs.origin p) names directory ∧
      fs.node? directory = some .directory ∧ Sane p ∧ Entry name ∧
      place = directory ++ [name] ∧ node = fs.node? place := by
  obtain ⟨sane, leads, here⟩ := leads_of_locate found
  obtain ⟨names, parts⟩ := ends.steps_eq normal.no_slash normal.nonempty
  rw [show steps p = names ++ [name] from parts] at leads
  obtain ⟨directory, before, inside, entry, below⟩ := leads.split_last normal
  exact ⟨names, directory, parts, before, inside, sane, entry, below, here⟩

theorem Leads.locate_name {name : Name} {directory : Place} (sane : Sane p) (entry : Entry name)
    (direct : purpose = .itself ∨ ∀ target, fs.node? (directory ++ [name]) ≠ some (.link target))
    (parts : steps p = names ++ [name])
    (leads : Leads fs .target maxLinks (fs.origin p) names directory)
    (inside : fs.node? directory = some .directory) :
    fs.locate purpose p = .ok (directory ++ [name], fs.node? (directory ++ [name])) := by
  refine Leads.locate_eq sane ?_
  rw [parts]
  exact leads.append_last entry direct inside

structure Plain (p : Path) (name : Name) : Prop where
  sane : Sane p
  relative : p.isAbsolute = false
  entry : Entry name
  parts : steps p = [name]

namespace Plain

variable {name : Name}

theorem origin_eq (plain : Plain p name) (root : fs.workingDirectory = []) : fs.origin p = [] := by
  simp [origin, plain.relative, root]

theorem locate_eq (plain : Plain p name) (root : fs.workingDirectory = [])
    (direct : purpose = .itself ∨ ∀ target, fs.node? [name] ≠ some (.link target)) :
    fs.locate purpose p = .ok ([name], fs.node? [name]) := by
  have leads : Leads fs .target maxLinks (fs.origin p) [] [] := by
    rw [plain.origin_eq root]
    exact .here _ _
  exact leads.locate_name plain.sane plain.entry direct plain.parts rfl

/-- A link to itself is followed until there were too many links. -/
theorem looping (plain : Plain p name) (itself : fs.node? [name] = some (.link p)) (links : Nat) :
    fs.walk .target links [] [name] = .error .linkLoop := by
  have entry := plain.entry
  induction links with
  | zero =>
    rw [walk, show fs.node? [] = some .directory from rfl]
    simp [entry.not_idle, entry.not_parent, entry.short, itself]
  | succ links ih =>
    rw [walk, show fs.node? [] = some .directory from rfl]
    simp [entry.not_idle, entry.not_parent, entry.short, itself, plain.parts, ih]

theorem content_looping (plain : Plain p name) (root : fs.workingDirectory = [])
    (itself : fs.node? [name] = some (.link p)) : fs.content p = .error .linkLoop := by
  have start : (if p.isAbsolute then [] else fs.workingDirectory) = [] := plain.origin_eq root
  rw [content, stat, locate, plain.sane.no_nul, if_neg (by simp), if_neg plain.sane.filled,
    if_neg plain.sane.short, start, plain.parts, plain.looping itself]

end Plain

end Locating

end FileSystem

end Jukebox.Storage
