import Mathlib.Tactic
import Jukebox.Proofs.Storage.Walking
/-!
# Siblings

The path of a sibling is made of the components of a path with the last one replaced. Empty parts and
dots get lost on the way, and walks do not mind: both paths lead to the same directory.
-/
namespace Jukebox.Storage

/-- A part of a path that moves a walk. -/
def tells (name : Name) : Bool :=
  decide (name ≠ [] ∧ name ≠ [dot])

@[simp] theorem tells_nil : tells [] = false := rfl

@[simp] theorem tells_dot : tells [dot] = false := rfl

theorem NormalName.tells {name : Name} (normal : NormalName name) : tells name = true :=
  decide_eq_true ⟨normal.nonempty, normal.not_current⟩

namespace Path

def telling (p : Path) : List Name :=
  (pieces p.bytes).filter tells

theorem telling_append_slash (xs ys : List UInt8) :
    (⟨xs ++ slash :: ys⟩ : Path).telling = (⟨xs⟩ : Path).telling ++ (⟨ys⟩ : Path).telling := by
  rw [telling, pieces_append_slash, List.filter_append]
  rfl

theorem telling_name {name : Name} (no_slash : slash ∉ name) :
    (⟨name⟩ : Path).telling = [name].filter tells := by
  rw [telling, pieces_of_no_slash no_slash]

theorem telling_push (p : Path) {name : Name} (no_slash : slash ∉ name) :
    (p.push name).telling = p.telling ++ [name].filter tells := by
  obtain ⟨bytes⟩ := p
  rcases List.eq_nil_or_concat bytes with rfl | ⟨xs, last, rfl⟩
  · exact telling_name no_slash
  rw [List.concat_eq_append]
  by_cases sep : last = slash
  · have pushed : (⟨xs ++ [last]⟩ : Path).push name = ⟨xs ++ slash :: name⟩ := by
      simp [push, sep]
    have ended := telling_append_slash xs []
    rw [pushed, sep, telling_append_slash, ended, telling_name no_slash]
    simp [telling, pieces]
  · have pushed : (⟨xs ++ [last]⟩ : Path).push name = ⟨xs ++ [last] ++ slash :: name⟩ := by
      simp [push, sep]
    rw [pushed, telling_append_slash, telling_name no_slash]

theorem isAbsolute_push (p : Path) {name : Name} (no_slash : slash ∉ name) :
    (p.push name).isAbsolute = p.isAbsolute := by
  obtain ⟨_ | ⟨b, rest⟩⟩ := p
  · cases name with
    | nil => rfl
    | cons b more =>
      have apart : b ≠ slash := fun same => no_slash (same ▸ List.mem_cons_self)
      simp [push, isAbsolute, apart]
  · rw [push, List.getLast?_cons]
    dsimp only
    split <;> rfl

theorem telling_foldl (cs : List Component) (p : Path) (no_slash : ∀ c ∈ cs, slash ∉ pieceOf c) :
    (cs.foldl (fun p c => p.push (pieceOf c)) p).telling =
      p.telling ++ (cs.map pieceOf).filter tells := by
  induction cs generalizing p with
  | nil => simp
  | cons c rest ih =>
    rw [List.foldl_cons, ih _ fun c' there => no_slash c' (List.mem_cons_of_mem c there),
      telling_push p (no_slash c List.mem_cons_self), List.append_assoc, List.map_cons,
      ← List.filter_append]
    rfl

theorem isAbsolute_foldl (cs : List Component) (p : Path) (no_slash : ∀ c ∈ cs, slash ∉ pieceOf c) :
    (cs.foldl (fun p c => p.push (pieceOf c)) p).isAbsolute = p.isAbsolute := by
  induction cs generalizing p with
  | nil => rfl
  | cons c rest ih =>
    rw [List.foldl_cons, ih _ fun c' there => no_slash c' (List.mem_cons_of_mem c there),
      isAbsolute_push p (no_slash c List.mem_cons_self)]

theorem ofComponents_of_not_root {cs : List Component} (other : cs.head? ≠ some .root) :
    ofComponents cs = cs.foldl (fun p c => p.push (pieceOf c)) ⟨[]⟩ := by
  cases cs with
  | nil => rfl
  | cons c rest =>
    cases c with
    | root => exact absurd rfl other
    | _ => rfl

/-- A path made of components moves a walk as they do, and starts at the root if they do. -/
theorem ofComponents_eq (cs : List Component) (no_slash : ∀ c ∈ cs, slash ∉ pieceOf c) :
    (ofComponents cs).telling = (cs.map pieceOf).filter tells ∧
      (ofComponents cs).isAbsolute = decide (cs.head? = some .root) := by
  by_cases root : cs.head? = some .root
  · obtain ⟨rest, rfl⟩ : ∃ rest, cs = .root :: rest := by
      cases cs with
      | nil => cases root
      | cons c rest => exact ⟨rest, by rw [Option.some.inj root]⟩
    have later (c : Component) (there : c ∈ rest) := no_slash c (List.mem_cons_of_mem _ there)
    have bare : (⟨[slash]⟩ : Path).telling = [] := by decide
    exact ⟨(telling_foldl rest _ later).trans (by simp [bare, pieceOf]),
      (isAbsolute_foldl rest _ later).trans (by simp [isAbsolute])⟩
  · rw [ofComponents_of_not_root root, telling_foldl cs _ no_slash, isAbsolute_foldl cs _ no_slash]
    exact ⟨rfl, by simp [root, isAbsolute]⟩

theorem pieces_of_components (parts : List Name) :
    ((parts.filterMap Component.ofPiece?).map pieceOf).filter tells = parts.filter tells := by
  induction parts with
  | nil => rfl
  | cons part rest ih =>
    by_cases empty : part = []
    · simp [Component.ofPiece?, empty, ih]
    by_cases current : part = [dot]
    · simp [Component.ofPiece?, current, ih]
    by_cases parent : part = [dot, dot]
    · simp [Component.ofPiece?, parent, ih, pieceOf, List.filter_cons]
    · simp [Component.ofPiece?, empty, current, parent, ih, pieceOf, List.filter_cons]

/-- A path moves a walk as its components do. -/
theorem telling_eq (p : Path) : p.telling = (p.components.map pieceOf).filter tells := by
  rw [components]
  split
  · rw [List.map_cons, List.filter_cons_of_neg (by simp [pieceOf]), pieces_of_components]
    rfl
  · rw [telling]
    split
    · exact absurd ‹_› (pieces_ne_nil _)
    · rename_i first rest parts
      have single := pieces_of_components [first]
      rw [parts, List.map_append, List.filter_append, pieces_of_components]
      by_cases current : first = [dot]
      · simp [current, pieceOf]
      · rw [if_neg current]
        simp only [List.filterMap_cons, List.filterMap_nil] at single
        cases means : Component.ofPiece? first with
        | none =>
          rw [means] at single
          rw [Option.toList, single, ← List.filter_append]
          rfl
        | some c =>
          rw [means] at single
          rw [Option.toList, single, ← List.filter_append]
          rfl

theorem head_components (p : Path) : decide (p.components.head? = some .root) = p.isAbsolute := by
  rw [components]
  split
  · rename_i absolute
    simp [absolute]
  · rename_i relative
    rw [(Bool.not_eq_true _).mp relative]
    have never (part : Name) : Component.ofPiece? part ≠ some .root := by
      unfold Component.ofPiece?
      split
      · rintro ⟨⟩
      split
      · rintro ⟨⟩
      split <;> rintro ⟨⟩
    refine decide_eq_false fun first => ?_
    have there := List.mem_of_mem_head? first
    split at there
    · cases there
    · rcases List.mem_append.mp there with first | later
      · split at first
        · simp at first
        · exact never _ (by simpa using first)
      · obtain ⟨part, -, means⟩ := List.mem_filterMap.mp later
        exact never part means

theorem no_slash_of_components {p : Path} {c : Component} (there : c ∈ p.components) :
    slash ∉ pieceOf c := by
  cases c with
  | root => exact List.not_mem_nil
  | current => decide
  | parent => decide
  | normal name => exact (normal_of_mem_components there).no_slash

/-- The path of a sibling moves a walk as the path itself does, but for the last name, and starts in
the same place. -/
theorem sibling_eq {p : Path} {name other : Name} (named : p.fileName? = some name)
    (normal : NormalName other) :
    (∃ names, p.telling = names ++ [name] ∧ (p.withFileName other).telling = names ++ [other]) ∧
      (p.withFileName other).isAbsolute = p.isAbsolute := by
  have last : p.components.getLast? = some (.normal name) := by
    rw [fileName?] at named
    split at named
    · cases named
      assumption
    · cases named
  have whole : p.components = p.components.dropLast ++ [.normal name] :=
    (List.dropLast_append_getLast? _ last).symm
  have normal_name : NormalName name :=
    normal_of_mem_components (List.mem_of_getLast? last)
  have parent : p.parent? = some (ofComponents p.components.dropLast) := by
    rw [parent?, last]
  obtain ⟨above, absolute⟩ := ofComponents_eq p.components.dropLast fun c there =>
    no_slash_of_components (List.mem_of_mem_dropLast there)
  have sibling : p.withFileName other = (ofComponents p.components.dropLast).push other := by
    rw [withFileName, named, parent]
    rfl
  have self : [name].filter tells = [name] := by simp [normal_name.tells]
  have self' : [other].filter tells = [other] := by simp [normal.tells]
  rw [sibling, telling_push _ normal.no_slash, isAbsolute_push _ normal.no_slash, above, absolute,
    self']
  refine ⟨⟨_, ?_, rfl⟩, ?_⟩
  · rw [telling_eq, whole, List.map_append, List.filter_append, List.dropLast_concat]
    exact congrArg _ self
  · rw [← head_components p, whole, List.dropLast_concat]
    cases p.components.dropLast <;> simp

end Path

namespace FileSystem

variable {fs : FileSystem} {links : Nat} {start last : Place}

theorem steps_telling (p : Path) : (steps p).filter tells = p.telling := by
  have parts : ((pieces p.bytes).filter (· ≠ [])).filter tells = p.telling := by
    rw [List.filter_filter, Path.telling]
    refine List.filter_congr fun part _ => ?_
    by_cases empty : part = [] <;> simp [empty]
  rw [steps]
  split
  · rw [List.filter_append, parts]
    simp
  · exact parts

theorem Entry.tells {name : Name} (entry : Entry name) : tells name = true :=
  decide_eq_true (not_or.mp entry.not_idle)

/-- Parts that do not move a walk can be left out. -/
theorem Leads.thin (xs ys : List Name) (leads : Leads fs .target links start (xs ++ ys) last) :
    Leads fs .target links start (xs ++ ys.filter tells) last := by
  generalize whole : xs ++ ys = names at leads
  induction leads generalizing xs ys with
  | here links place =>
    obtain ⟨rfl, rfl⟩ := List.append_eq_nil_iff.mp whole
    exact .here _ _
  | @stay links place last name rest inside idle later ih =>
    cases xs with
    | nil =>
      obtain rfl : ys = name :: rest := whole
      have idle' : tells name = false := by
        rcases idle with rfl | rfl <;> rfl
      rw [List.filter_cons_of_neg (by simp [idle'])]
      exact ih [] rest rfl
    | cons x xs =>
      obtain ⟨rfl, rfl⟩ := List.cons.inj whole
      exact .stay inside idle (ih xs ys rfl)
  | @up links place last rest inside later ih =>
    cases xs with
    | nil =>
      obtain rfl : ys = [dot, dot] :: rest := whole
      exact .up inside (ih [] rest rfl)
    | cons x xs =>
      obtain ⟨rfl, rfl⟩ := List.cons.inj whole
      exact .up inside (ih xs ys rfl)
  | @missing links place name inside entry absent =>
    cases xs with
    | nil =>
      obtain rfl : ys = [name] := whole
      rw [List.filter_cons_of_pos entry.tells]
      exact .missing inside entry absent
    | cons x xs =>
      obtain ⟨rfl, others⟩ := List.cons.inj whole
      obtain ⟨rfl, rfl⟩ := List.append_eq_nil_iff.mp others
      exact .missing inside entry absent
  | link _ _ _ itself => cases itself
  | @follow links place last name target rest inside entry no_slash there goes_on later ih =>
    cases xs with
    | nil =>
      obtain rfl : ys = name :: rest := whole
      rw [List.nil_append, List.filter_cons_of_pos entry.tells]
      exact .follow inside entry (by rintro ⟨⟨⟩, -⟩) there (by rintro ⟨-, ⟨⟩⟩)
        (ih (steps target) rest rfl)
    | cons x xs =>
      obtain ⟨rfl, rfl⟩ := List.cons.inj whole
      have thinned := ih (steps target ++ xs) ys (List.append_assoc _ _ _)
      rw [List.append_assoc] at thinned
      exact .follow inside entry (by rintro ⟨⟨⟩, -⟩) there (by rintro ⟨-, ⟨⟩⟩) thinned
  | @enter links place last name node rest inside entry no_slash there no_link later ih =>
    cases xs with
    | nil =>
      obtain rfl : ys = name :: rest := whole
      rw [List.nil_append, List.filter_cons_of_pos entry.tells]
      exact .enter inside entry (by rintro ⟨⟨⟩, -⟩) there no_link (ih [] rest rfl)
    | cons x xs =>
      obtain ⟨rfl, rfl⟩ := List.cons.inj whole
      exact .enter inside entry (by rintro ⟨⟨⟩, -⟩) there no_link (ih xs ys rfl)

/-- A path and that of a sibling lead below the same directory. -/
theorem same_directory {p : Path} {name other : Name} (named : p.fileName? = some name)
    (normal : NormalName other) {names names' : List Name} {links' : Nat} {last' : Place}
    (parts : steps p = names ++ [name]) (parts' : steps (p.withFileName other) = names' ++ [other])
    (leads : Leads fs .target links (fs.origin p) names last)
    (leads' : Leads fs .target links' (fs.origin (p.withFileName other)) names' last') :
    last' = last := by
  obtain ⟨⟨above, telling, telling'⟩, absolute⟩ := Path.sibling_eq named normal
  have origin_eq : fs.origin (p.withFileName other) = fs.origin p := by
    rw [origin, origin, absolute]
  have thinned {names : List Name} {q : Path} {x : Name} (parts : steps q = names ++ [x])
      (told : q.telling = above ++ [x]) (tells_last : tells x = true) :
      names.filter tells = above := by
    have whole := steps_telling q
    rw [parts, told, List.filter_append, List.filter_cons_of_pos tells_last] at whole
    exact List.append_cancel_right whole
  have tells_name : tells name = true := by
    have : name ∈ p.telling := by rw [telling]; simp
    exact (List.mem_filter.mp this).2
  have thin := leads.thin [] names
  have thin' := leads'.thin [] names'
  rw [List.nil_append, thinned parts telling tells_name] at thin
  rw [List.nil_append, thinned parts' telling' normal.tells, origin_eq] at thin'
  exact thin.unique thin'

end FileSystem

end Jukebox.Storage
