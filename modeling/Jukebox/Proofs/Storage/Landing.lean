import Mathlib.Tactic
import Jukebox.Proofs.Storage.Calls
import Jukebox.Proofs.Storage.Siblings
/-!
# Where a file lands

A file that is written beside another one and then moved over it may pass through links: the write
follows a link that has the sibling's name, and then that link is moved. What the path leads to in
the end, if it leads to a file at all, has the content that was written (`content_of_landed`).

The argument is about the first time that a walk meets the place that was moved to (`Leads.meets`).
Before that, it is a walk of the file system as it was.
-/
namespace Jukebox.Storage

namespace FileSystem

variable {fs fs' : FileSystem} {purpose : Purpose} {links : Nat} {start place last : Place}
  {names : List Name}

/-- A walk can be taken apart. -/
theorem Leads.split {xs ys : List Name} (leads : Leads fs .target links start (xs ++ ys) last) :
    ∃ middle links', Leads fs .target links start xs middle ∧
      Leads fs .target links' middle ys last := by
  generalize whole : xs ++ ys = names at leads
  have first {links : Nat} {place last : Place} {names : List Name}
      (leads : Leads fs .target links place names last) (whole : [] ++ ys = names) :
      ∃ middle links', Leads fs .target links place [] middle ∧
        Leads fs .target links' middle ys last := by
    obtain rfl : ys = names := whole
    exact ⟨place, links, .here _ _, leads⟩
  induction leads generalizing xs with
  | here links place =>
    obtain ⟨rfl, rfl⟩ := List.append_eq_nil_iff.mp whole
    exact ⟨place, links, .here _ _, .here _ _⟩
  | stay inside idle later ih =>
    cases xs with
    | nil => exact first (.stay inside idle later) whole
    | cons x xs =>
      obtain ⟨rfl, others⟩ := List.cons.inj whole
      obtain ⟨middle, links', before, after⟩ := ih others
      exact ⟨middle, links', .stay inside idle before, after⟩
  | up inside later ih =>
    cases xs with
    | nil => exact first (.up inside later) whole
    | cons x xs =>
      obtain ⟨rfl, others⟩ := List.cons.inj whole
      obtain ⟨middle, links', before, after⟩ := ih others
      exact ⟨middle, links', .up inside before, after⟩
  | @missing links _ _ inside entry absent =>
    cases xs with
    | nil => exact first (.missing inside entry absent) whole
    | cons x xs =>
      obtain ⟨rfl, others⟩ := List.cons.inj whole
      obtain ⟨rfl, rfl⟩ := List.append_eq_nil_iff.mp others
      exact ⟨_, links, .missing inside entry absent, .here _ _⟩
  | link _ _ _ itself => cases itself
  | @follow _ _ _ _ target _ inside entry no_slash there goes_on later ih =>
    cases xs with
    | nil => exact first (.follow inside entry no_slash there goes_on later) whole
    | cons x xs =>
      obtain ⟨rfl, rfl⟩ := List.cons.inj whole
      obtain ⟨middle, links', before, after⟩ := ih (List.append_assoc (steps target) xs ys)
      exact ⟨middle, links',
        .follow inside entry (by rintro ⟨⟨⟩, -⟩) there (by rintro ⟨-, ⟨⟩⟩) before, after⟩
  | enter inside entry no_slash there no_link later ih =>
    cases xs with
    | nil => exact first (.enter inside entry no_slash there no_link later) whole
    | cons x xs =>
      obtain ⟨rfl, others⟩ := List.cons.inj whole
      obtain ⟨middle, links', before, after⟩ := ih others
      exact ⟨middle, links', .enter inside entry (by rintro ⟨⟨⟩, -⟩) there no_link before, after⟩

/-- A file to write is found where a file to read is. -/
theorem Leads.reading (leads : Leads fs .creation links start names last) :
    Leads fs .target links start names last := by
  induction leads with
  | here => exact .here _ _
  | stay inside idle _ ih => exact .stay inside idle ih
  | up inside _ ih => exact .up inside ih
  | missing inside entry absent => exact .missing inside entry absent
  | link _ _ _ itself => cases itself
  | follow inside entry _ there _ _ ih =>
    exact .follow inside entry (by rintro ⟨⟨⟩, -⟩) there (by rintro ⟨-, ⟨⟩⟩) ih
  | enter inside entry _ there no_link _ ih =>
    exact .enter inside entry (by rintro ⟨⟨⟩, -⟩) there no_link ih

/-- File systems that are the same but for a file at a place where there was one or nothing. -/
structure Overwritten (fs : FileSystem) (place : Place) (content : List UInt8) (fs' : FileSystem) :
    Prop where
  before : fs.node? place = none ∨ ∃ old, fs.node? place = some (.file old)
  now : fs'.node? place = some (.file content)
  elsewhere : ∀ q, q ≠ place → fs'.node? q = fs.node? q

namespace Overwritten

variable {content : List UInt8} (written : Overwritten fs place content fs')

include written

theorem kept {q : Place} {node : Node} (there : fs.node? q = some node)
    (no_file : ∀ old, node ≠ .file old) : fs'.node? q = some node := by
  refine (written.elsewhere q ?_).trans there
  rintro rfl
  rcases written.before with absent | ⟨old, file⟩
  · rw [absent] at there
    cases there
  · exact no_file old (Option.some.inj (there.symm.trans file))

/-- What is found is found afterwards, and so is the file itself. -/
theorem leads (leads : Leads fs purpose links start names last)
    (found : last = place ∨ fs.node? last ≠ none) :
    Leads fs' purpose links start names last := by
  have directory {q : Place} (inside : fs.node? q = some .directory) :
      fs'.node? q = some .directory := written.kept inside (by rintro _ ⟨⟩)
  induction leads with
  | here => exact .here _ _
  | stay inside idle _ ih => exact .stay (directory inside) idle (ih found)
  | up inside _ ih => exact .up (directory inside) (ih found)
  | missing inside entry absent =>
    rcases found with rfl | there
    · exact .enter (directory inside) entry (by rintro ⟨-, ⟨⟩⟩) written.now (by rintro _ ⟨⟩)
        (.here _ _)
    · exact absurd absent there
  | link inside entry there itself =>
    exact .link (directory inside) entry (written.kept there (by rintro _ ⟨⟩)) itself
  | follow inside entry no_slash there goes_on _ ih =>
    exact .follow (directory inside) entry no_slash (written.kept there (by rintro _ ⟨⟩)) goes_on
      (ih found)
  | @enter _ parent _ name node _ inside entry no_slash there no_link _ ih =>
    by_cases here : parent ++ [name] = place
    · exact .enter (directory inside) entry no_slash (here ▸ written.now) (by rintro _ ⟨⟩)
        (ih found)
    · exact .enter (directory inside) entry no_slash ((written.elsewhere _ here).trans there)
        no_link (ih found)

end Overwritten

/-- A walk meets a place, or it is a walk of every file system that differs there only. -/
theorem Leads.meets (fs : FileSystem) (same : ∀ q, q ≠ place → fs.node? q = fs'.node? q)
    (outside : fs'.node? place ≠ some .directory)
    (leads : Leads fs' .target links start names last) :
    Leads fs .target links start names last ∨
      ∃ parent name rest links', links' ≤ links ∧ place = parent ++ [name] ∧
        Leads fs' .target links' parent (name :: rest) last := by
  have directory {q : Place} (inside : fs'.node? q = some .directory) :
      fs.node? q = some .directory := by
    refine (same q ?_).trans inside
    rintro rfl
    exact outside inside
  induction leads with
  | here => exact Or.inl (.here _ _)
  | stay inside idle _ ih => exact ih.imp_left fun later => .stay (directory inside) idle later
  | up inside _ ih => exact ih.imp_left fun later => .up (directory inside) later
  | @missing links parent name inside entry absent =>
    by_cases here : parent ++ [name] = place
    · exact Or.inr ⟨parent, name, [], links, le_rfl, here.symm, .missing inside entry absent⟩
    · exact Or.inl (.missing (directory inside) entry ((same _ here).trans absent))
  | link _ _ _ itself => cases itself
  | @follow links parent _ name target rest inside entry no_slash there goes_on later ih =>
    by_cases here : parent ++ [name] = place
    · exact Or.inr ⟨parent, name, rest, links + 1, le_rfl, here.symm,
        .follow inside entry no_slash there goes_on later⟩
    · rcases ih with unmet | ⟨parent, name, rest, links', fewer, met⟩
      · exact Or.inl (.follow (directory inside) entry no_slash ((same _ here).trans there) goes_on
          unmet)
      · exact Or.inr ⟨parent, name, rest, links', Nat.le_succ_of_le fewer, met⟩
  | @enter links parent _ name node rest inside entry no_slash there no_link later ih =>
    by_cases here : parent ++ [name] = place
    · exact Or.inr ⟨parent, name, rest, links, le_rfl, here.symm,
        .enter inside entry no_slash there no_link later⟩
    · exact ih.imp_left fun unmet =>
        .enter (directory inside) entry no_slash ((same _ here).trans there) no_link unmet

theorem node?_erase_self (fs : FileSystem) (filled : place ≠ []) :
    (fs.erase place).node? place = none := by
  rw [node?, if_neg filled, erase, lookup_erased, if_pos rfl]

/-- A step to a link goes on from the directory that the link is in. -/
theorem Leads.of_link {name : Name} {rest : List Name} {target : Path} (entry : Entry name)
    (there : fs.node? (place ++ [name]) = some (.link target))
    (leads : Leads fs .target links place (name :: rest) last) :
    ∃ fewer, fewer < links ∧
      Leads fs .target fewer (if target.isAbsolute then [] else place) (steps target ++ rest)
        last := by
  cases leads with
  | stay _ idle _ => exact absurd idle entry.not_idle
  | up _ _ => exact absurd rfl entry.not_parent
  | missing _ _ absent =>
    rw [absent] at there
    cases there
  | link _ _ _ itself => cases itself
  | follow _ _ _ there' _ later =>
    cases there'.symm.trans there
    exact ⟨_, Nat.lt_succ_self _, later⟩
  | enter _ _ _ there' no_link _ => exact absurd (Option.some.inj (there'.symm.trans there)) (no_link _)

/-- A step to what is neither a link nor a directory is the last one. -/
theorem Leads.of_plain {name : Name} {rest : List Name} (entry : Entry name)
    (no_link : ∀ target, fs.node? (place ++ [name]) ≠ some (.link target))
    (outside : fs.node? (place ++ [name]) ≠ some .directory)
    (leads : Leads fs .target links place (name :: rest) last) : last = place ++ [name] := by
  cases leads with
  | stay _ idle _ => exact absurd idle entry.not_idle
  | up _ _ => exact absurd rfl entry.not_parent
  | missing _ _ _ => rfl
  | link _ _ _ itself => cases itself
  | follow _ _ _ there _ _ => exact absurd there (no_link _)
  | enter _ _ _ _ _ later => exact (later.stuck outside).2

/-- A last step to what is no link ends there. -/
theorem Leads.of_last {name : Name} (entry : Entry name)
    (no_link : ∀ target, fs.node? (place ++ [name]) ≠ some (.link target))
    (leads : Leads fs .target links place [name] last) : last = place ++ [name] := by
  by_cases inside : fs.node? (place ++ [name]) = some .directory
  · have straight : Leads fs .target links place [name] (place ++ [name]) := by
      cases leads with
      | stay _ idle _ => exact absurd idle entry.not_idle
      | up _ _ => exact absurd rfl entry.not_parent
      | missing start entry absent => exact .missing start entry absent
      | link start entry there itself => exact .link start entry there itself
      | follow _ _ _ there _ _ => exact absurd there (no_link _)
      | enter start entry no_slash there no_link _ =>
        exact .enter start entry no_slash there no_link (.here _ _)
    exact straight.unique leads
  · exact leads.of_plain entry no_link inside

structure Moved (fs : FileSystem) (origin : Place) (node : Node) (place : Place)
    (fs' : FileSystem) : Prop where
  found : fs.node? origin = some node
  apart : origin ≠ place
  here : fs'.node? place = some node
  gone : fs'.node? origin = none
  elsewhere : ∀ q, q ≠ place → q ≠ origin → fs'.node? q = fs.node? q

/-- A node that stands for a text in a directory: a file that has it, or a link that leads to one. -/
inductive Carries (fs : FileSystem) (directory : Place) (content : List UInt8) : Node → Prop
  | file : Carries fs directory content (.file content)
  | link {target : Path} {links : Nat} {last : Place}
      (leads : Leads fs .target links (if target.isAbsolute then [] else directory) (steps target)
        last)
      (file : fs.node? last = some (.file content)) :
      Carries fs directory content (.link target)

/-- A node that stands for a text was moved to a path from a sibling's, below one directory. -/
structure Landed (fs : FileSystem) (p : Path) (name other : Name) (content : List UInt8)
    (names beside : List Name) (directory : Place) (node : Node) (fs' : FileSystem) : Prop where
  sane : Sane p
  parts : steps p = names ++ [name]
  entry : Entry name
  leads : Leads fs .target maxLinks (fs.origin p) names directory
  sane_beside : Sane (p.withFileName other)
  parts_beside : steps (p.withFileName other) = beside ++ [other]
  entry_beside : Entry other
  leads_beside : Leads fs .target maxLinks (fs.origin (p.withFileName other)) beside directory
  inside : fs.node? directory = some .directory
  outside : fs.node? (directory ++ [name]) ≠ some .directory
  carries : Carries fs directory content node
  moved : Moved fs (directory ++ [other]) node (directory ++ [name]) fs'
  origin_eq : fs'.origin p = fs.origin p

/-- Where a file was written through a directory, there is the file or a link that leads to it. -/
theorem Overwritten.carries {directory : Place} {name : Name} {content : List UInt8} {node : Node}
    (written : Overwritten fs place content fs') (entry : Entry name)
    (leads : Leads fs' .target links directory [name] place)
    (there : fs'.node? (directory ++ [name]) = some node) : Carries fs' directory content node := by
  by_cases linked : ∃ target, node = .link target
  · obtain ⟨target, rfl⟩ := linked
    obtain ⟨fewer, -, follows⟩ := leads.of_link entry there
    rw [List.append_nil] at follows
    exact .link follows written.now
  · have no_link : ∀ target, fs'.node? (directory ++ [name]) ≠ some (.link target) := by
      rw [there]
      exact fun target same => linked ⟨target, Option.some.inj same⟩
    have now := written.now
    rw [leads.of_last entry no_link, there] at now
    rw [Option.some.inj now]
    exact .file

namespace Moved

variable {origin directory : Place} {node : Node} {name : Name} {content : List UInt8}
  (moved : Moved fs origin node (directory ++ [name]) fs')

include moved

/-- A walk that does not meet the place that was moved to was there before. -/
theorem leads_before (leads : Leads (fs'.erase (directory ++ [name])) .target links start names last)
    (there : (fs'.erase (directory ++ [name])).node? last ≠ none) :
    Leads fs .target links start names last := by
  refine leads.grow (fun q n found => ?_) there
  have apart : q ≠ directory ++ [name] := by
    rintro rfl
    rw [node?_erase_self _ (by simp)] at found
    cases found
  rw [node?_erase_other _ apart] at found
  have apart' : q ≠ origin := by
    rintro rfl
    rw [moved.gone] at found
    cases found
  rw [← moved.elsewhere q apart apart', found]

theorem outside_of_file {q : Place} (file : fs.node? q = some (.file content))
    (no_directory : node ≠ .directory) : fs'.node? q ≠ some .directory := by
  by_cases here : q = directory ++ [name]
  · rw [here, moved.here]
    exact fun same => no_directory (Option.some.inj same)
  by_cases left : q = origin
  · rw [left, moved.gone]
    rintro ⟨⟩
  · rw [moved.elsewhere q here left, file]
    rintro ⟨⟩

/-- A link that was moved leads to the file that it led to, or nowhere. -/
theorem leads_link {target : Path} {further : Nat} {goal : Place} (entry : Entry name)
    (linked : node = .link target)
    (leads : Leads fs .target further (if target.isAbsolute then [] else directory) (steps target)
      goal)
    (file : fs.node? goal = some (.file content))
    (now : Leads fs' .target links (if target.isAbsolute then [] else directory) (steps target)
      last) :
    last = goal ∨ fs'.node? last = none ∨ last = directory ++ [name] := by
  have here := moved.here
  rw [linked] at here
  induction links using Nat.strongRecOn generalizing last with
  | ind links ih =>
    rcases now.meets (fs'.erase (directory ++ [name]))
      (fun q apart => node?_erase_other fs' apart) (by rw [here]; rintro ⟨⟩) with
      unmet | ⟨parent, name', rest, links', fewer, same, met⟩
    · by_cases found : (fs'.erase (directory ++ [name])).node? last = none
      · by_cases taken : last = directory ++ [name]
        · exact Or.inr (Or.inr taken)
        · rw [node?_erase_other _ taken] at found
          exact Or.inr (Or.inl found)
      · exact Or.inl ((moved.leads_before unmet found).unique leads).symm
    · obtain ⟨rfl, same_name⟩ := List.append_inj' same rfl
      obtain rfl : name = name' := List.head_eq_of_cons_eq same_name
      obtain ⟨fewer', less, later⟩ := met.of_link entry here
      obtain ⟨middle, links'', before, after⟩ := later.split
      have ends := ih fewer' (Nat.lt_of_lt_of_le less fewer) before
      have outside : fs'.node? middle ≠ some .directory := by
        rcases ends with rfl | absent | rfl
        · exact moved.outside_of_file file (by rw [linked]; rintro ⟨⟩)
        · rw [absent]
          rintro ⟨⟩
        · rw [here]
          rintro ⟨⟩
      rw [(after.stuck outside).2]
      exact ends

/-- A file behind a link that was moved is the one that the link led to, unless it is in the place
that was moved to. -/
theorem content_behind {target : Path} {further : Nat} {goal : Place} {rest : List Name}
    {found : List UInt8} (entry : Entry name) (linked : node = .link target)
    (leads : Leads fs .target further (if target.isAbsolute then [] else directory) (steps target)
      goal)
    (there : fs.node? goal = some (.file content))
    (now : Leads fs' .target links (if target.isAbsolute then [] else directory)
      (steps target ++ rest) last)
    (file : fs'.node? last = some (.file found)) : last = directory ++ [name] ∨ found = content := by
  have no_directory : node ≠ .directory := by
    rw [linked]
    rintro ⟨⟩
  obtain ⟨middle, links', first, after⟩ := now.split
  have ends := moved.leads_link entry linked leads there first
  have outside : fs'.node? middle ≠ some .directory := by
    rcases ends with rfl | absent | rfl
    · exact moved.outside_of_file there no_directory
    · rw [absent]
      rintro ⟨⟩
    · rw [moved.here]
      exact fun same => no_directory (Option.some.inj same)
  obtain rfl : last = middle := (after.stuck outside).2
  rcases ends with rfl | absent | here
  · by_cases here : last = directory ++ [name]
    · exact Or.inl here
    · have apart : last ≠ origin := by
        rintro rfl
        rw [moved.gone] at file
        cases file
      rw [moved.elsewhere last here apart, there] at file
      cases file
      exact Or.inr rfl
  · rw [absent] at file
    cases file
  · exact Or.inl here

/-- After a move, a path to the place that was moved to leads to the text that was moved, if it
leads to a file. -/
theorem content_eq {found : List UInt8} {further : Nat} (entry : Entry name)
    (carries : Carries fs directory content node)
    (before : Leads fs .target further start names directory)
    (leads : Leads fs' .target links start (names ++ [name]) last)
    (file : fs'.node? last = some (.file found)) : found = content := by
  have no_directory : node ≠ .directory := by
    cases carries <;> rintro ⟨⟩
  have outside : fs'.node? (directory ++ [name]) ≠ some .directory := by
    rw [moved.here]
    exact fun same => no_directory (Option.some.inj same)
  -- there is no more to say once the walk is known to end in the place itself
  have at_place (ends : last = directory ++ [name]) : found = content := by
    rw [ends, moved.here] at file
    cases carries <;> cases file
    rfl
  rcases leads.meets (fs'.erase (directory ++ [name])) (fun q apart => node?_erase_other fs' apart)
    outside with unmet | ⟨parent, name', rest, links', -, same, met⟩
  · obtain ⟨middle, links', first, later⟩ := unmet.split
    have inside : (fs'.erase (directory ++ [name])).node? middle = some .directory := by
      by_contra other
      cases (later.stuck other).1
    have reached := moved.leads_before first (by rw [inside]; rintro ⟨⟩)
    obtain rfl : middle = directory := before.unique reached
    have filled : middle ++ [name] ≠ [] := by simp
    have absent := node?_erase_self fs' filled
    exact at_place (later.of_plain entry (by rw [absent]; rintro _ ⟨⟩) (by rw [absent]; rintro ⟨⟩))
  · obtain ⟨rfl, same_name⟩ := List.append_inj' same rfl
    obtain rfl : name = name' := List.head_eq_of_cons_eq same_name
    cases carries with
    | file =>
      have here := moved.here
      exact at_place (met.of_plain entry (by rw [here]; rintro _ ⟨⟩) outside)
    | link reaches there =>
      obtain ⟨fewer, -, later⟩ := met.of_link entry moved.here
      exact (moved.content_behind entry rfl reaches there later file).elim at_place id

end Moved

theorem content_ok {p : Path} {content : List UInt8} :
    fs.content p = .ok content ↔ ∃ place, fs.locate .target p = .ok (place, some (.file content)) := by
  rw [FileSystem.content, stat]
  rcases fs.locate .target p with e | ⟨place, _ | node⟩
  · simp
  · simp
  · cases node <;> simp

/-- What a path leads to has the content it had, or that of the file that was written. -/
theorem Overwritten.content_eq {p : Path} {old content : List UInt8}
    (written : Overwritten fs place content fs') (origin_eq : fs'.origin p = fs.origin p)
    (before : fs.content p = .ok old) :
    fs'.content p = .ok old ∨ fs'.content p = .ok content := by
  obtain ⟨goal, found⟩ := content_ok.mp before
  obtain ⟨sane, leads, file⟩ := leads_of_locate found
  have leads' := written.leads leads (Or.inr (by rw [← file]; rintro ⟨⟩))
  rw [← origin_eq] at leads'
  have found' := leads'.locate_eq sane
  by_cases here : goal = place
  · rw [here, written.now] at found'
    exact Or.inr (content_ok.mpr ⟨_, found'⟩)
  · rw [written.elsewhere goal here, ← file] at found'
    exact Or.inl (content_ok.mpr ⟨_, found'⟩)

end FileSystem

namespace Disk

open FileSystem

variable {fs fs₁ fs' : FileSystem} {p : Path} {name other : Name} {content : List UInt8}

/-- A write puts a file where there was one or nothing. -/
theorem overwritten_of_writeFile {q : Path} (wrote : (writeFile q content).run fs = (.ok (), fs₁)) :
    ∃ place, Overwritten fs place content fs₁ ∧
      Leads fs .creation maxLinks (fs.origin q) (steps q) place ∧
      ∀ p : Path, fs₁.origin p = fs.origin p := by
  obtain ⟨place, node, found, free, rfl⟩ := writeFile_ran wrote
  obtain ⟨-, leads, here⟩ := leads_of_locate found
  have before : fs.node? place = none ∨ ∃ old, fs.node? place = some (.file old) :=
    here ▸ free
  have filled : place ≠ [] := by
    rintro rfl
    rcases before with absent | ⟨old, file⟩
    · cases absent
    · cases file
  exact ⟨place, ⟨before, node?_put_self fs filled _, fun q apart => node?_put_other fs apart _⟩,
    leads, origin_put place _⟩

/-- What is found under a name in a directory, once a file was written to a path that leads there. -/
theorem carries_of_writeFile {q : Path} {directory : Place} {node : Node}
    (wrote : (writeFile q content).run fs = (.ok (), fs₁)) (parts : steps q = names ++ [other])
    (leads : Leads fs₁ .target maxLinks (fs₁.origin q) names directory) (entry : Entry other)
    (there : fs₁.node? (directory ++ [other]) = some node) : Carries fs₁ directory content node := by
  obtain ⟨place, written, goes, origin_eq⟩ := overwritten_of_writeFile wrote
  -- the write went through the directory, and from there by a link or straight
  have goes := (written.leads goes (Or.inl rfl)).reading
  rw [← origin_eq, parts] at goes
  obtain ⟨middle, links, first, later⟩ := goes.split
  obtain rfl : middle = directory := leads.unique first
  exact written.carries entry later there

theorem moved_of_put {origin goal : Place} {node : Node} (there : fs.node? origin = some node)
    (apart : origin ≠ goal) (origin_below : origin ≠ []) (goal_below : goal ≠ []) :
    Moved fs origin node goal ((fs.erase origin).put goal node) := by
  refine ⟨there, apart, node?_put_self _ goal_below _, ?_, fun q other here => ?_⟩
  · rw [node?_put_other _ apart, node?_erase_self _ origin_below]
  · rw [node?_put_other _ other, node?_erase_other _ here]

/-- A file that was written beside another one and moved over it lands there. -/
theorem landed_of_runs (named : p.fileName? = some name) (normal : NormalName other)
    (apart : other ≠ name)
    (wrote : (writeFile (p.withFileName other) content).run fs = (.ok (), fs₁))
    (ran : (renameFile (p.withFileName other) p).run fs₁ = (.ok (), fs')) :
    ∃ names beside directory node,
      Landed fs₁ p name other content names beside directory node fs' := by
  obtain ⟨origin, node, goal, present, last, found_source, found_target, last_name, no_dots,
    no_trailing, free, rfl⟩ := renameFile_ran ran
  have ends : EndsIn (p.withFileName other).bytes other := by
    rw [Path.withFileName, named]
    exact Path.push_endsIn _ _
  obtain ⟨beside, middle, parts', leads', inside, sane', entry', below', there'⟩ :=
    leads_of_locate_name ends normal found_source
  subst below'
  have carries : Carries fs₁ middle content node :=
    carries_of_writeFile wrote parts' leads' entry' there'.symm
  have no_directory : node ≠ .directory := by
    cases carries <;> rintro ⟨⟩
  obtain ⟨ends', normal', plain⟩ := target_of_renameFile last_name no_dots fun trailing =>
    no_trailing ⟨no_directory, trailing⟩
  obtain rfl : name = last := Option.some.inj (named.symm.trans (ends'.fileName?_eq normal'))
  rw [plain] at found_target
  obtain ⟨names, directory, parts, leads, -, sane, entry, below, present_eq⟩ :=
    leads_of_locate_name ends' normal' found_target
  obtain rfl : middle = directory := same_directory named normal parts parts' leads leads'
  subst below
  have origin_apart : middle ++ [other] ≠ middle ++ [name] :=
    fun same => apart (List.head_eq_of_cons_eq (List.append_cancel_left same))
  refine ⟨names, beside, middle, node, ?_⟩
  constructor
  · exact sane
  · exact parts
  · exact entry
  · exact leads
  · exact sane'
  · exact parts'
  · exact entry'
  · exact leads'
  · exact inside
  · exact fun there => free ⟨present_eq.trans there, no_directory⟩
  · exact carries
  · exact moved_of_put there'.symm origin_apart (by simp) (by simp)
  · rw [origin_put, origin_erase]

/-- When a file that was written beside another one has been moved over it, the path leads to the
content that was written, or to no file. -/
theorem content_of_landed (named : p.fileName? = some name) (normal : NormalName other)
    (apart : other ≠ name)
    (wrote : (writeFile (p.withFileName other) content).run fs = (.ok (), fs₁))
    (ran : (renameFile (p.withFileName other) p).run fs₁ = (.ok (), fs')) {found : List UInt8}
    (readable : fs'.content p = .ok found) : found = content := by
  obtain ⟨names, beside, directory, node, landed⟩ := landed_of_runs named normal apart wrote ran
  obtain ⟨goal, located⟩ := content_ok.mp readable
  obtain ⟨-, now, file⟩ := leads_of_locate located
  rw [landed.parts, landed.origin_eq] at now
  exact landed.moved.content_eq landed.entry landed.carries landed.leads now file.symm

/-- No file has become another one but for the content that was written. -/
theorem files_of_landed (named : p.fileName? = some name) (normal : NormalName other)
    (apart : other ≠ name)
    (wrote : (writeFile (p.withFileName other) content).run fs = (.ok (), fs₁))
    (ran : (renameFile (p.withFileName other) p).run fs₁ = (.ok (), fs')) {q : Place}
    {found : List UInt8} (file : fs'.node? q = some (.file found)) :
    fs₁.node? q = some (.file found) ∨ found = content := by
  obtain ⟨names, beside, directory, node, landed⟩ := landed_of_runs named normal apart wrote ran
  by_cases here : q = directory ++ [name]
  · rw [here, landed.moved.here] at file
    cases landed.carries with
    | file => exact Or.inr (Node.file.inj (Option.some.inj file)).symm
    | link _ _ => cases file
  by_cases left : q = directory ++ [other]
  · rw [left, landed.moved.gone] at file
    cases file
  · exact Or.inl ((landed.moved.elsewhere q here left).symm.trans file)

theorem bind_error {α β : Type} {d : Disk α} {next : α → Disk β} {e : SystemError}
    (ran : (d >>= next).run fs = (.error e, fs')) :
    d.run fs = (.error e, fs') ∨
      ∃ a fs₁, d.run fs = (.ok a, fs₁) ∧ (next a).run fs₁ = (.error e, fs') := by
  rw [bind_run] at ran
  rcases first : d.run fs with ⟨e' | a, fs₁⟩
  · rw [first] at ran
    cases ran
    exact Or.inl rfl
  · rw [first] at ran
    exact Or.inr ⟨a, fs₁, rfl, ran⟩

theorem ask_error {α : Type} {question : FileSystem → Except SystemError α} {e : SystemError}
    (ran : (ask question).run fs = (.error e, fs')) : fs' = fs := by
  rw [ask_run] at ran
  exact (congrArg Prod.snd ran).symm

/-- A write that fails changes nothing. -/
theorem writeFile_failed {q : Path} {e : SystemError}
    (ran : (writeFile q content).run fs = (.error e, fs')) : fs' = fs := by
  rcases bind_error ran with asked | ⟨⟨place, node⟩, fs₂, asked, wrote⟩
  · exact ask_error asked
  · obtain ⟨-, rfl⟩ := Prod.mk.inj ((ask_run _ fs).symm.trans asked)
    rcases node with _ | _ | _ | _ | _ <;> cases wrote <;> rfl

/-- A move that fails changes nothing. -/
theorem renameFile_failed {source target : Path} {e : SystemError}
    (ran : (renameFile source target).run fs = (.error e, fs')) : fs' = fs := by
  rcases bind_error ran with asked | ⟨⟨origin, node⟩, fs₂, asked, moved⟩
  · exact ask_error asked
  obtain ⟨-, rfl⟩ := Prod.mk.inj ((ask_run _ fs).symm.trans asked)
  cases node with
  | none =>
    cases moved
    rfl
  | some node =>
    dsimp only at moved
    split at moved
    · cases moved
      rfl
    rcases bind_error moved with asked' | ⟨⟨place, present⟩, fs₃, asked', moved⟩
    · exact ask_error asked'
    obtain ⟨-, rfl⟩ := Prod.mk.inj ((ask_run _ fs).symm.trans asked')
    dsimp only at moved
    split at moved
    · cases moved
      rfl
    split at moved
    · cases moved
      rfl
    split at moved
    · cases moved
      rfl
    · cases moved

end Disk

end Jukebox.Storage
