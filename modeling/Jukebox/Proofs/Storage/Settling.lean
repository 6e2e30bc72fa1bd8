import Mathlib.Tactic
import Jukebox.Proofs.Storage.Landing
/-!
# Landing twice

A file that is written beside another one and moved over it may have to pass through links, and
what it leaves may not be a file at all (`Disk.content_of_landed`). But when the sibling is no link,
what is written goes to the sibling's place itself, and moving it lands it (`Disk.content_of_settled`).
It is no link once the path leads to a file after a first landing, since the sibling's place was just
moved away from (`Disk.settled_of_landed`).
-/
namespace Jukebox.Storage

namespace FileSystem

variable {fs fs' : FileSystem} {links : Nat} {place last : Place} {content : List UInt8}

/-- A walk to a name starts in a directory. -/
theorem Leads.inside {purpose : Purpose} {name : Name}
    (leads : Leads fs purpose links place [name] last) : fs.node? place = some .directory := by
  cases leads <;> assumption

/-- A name that leads to a file blocks every walk. -/
theorem blocked_of_reached {parent : Place} {name : Name} (entry : Entry name)
    (leads : Leads fs .target links parent [name] last)
    (file : fs.node? last = some (.file content)) : Blocked fs (parent ++ [name]) where
  outside := by
    intro inside
    have ends : last = parent ++ [name] := leads.of_last entry (by simp [inside])
    simp [ends, inside] at file
  no_link := by
    intro parent' name' target links' last' same there leads' inside
    obtain ⟨rfl, same_name⟩ := List.append_inj' same rfl
    obtain ⟨fewer, -, follows⟩ := leads.of_link entry there
    rw [List.append_nil] at follows
    have one : last = last' := leads'.unique follows
    simp [← one, file] at inside

/-- Where a link or a file was moved to blocks every walk, if it stood for a text. -/
theorem Moved.blocked {origin directory : Place} {node : Node} {name : Name}
    (moved : Moved fs origin node (directory ++ [name]) fs') (entry : Entry name)
    (carries : Carries fs directory content node) : Blocked fs' (directory ++ [name]) := by
  have here := moved.here
  cases carries with
  | file => exact blocked_of_plain (by simp [here]) (by simp [here])
  | @link target further goal reaches file =>
    constructor
    · simp [here]
    · intro parent name' target' links' last' same there leads' inside
      obtain ⟨rfl, -⟩ := List.append_inj' same rfl
      rw [here] at there
      obtain rfl : target = target' := Node.link.inj (Option.some.inj there)
      -- the link still leads to the file that it led to, or nowhere
      rcases moved.leads_link entry rfl reaches file leads' with rfl | absent | rfl
      · exact moved.outside_of_file file (by simp) inside
      · simp [absent] at inside
      · simp [here] at inside

/-- A walk to a directory after a move was the same walk before it, if the place moved to blocks
walks now. -/
theorem Moved.unmoved {origin : Place} {node : Node} {start : Place} {names : List Name}
    (moved : Moved fs origin node place fs') (blocked : Blocked fs' place)
    (leads : Leads fs' .target links start names last) (inside : fs'.node? last = some .directory) :
    Leads fs .target links start names last := by
  have gone := moved.gone
  refine (leads.frame (fun q => ?_) inside).1
  by_cases taken : q = place
  · exact Or.inl (taken ▸ blocked)
  by_cases left : q = origin
  · exact Or.inl (left ▸ blocked_of_plain (by simp [gone]) (by simp [gone]))
  · exact Or.inr (moved.elsewhere q taken left).symm

/-- A walk to a directory is left alone when a file is moved to a place that blocks walks. -/
theorem Moved.left_alone {origin : Place} {start : Place} {names : List Name}
    (moved : Moved fs origin (.file content) place fs') (blocked : Blocked fs place)
    (leads : Leads fs .target links start names last) (inside : fs.node? last = some .directory) :
    Leads fs' .target links start names last ∧ fs'.node? last = some .directory := by
  have found := moved.found
  refine leads.frame (fun q => ?_) inside
  by_cases taken : q = place
  · exact Or.inl (taken ▸ blocked)
  by_cases left : q = origin
  · exact Or.inl (left ▸ blocked_of_plain (by simp [found]) (by simp [found]))
  · exact Or.inr (moved.elsewhere q taken left)

/-- A walk to a directory after a write was the same walk before it. -/
theorem Overwritten.unwritten {start : Place} {names : List Name}
    (written : Overwritten fs place content fs')
    (leads : Leads fs' .target links start names last) (inside : fs'.node? last = some .directory) :
    Leads fs .target links start names last := by
  have now := written.now
  refine (leads.frame (fun q => ?_) inside).1
  by_cases here : q = place
  · exact Or.inl (here ▸ blocked_of_plain (by simp [now]) (by simp [now]))
  · exact Or.inr (written.elsewhere q here).symm

/-- A path lies in a directory in which no link has the name of the sibling, and if there is a link
at the path itself, then it leads to a file. -/
structure Settled (fs : FileSystem) (p : Path) (name other : Name) (names : List Name)
    (directory : Place) : Prop where
  parts : steps p = names ++ [name]
  leads : Leads fs .target maxLinks (fs.origin p) names directory
  inside : fs.node? directory = some .directory
  no_link : ∀ target, fs.node? (directory ++ [other]) ≠ some (.link target)
  file_link : ∀ target, fs.node? (directory ++ [name]) = some (.link target) →
    ∃ links last content, Leads fs .target links directory [name] last ∧
      fs.node? last = some (.file content)

namespace Settled

variable {p : Path} {name other : Name} {names : List Name} {directory : Place}

/-- A new directory changes nothing. -/
theorem put_directory (settled : Settled fs p name other names directory)
    (free : fs.node? place = none) :
    Settled (fs.put place .directory) p name other names directory := by
  have kept (q : Place) (node : Node) (there : fs.node? q = some node) :
      (fs.put place .directory).node? q = some node := by
    have apart : q ≠ place := by
      rintro rfl
      simp [free] at there
    rw [node?_put_other fs apart, there]
  have before {q : Name} {target : Path}
      (there : (fs.put place .directory).node? (directory ++ [q]) = some (.link target)) :
      fs.node? (directory ++ [q]) = some (.link target) := by
    by_cases here : directory ++ [q] = place
    · have filled : place ≠ [] := by simp [← here]
      simp [here, node?_put_self fs filled] at there
    · rwa [node?_put_other fs here] at there
  have inside := settled.inside
  constructor
  · exact settled.parts
  · rw [origin_put]
    exact settled.leads.grow kept (by simp [inside])
  · exact kept _ _ inside
  · exact fun target there => settled.no_link target (before there)
  · intro target there
    obtain ⟨links, last, old, leads, file⟩ := settled.file_link target (before there)
    exact ⟨links, last, old, leads.grow kept (by simp [file]), kept _ _ file⟩

/-- Nor does a file that is written. -/
theorem overwritten (settled : Settled fs p name other names directory)
    (written : Overwritten fs place content fs') (origin_eq : fs'.origin p = fs.origin p) :
    Settled fs' p name other names directory := by
  have before {q : Name} {target : Path}
      (there : fs'.node? (directory ++ [q]) = some (.link target)) :
      fs.node? (directory ++ [q]) = some (.link target) := by
    by_cases here : directory ++ [q] = place
    · simp [here, written.now] at there
    · rwa [written.elsewhere _ here] at there
  have inside := settled.inside
  constructor
  · exact settled.parts
  · rw [origin_eq]
    exact written.leads settled.leads (Or.inr (by simp [inside]))
  · exact written.kept inside (by rintro _ ⟨⟩)
  · exact fun target there => settled.no_link target (before there)
  · intro target there
    obtain ⟨links, last, old, leads, file⟩ := settled.file_link target (before there)
    have reached := written.leads leads (Or.inr (by simp [file]))
    by_cases here : last = place
    · exact ⟨links, last, content, reached, here ▸ written.now⟩
    · exact ⟨links, last, old, reached, (written.elsewhere _ here).trans file⟩

/-- What is at the path blocks every walk, unless it is a directory. -/
theorem blocked (settled : Settled fs p name other names directory) (entry : Entry name)
    (outside : fs.node? (directory ++ [name]) ≠ some .directory) :
    Blocked fs (directory ++ [name]) := by
  by_cases linked : ∃ target, fs.node? (directory ++ [name]) = some (.link target)
  · obtain ⟨target, there⟩ := linked
    obtain ⟨links, last, old, leads, file⟩ := settled.file_link target there
    exact blocked_of_reached entry leads file
  · exact blocked_of_plain outside (not_exists.mp linked)

end Settled

end FileSystem

namespace Disk

open FileSystem

variable {fs fs₁ fs' : FileSystem} {p : Path} {name other : Name} {content found : List UInt8}

/-- When a file was written beside another one and moved over it, and the path leads to a file, then
nothing is in the sibling's place. -/
theorem settled_of_landed (named : p.fileName? = some name) (normal : NormalName other)
    (apart : other ≠ name)
    (wrote : (writeFile (p.withFileName other) content).run fs = (.ok (), fs₁))
    (ran : (renameFile (p.withFileName other) p).run fs₁ = (.ok (), fs'))
    (readable : fs'.content p = .ok found) :
    ∃ names directory, Settled fs' p name other names directory := by
  obtain ⟨names, beside, directory, node, landed⟩ := landed_of_runs named normal apart wrote ran
  have moved := landed.moved
  obtain ⟨goal, located⟩ := content_ok.mp readable
  obtain ⟨-, leads, file⟩ := leads_of_locate located
  rw [landed.parts] at leads
  obtain ⟨middle, links, first, later⟩ := leads.split
  -- the names before the last one lead to where they led before the move
  have unmoved :=
    moved.unmoved (moved.blocked landed.entry landed.carries) first later.inside
  rw [landed.origin_eq] at unmoved
  obtain rfl : middle = directory := landed.leads.unique unmoved
  refine ⟨names, middle, ?_⟩
  constructor
  · exact landed.parts
  · exact first
  · exact later.inside
  · simp [moved.gone]
  · exact fun _ _ => ⟨links, goal, found, later, file.symm⟩

/-- When the sibling is no link and a link at the path itself leads to a file, a file that is about
to be written and moved is in nobody's way. -/
theorem settled_of_runs (named : p.fileName? = some name) (normal : NormalName other)
    (apart : other ≠ name)
    (no_link : ∀ place target,
      fs.locate .itself (p.withFileName other) ≠ .ok (place, some (.link target)))
    (file_link : ∀ place target, fs.locate .itself p = .ok (place, some (.link target)) →
      ∃ links last found, fs.walk .target links place.dropLast [name] =
        .ok (last, some (.file found)))
    (wrote : (writeFile (p.withFileName other) content).run fs = (.ok (), fs₁))
    (ran : (renameFile (p.withFileName other) p).run fs₁ = (.ok (), fs')) :
    ∃ names directory, Settled fs p name other names directory := by
  obtain ⟨place, written, leads, origin_eq⟩ := overwritten_of_writeFile wrote
  obtain ⟨names, beside, directory, node, landed⟩ := landed_of_runs named normal apart wrote ran
  have goes := leads.reading
  rw [landed.parts_beside] at goes
  obtain ⟨middle, links, first, later⟩ := goes.split
  have inside := later.inside
  -- the sibling's directory is the same before and after the write
  have first' := written.leads first (Or.inr (by simp [inside]))
  rw [← origin_eq] at first'
  obtain rfl : middle = directory := landed.leads_beside.unique first'
  have before := written.unwritten landed.leads landed.inside
  rw [origin_eq] at before
  refine ⟨names, middle, ?_⟩
  constructor
  · exact landed.parts
  · exact before
  · exact inside
  · intro target there
    have located : fs.locate .itself (p.withFileName other) = _ :=
      first.locate_name landed.sane_beside landed.entry_beside (Or.inl rfl) landed.parts_beside
        inside
    rw [there] at located
    exact no_link _ target located
  · intro target there
    have located : fs.locate .itself p = _ :=
      before.locate_name landed.sane landed.entry (Or.inl rfl) landed.parts inside
    rw [there] at located
    obtain ⟨links, last, old, walked⟩ := file_link _ target located
    rw [List.dropLast_concat] at walked
    obtain ⟨reached, file⟩ := leads_of_walk walked
    exact ⟨links, last, old, reached, file.symm⟩

/-- What is written beside a settled path and moved there is what the path leads to. -/
theorem content_of_settled {names : List Name} {directory : Place}
    (settled : Settled fs p name other names directory) (named : p.fileName? = some name)
    (normal : NormalName other) (apart : other ≠ name)
    (wrote : (writeFile (p.withFileName other) content).run fs = (.ok (), fs₁))
    (ran : (renameFile (p.withFileName other) p).run fs₁ = (.ok (), fs')) :
    fs'.content p = .ok content := by
  obtain ⟨place, written, -, origin_eq⟩ := overwritten_of_writeFile wrote
  have settled₁ := settled.overwritten written (origin_eq p)
  obtain ⟨names', beside, directory', node, landed⟩ := landed_of_runs named normal apart wrote ran
  obtain rfl : names = names' :=
    List.append_cancel_right (settled.parts.symm.trans landed.parts)
  obtain rfl : directory' = directory := settled₁.leads.unique landed.leads
  have moved := landed.moved
  -- no link is in the sibling's place, so the file itself is moved
  obtain rfl : node = .file content := by
    cases landed.carries with
    | file => rfl
    | link => exact absurd moved.found (settled₁.no_link _)
  obtain ⟨leads, inside⟩ :=
    moved.left_alone (settled₁.blocked landed.entry landed.outside) landed.leads landed.inside
  rw [← landed.origin_eq] at leads
  have here := moved.here
  have located : fs'.locate .target p = _ :=
    leads.locate_name landed.sane landed.entry (Or.inr (by simp [here])) landed.parts inside
  rw [here] at located
  exact content_ok.mpr ⟨_, located⟩

end Disk

end Jukebox.Storage
