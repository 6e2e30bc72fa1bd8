import Mathlib.Tactic
import Jukebox.Proofs.Storage.Walking
/-!
# Calls that change a file system

What writing a file and moving one have done when they succeed, each as one equation between the
file systems before and after. Making directories may fail half way, so for it only what every
change keeps is stated.
-/
namespace Jukebox.Storage.Disk

open FileSystem

variable {α β : Type} {fs fs' : FileSystem} {p source target : Path} {content : List UInt8}

theorem bind_run (d : Disk α) (next : α → Disk β) (fs : FileSystem) :
    (d >>= next).run fs =
      (ExceptT.bindCont next (d.run fs).1 : StateM FileSystem (Except SystemError β))
        (d.run fs).2 := rfl

theorem bind_ok {d : Disk α} {next : α → Disk β} {b : β}
    (ran : (d >>= next).run fs = (.ok b, fs')) :
    ∃ a fs₁, d.run fs = (.ok a, fs₁) ∧ (next a).run fs₁ = (.ok b, fs') := by
  rw [bind_run] at ran
  rcases first : d.run fs with ⟨e | a, fs₁⟩
  · rw [first] at ran
    cases ran
  · rw [first] at ran
    exact ⟨a, fs₁, rfl, ran⟩

theorem bind_of_ok {d : Disk α} {next : α → Disk β} {a : α} {fs₁ : FileSystem}
    (ran : d.run fs = (.ok a, fs₁)) : (d >>= next).run fs = (next a).run fs₁ := by
  rw [bind_run, ran]
  rfl

theorem bind_of_error {d : Disk α} {next : α → Disk β} {e : SystemError} {fs₁ : FileSystem}
    (ran : d.run fs = (.error e, fs₁)) : (d >>= next).run fs = (.error e, fs₁) := by
  rw [bind_run, ran]
  rfl

theorem ask_run (question : FileSystem → Except SystemError α) (fs : FileSystem) :
    (ask question).run fs = (question fs, fs) := by
  have settled : (ask question).run fs = (ask fun _ => question fs).run fs := rfl
  rw [settled]
  cases question fs <;> rfl

theorem writeFile_ran (ran : (writeFile p content).run fs = (.ok (), fs')) :
    ∃ place node, fs.locate .creation p = .ok (place, node) ∧
      (node = none ∨ ∃ old, node = some (.file old)) ∧ fs' = fs.put place (.file content) := by
  obtain ⟨⟨place, node⟩, fs₁, asked, wrote⟩ := bind_ok ran
  obtain ⟨found, rfl⟩ := Prod.mk.inj ((ask_run _ fs).symm.trans asked)
  refine ⟨place, node, found, ?_⟩
  rcases node with _ | old | _ | _ | _
  · cases wrote
    exact ⟨Or.inl rfl, rfl⟩
  · cases wrote
    exact ⟨Or.inr ⟨old, rfl⟩, rfl⟩
  all_goals cases wrote

theorem writeFile_of_free {place : Place} (content : List UInt8)
    (found : fs.locate .creation p = .ok (place, none)) :
    (writeFile p content).run fs = (.ok (), fs.put place (.file content)) := by
  rw [writeFile, bind_of_ok (by rw [ask_run, found])]
  rfl

/-- Whatever comes of a call, it keeps a property of the file system. -/
def Keeps (P : FileSystem → Prop) (d : Disk α) : Prop :=
  ∀ fs, P fs → P (d.run fs).2

section

variable {P : FileSystem → Prop}

theorem Keeps.of_result (r : Except SystemError α) : Keeps P (fun fs => (r, fs) : Disk α) :=
  fun _ before => before

theorem Keeps.bind {d : Disk α} {next : α → Disk β} (first : Keeps P d)
    (later : ∀ a, Keeps P (next a)) : Keeps P (d >>= next) := by
  intro fs before
  rw [bind_run]
  have between := first fs before
  cases (d.run fs).1 with
  | error e => exact between
  | ok a => exact later a _ between

theorem Keeps.tryCatch {d : Disk α} {handler : SystemError → Disk α} (first : Keeps P d)
    (later : ∀ e, Keeps P (handler e)) : Keeps P (tryCatch d handler) := by
  intro fs before
  have between := first fs before
  simp only [MonadExcept.tryCatch, tryCatchThe, MonadExceptOf.tryCatch, ExceptT.tryCatch,
    ExceptT.run, ExceptT.mk, Bind.bind, StateT.bind] at between ⊢
  rcases outcome : d fs with ⟨e | a, fs₁⟩
  · rw [outcome] at between
    exact later e fs₁ between
  · rw [outcome] at between
    exact between

theorem unlessDirectory_keeps (p : Path) (e : SystemError) : Keeps P (unlessDirectory p e) := by
  intro fs before
  have unfolded : (unlessDirectory p e).run fs =
      (if fs.isDirectory p then pure () else throw e : Disk Unit).run fs := rfl
  rw [unfolded]
  split <;> exact before

variable (grows : ∀ fs p place, fs.locate .itself p = .ok (place, none) → P fs →
  P (fs.put place .directory))

include grows

theorem makeDirectory_keeps (p : Path) : Keeps P (makeDirectory p) := by
  intro fs before
  rw [makeDirectory]
  rcases found : fs.locate .itself (withoutTrailing p) with e | ⟨place, _ | node⟩
  · rw [bind_of_error (by rw [ask_run, found])]
    exact before
  · rw [bind_of_ok (by rw [ask_run, found])]
    exact grows fs _ place found before
  · rw [bind_of_ok (by rw [ask_run, found])]
    exact before

theorem ensureDirectory_keeps (p : Path) : Keeps P (ensureDirectory p) :=
  .tryCatch (makeDirectory_keeps grows p) (unlessDirectory_keeps p)

/-- Making directories puts nothing else anywhere. -/
theorem makeDirectories_keeps (fuel : Nat) (p : Path) : Keeps P (makeDirectories fuel p) := by
  induction fuel generalizing p with
  | zero => exact ensureDirectory_keeps grows p
  | succ fuel ih =>
    rw [makeDirectories]
    split
    · exact .of_result _
    · refine .tryCatch (makeDirectory_keeps grows p) fun e => ?_
      split
      · split
        · exact .bind (ih _) fun _ => ensureDirectory_keeps grows p
        · exact .of_result _
      · exact unlessDirectory_keeps p e

end

/-- The directories that a path of one name lies in are there. -/
theorem makeDirectories_nowhere (fuel : Nat) (fs : FileSystem) :
    ((makeDirectories fuel ⟨[]⟩).run fs).2 = fs := by
  cases fuel with
  | zero =>
    have nowhere : Keeps (· = fs) (makeDirectory ⟨[]⟩) := by
      rintro g rfl
      rw [makeDirectory, bind_of_error (by rw [ask_run]; rfl)]
    exact Keeps.tryCatch nowhere (unlessDirectory_keeps _) fs rfl
  | succ fuel => rfl

theorem renameFile_ran (ran : (renameFile source target).run fs = (.ok (), fs')) :
    ∃ origin node place present last,
      fs.locate .itself source = .ok (origin, some node) ∧
      fs.locate .itself ⟨(FileSystem.withoutTrailing target).bytes⟩ = .ok (place, present) ∧
      ((pieces target.bytes).filter (· ≠ [])).getLast? = some last ∧
      ¬(last = [dot] ∨ last = [dot, dot]) ∧
      ¬(node ≠ .directory ∧ target.bytes.getLast? = some slash) ∧
      ¬(present = some .directory ∧ node ≠ .directory) ∧
      fs' = (fs.erase origin).put place node := by
  obtain ⟨⟨origin, node⟩, fs₁, asked, moved⟩ := bind_ok ran
  obtain ⟨found, rfl⟩ := Prod.mk.inj ((ask_run _ fs).symm.trans asked)
  cases node with
  | none => cases moved
  | some node =>
    dsimp only at moved
    split at moved
    · cases moved
    · rename_i last names
      obtain ⟨⟨place, present⟩, fs₂, asked', moved⟩ := bind_ok moved
      obtain ⟨found', rfl⟩ := Prod.mk.inj ((ask_run _ fs).symm.trans asked')
      dsimp only at moved
      split at moved
      · cases moved
      split at moved
      · cases moved
      split at moved
      · cases moved
      · cases moved
        exact ⟨origin, node, place, present, last, found, found', names, ‹_›, ‹_›, ‹_›, rfl⟩

theorem renameFile_of_found {origin place : Place} {node : Node} {present : Option Node}
    {last : Name} (found_source : fs.locate .itself source = .ok (origin, some node))
    (last_name : ((pieces target.bytes).filter (· ≠ [])).getLast? = some last)
    (found_target : fs.locate .itself ⟨(withoutTrailing target).bytes⟩ = .ok (place, present))
    (no_dots : ¬(last = [dot] ∨ last = [dot, dot]))
    (no_trailing : ¬(node ≠ .directory ∧ target.bytes.getLast? = some slash))
    (free : ¬(present = some .directory ∧ node ≠ .directory)) :
    (renameFile source target).run fs = (.ok (), (fs.erase origin).put place node) := by
  rw [renameFile, bind_of_ok (by rw [ask_run, found_source])]
  dsimp only
  rw [last_name]
  dsimp only
  rw [bind_of_ok (by rw [ask_run, found_target])]
  dsimp only
  rw [if_neg no_dots, if_neg no_trailing, if_neg free]
  rfl

/-- A path that a file can be moved to ends in a name, and is looked up as it is. -/
theorem target_of_renameFile {last : Name}
    (names : ((pieces target.bytes).filter (· ≠ [])).getLast? = some last)
    (no_dots : ¬(last = [dot] ∨ last = [dot, dot]))
    (no_trailing : target.bytes.getLast? ≠ some slash) :
    EndsIn target.bytes last ∧ NormalName last ∧
      (⟨(withoutTrailing target).bytes⟩ : Path) = target := by
  obtain ⟨name, no_slash, ends⟩ := exists_last target.bytes
  have filled : name ≠ [] := by
    rintro rfl
    rcases ends with whole | ⟨xs, whole⟩
    · rw [whole] at names
      cases names
    · exact no_trailing (by rw [whole]; simp)
  obtain ⟨before, parts⟩ := ends.pieces_eq no_slash
  obtain rfl : name = last := by
    rw [parts] at names
    simpa [filled] using names
  obtain ⟨no_dot, no_dots⟩ := not_or.mp no_dots
  refine ⟨ends, ⟨filled, no_dot, no_dots, no_slash⟩, ?_⟩
  obtain ⟨bytes⟩ := target
  rcases List.eq_nil_or_concat bytes with rfl | ⟨xs, b, rfl⟩
  · rfl
  · rw [List.concat_eq_append] at no_trailing ⊢
    have other : b ≠ slash := by simpa using no_trailing
    simp [withoutTrailing, other]

end Jukebox.Storage.Disk
