import Mathlib.Tactic
import Jukebox.Config.Store
import Jukebox.Proofs.Json.Members
/-!
# Sections of a document

Setting the section of one id is seen under that id and nowhere else. Of several sections that are
set one after the other, the last one of an id counts.
-/
namespace Jukebox.Config.Store

variable {store : Store} {answers : List (String × Option Json.Value)}

theorem setSection_sorted (sorted : store.document.Sorted) (key : String)
    (value : Option Json.Value) : (store.setSection key value).document.Sorted :=
  sorted.put key value

theorem section?_setSection (sorted : store.document.Sorted) (key : String)
    (value : Option Json.Value) : (store.setSection key value).section? key = value :=
  Json.Members.find?_put_self sorted key value

theorem section?_setSection_other {key other : String} (apart : other ≠ key)
    (value : Option Json.Value) :
    (store.setSection key value).section? other = store.section? other :=
  Json.Members.find?_put_other apart value store.document

/-- Sections of two ids can be set in either order. -/
theorem setSection_comm (sorted : store.document.Sorted) {key other : String} (apart : key ≠ other)
    (first second : Option Json.Value) :
    (store.setSection other second).setSection key first =
      (store.setSection key first).setSection other second := by
  simp only [setSection, Json.Members.put_comm sorted apart]

/-- Setting the section that is there changes nothing. -/
theorem setSection_of_section? (sorted : store.document.Sorted) {key : String}
    {value : Option Json.Value} (there : store.section? key = value) :
    store.setSection key value = store := by
  rw [setSection, Json.Members.put_of_find? sorted there]

def filled (store : Store) (answers : List (String × Option Json.Value)) : Store :=
  answers.foldl (fun s (id, v) => s.setSection id v) store

theorem filled_cons (answer : String × Option Json.Value) :
    store.filled (answer :: answers) = (store.setSection answer.1 answer.2).filled answers := rfl

theorem filled_path (store : Store) (answers : List (String × Option Json.Value)) :
    (store.filled answers).path = store.path := by
  induction answers generalizing store with
  | nil => rfl
  | cons answer rest ih => exact ih (store.setSection answer.1 answer.2)

theorem filled_sorted (sorted : store.document.Sorted) :
    (store.filled answers).document.Sorted := by
  induction answers generalizing store with
  | nil => exact sorted
  | cons answer rest ih =>
    rw [filled_cons]
    exact ih (setSection_sorted sorted answer.1 answer.2)

/-- A section can be set before or after those of other ids. -/
theorem filled_setSection (sorted : store.document.Sorted) {key : String}
    (silent : key ∉ answers.map Prod.fst) (value : Option Json.Value) :
    (store.setSection key value).filled answers = (store.filled answers).setSection key value := by
  induction answers generalizing store with
  | nil => rfl
  | cons answer rest ih =>
    obtain ⟨first, others⟩ := not_or.mp (List.mem_cons.not.mp silent)
    rw [filled_cons, filled_cons, ← setSection_comm sorted first,
      ih (setSection_sorted sorted answer.1 answer.2) others]

/-- An id that nothing is set for keeps its section. -/
theorem section?_filled_other {key : String} (silent : key ∉ answers.map Prod.fst) :
    (store.filled answers).section? key = store.section? key := by
  induction answers generalizing store with
  | nil => rfl
  | cons answer rest ih =>
    obtain ⟨first, others⟩ := not_or.mp (List.mem_cons.not.mp silent)
    rw [filled_cons, ih others, section?_setSection_other first]

/-- What is set last for an id is its section, or that it has none. -/
theorem section?_filled (sorted : store.document.Sorted)
    {before later : List (String × Option Json.Value)} {key : String} {value : Option Json.Value}
    (last : key ∉ later.map Prod.fst) :
    (store.filled (before ++ (key, value) :: later)).section? key = value := by
  induction before generalizing store with
  | nil => rw [List.nil_append, filled_cons, section?_filled_other last, section?_setSection sorted]
  | cons answer rest ih =>
    rw [List.cons_append, filled_cons]
    exact ih (setSection_sorted sorted answer.1 answer.2)

end Jukebox.Config.Store
