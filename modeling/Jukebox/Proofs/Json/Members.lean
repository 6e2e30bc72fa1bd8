import Mathlib.Tactic
import Jukebox.Json.Value
/-!
# Members of an object

Setting and removing a key changes what is found under that key and nothing else, and keeps the
members in order. Members that are in order hold each key once.
-/
namespace Jukebox.Json.Members

theorem ne_of_before {a b : String} (before : a < b) : b ≠ a :=
  fun same => String.lt_irrefl a (same ▸ before)

variable {key other : String} {value : Value} {ms : Members}

theorem find?_set_self (key : String) (value : Value) (ms : Members) :
    find? key (set key value ms) = some value := by
  induction ms with
  | nil => simp [set, find?]
  | cons m rest ih =>
    obtain ⟨k, v⟩ := m
    rw [set]
    split
    · simp [find?]
    split
    · simp [find?]
    · rw [find?, if_neg (fun same => ‹¬key = k› same.symm), ih]

theorem find?_set_other (apart : other ≠ key) (value : Value) (ms : Members) :
    find? other (set key value ms) = find? other ms := by
  induction ms with
  | nil => simp [set, find?, Ne.symm apart]
  | cons m rest ih =>
    obtain ⟨k, v⟩ := m
    rw [set]
    split
    · rw [find?, if_neg (Ne.symm apart)]
    split
    · rename_i same
      rw [find?, if_neg (Ne.symm apart), find?, if_neg (same ▸ Ne.symm apart)]
    · rw [find?, find?, ih]

theorem find?_erase_other (apart : other ≠ key) (ms : Members) :
    find? other (erase key ms) = find? other ms := by
  induction ms with
  | nil => rfl
  | cons m rest ih =>
    obtain ⟨k, v⟩ := m
    rw [erase]
    split
    · rename_i same
      rw [find?, if_neg (same ▸ Ne.symm apart)]
    · rw [find?, find?, ih]

/-- A key that is not listed is not found. -/
theorem find?_eq_none (absent : ∀ m ∈ ms, m.1 ≠ key) : find? key ms = none := by
  induction ms with
  | nil => rfl
  | cons m rest ih =>
    rw [find?, if_neg (absent m List.mem_cons_self)]
    exact ih fun m' there => absent m' (List.mem_cons_of_mem m there)

theorem mem_of_mem_set {m : String × Value} (there : m ∈ set key value ms) :
    m = (key, value) ∨ m ∈ ms := by
  induction ms with
  | nil => exact Or.inl (List.mem_singleton.mp there)
  | cons first rest ih =>
    obtain ⟨k, v⟩ := first
    rw [set] at there
    split at there
    · exact List.mem_cons.mp there
    split at there
    · exact (List.mem_cons.mp there).imp_right (List.mem_cons_of_mem _)
    · rcases List.mem_cons.mp there with rfl | later
      · exact Or.inr List.mem_cons_self
      · exact (ih later).imp_right (List.mem_cons_of_mem _)

theorem mem_of_mem_erase {m : String × Value} (there : m ∈ erase key ms) : m ∈ ms := by
  induction ms with
  | nil => exact there
  | cons first rest ih =>
    obtain ⟨k, v⟩ := first
    rw [erase] at there
    split at there
    · exact List.mem_cons_of_mem _ there
    · rcases List.mem_cons.mp there with rfl | later
      · exact List.mem_cons_self
      · exact List.mem_cons_of_mem _ (ih later)

theorem mem_of_mem_put {m : String × Value} {value : Option Value} (there : m ∈ put key value ms) :
    (∃ v, value = some v ∧ m = (key, v)) ∨ m ∈ ms := by
  cases value with
  | none => exact Or.inr (mem_of_mem_erase there)
  | some v => exact (mem_of_mem_set there).imp_left fun same => ⟨v, rfl, same⟩

namespace Sorted

theorem nil : Sorted [] := List.Pairwise.nil

/-- The first key is before all others. -/
theorem head_lt {m m' : String × Value} (sorted : Sorted (m :: ms)) (there : m' ∈ ms) :
    m.1 < m'.1 :=
  List.rel_of_pairwise_cons sorted there

theorem tail {m : String × Value} (sorted : Sorted (m :: ms)) : Sorted ms :=
  List.Pairwise.of_cons sorted

protected theorem set (sorted : Sorted ms) (key : String) (value : Value) :
    Sorted (Members.set key value ms) := by
  induction ms with
  | nil => exact List.pairwise_singleton _ _
  | cons m rest ih =>
    obtain ⟨k, v⟩ := m
    rw [Members.set]
    split
    · rename_i before
      refine List.Pairwise.cons (fun m' there => ?_) sorted
      rcases List.mem_cons.mp there with rfl | later
      · exact before
      · exact String.lt_trans before (sorted.head_lt later)
    split
    · rename_i same
      refine List.Pairwise.cons (fun m' there => ?_) sorted.tail
      rw [same]
      exact sorted.head_lt there
    · rename_i not_before apart
      refine List.Pairwise.cons (fun m' there => ?_) (ih sorted.tail)
      rcases mem_of_mem_set there with rfl | old
      · by_contra not_after
        exact apart (String.le_antisymm (String.not_lt.mp not_after) (String.not_lt.mp not_before))
      · exact sorted.head_lt old

protected theorem erase (sorted : Sorted ms) (key : String) : Sorted (Members.erase key ms) := by
  induction ms with
  | nil => exact sorted
  | cons m rest ih =>
    obtain ⟨k, v⟩ := m
    rw [Members.erase]
    split
    · exact sorted.tail
    · exact List.Pairwise.cons (fun m' there => sorted.head_lt (mem_of_mem_erase there))
        (ih sorted.tail)

protected theorem put (sorted : Sorted ms) (key : String) (value : Option Value) :
    Sorted (Members.put key value ms) := by
  cases value with
  | none => exact sorted.erase key
  | some v => exact sorted.set key v

end Sorted

theorem find?_erase_self (sorted : Sorted ms) (key : String) : find? key (erase key ms) = none := by
  induction ms with
  | nil => rfl
  | cons m rest ih =>
    obtain ⟨k, v⟩ := m
    rw [erase]
    split
    · rename_i same
      rw [← same]
      exact find?_eq_none fun m' there => ne_of_before (sorted.head_lt there)
    · rw [find?, if_neg ‹_›, ih sorted.tail]

/-- A section that was put in is found, and none is found where it was removed. -/
theorem find?_put_self (sorted : Sorted ms) (key : String) (value : Option Value) :
    find? key (put key value ms) = value := by
  cases value with
  | none => exact find?_erase_self sorted key
  | some v => exact find?_set_self key v ms

theorem find?_put_other (apart : other ≠ key) (value : Option Value) (ms : Members) :
    find? other (put key value ms) = find? other ms := by
  cases value with
  | none => exact find?_erase_other apart ms
  | some v => exact find?_set_other apart v ms

/-- What is found is listed. -/
theorem mem_of_find? (found : find? key ms = some value) : (key, value) ∈ ms := by
  induction ms with
  | nil => cases found
  | cons m rest ih =>
    obtain ⟨k, v⟩ := m
    rw [find?] at found
    split at found
    · rename_i same
      cases found
      rw [same]
      exact List.mem_cons_self
    · exact List.mem_cons_of_mem _ (ih found)

/-- What is listed is found. -/
theorem find?_of_mem (sorted : Sorted ms) {m : String × Value} (there : m ∈ ms) :
    find? m.1 ms = some m.2 := by
  induction ms with
  | nil => cases there
  | cons first rest ih =>
    rcases List.mem_cons.mp there with rfl | later
    · rw [find?, if_pos rfl]
    · rw [find?, if_neg (ne_of_before (sorted.head_lt later)).symm, ih sorted.tail later]

/-- The head is not among the others. -/
theorem Sorted.find?_head (sorted : Sorted ((key, value) :: ms)) : find? key ms = none :=
  find?_eq_none fun _ there => ne_of_before (sorted.head_lt there)

/-- Members that are in order are determined by what is found under each key. -/
theorem Sorted.ext {ms' : Members} (sorted : Sorted ms) (sorted' : Sorted ms')
    (same : ∀ key, find? key ms = find? key ms') : ms = ms' := by
  induction ms generalizing ms' with
  | nil =>
    cases ms' with
    | nil => rfl
    | cons m rest => simpa [find?] using same m.1
  | cons m rest ih =>
    obtain ⟨k, v⟩ := m
    cases ms' with
    | nil => simpa [find?] using same k
    | cons m' rest' =>
      obtain ⟨k', v'⟩ := m'
      have there : (k, v) ∈ (k', v') :: rest' := by
        apply mem_of_find?
        rw [← same, find?, if_pos rfl]
      have there' : (k', v') ∈ (k, v) :: rest := by
        apply mem_of_find?
        rw [same, find?, if_pos rfl]
      -- either first member is also first in the other list, or each key is before the other
      obtain ⟨rfl, rfl⟩ : k = k' ∧ v = v' := by
        rcases List.mem_cons.mp there with first | later
        · exact Prod.mk.inj first
        rcases List.mem_cons.mp there' with first' | later'
        · exact (Prod.mk.inj first').imp Eq.symm Eq.symm
        · exact absurd (sorted.head_lt later') (String.lt_asymm (sorted'.head_lt later))
      have others (key : String) : find? key rest = find? key rest' := by
        by_cases here : k = key
        · rw [← here, sorted.find?_head, sorted'.find?_head]
        · simpa [find?, here] using same key
      rw [ih sorted.tail sorted'.tail others]

/-- Different keys can be put in either order. -/
theorem put_comm (sorted : Sorted ms) (apart : key ≠ other) (first second : Option Value) :
    put key first (put other second ms) = put other second (put key first ms) := by
  apply Sorted.ext
  · exact (sorted.put other second).put key first
  · exact (sorted.put key first).put other second
  · intro k
    by_cases here : k = key
    · subst here
      rw [find?_put_self (sorted.put other second), find?_put_other apart, find?_put_self sorted]
    by_cases there : k = other
    · subst there
      rw [find?_put_other here, find?_put_self sorted, find?_put_self (sorted.put key first)]
    · rw [find?_put_other here, find?_put_other there, find?_put_other there, find?_put_other here]

/-- Putting in what is there already changes nothing. -/
theorem put_of_find? (sorted : Sorted ms) {value : Option Value} (there : find? key ms = value) :
    put key value ms = ms := by
  apply Sorted.ext
  · exact sorted.put key value
  · exact sorted
  · intro k
    by_cases here : k = key
    · rw [here, find?_put_self sorted, there]
    · rw [find?_put_other here]

/-- A key behind all others is set at the end. -/
theorem set_of_last (value : Value) (last : ∀ m ∈ ms, m.1 < key) :
    set key value ms = ms ++ [(key, value)] := by
  induction ms with
  | nil => rfl
  | cons m rest ih =>
    obtain ⟨k, v⟩ := m
    have before : k < key := last (k, v) List.mem_cons_self
    rw [set, if_neg (String.lt_asymm before), if_neg (ne_of_before before),
      ih fun m' there => last m' (List.mem_cons_of_mem _ there)]
    rfl

/-- The next key of members that are in order goes behind those before it. -/
theorem Sorted.set_next {k : String} {v : Value} {seen rest : Members}
    (sorted : Sorted (seen ++ (k, v) :: rest)) : Members.set k v seen = seen ++ [(k, v)] :=
  set_of_last v fun m there =>
    (List.pairwise_append.mp sorted).2.2 m there (k, v) List.mem_cons_self

section Selections

theorem find?_filter (keep : String → Bool) (key : String) (ms : Members) :
    find? key (ms.filter fun m => keep m.1) = if keep key then find? key ms else none := by
  induction ms with
  | nil => simp [find?]
  | cons m rest ih =>
    obtain ⟨k, v⟩ := m
    by_cases here : k = key
    · subst here
      by_cases kept : keep k = true
      · simp [kept, find?]
      · simp [kept, ih]
    · by_cases kept : keep k = true
      · simp [kept, find?, here, ih]
      · simp [kept, find?, here, ih]

theorem find?_append (key : String) (first later : Members) :
    find? key (first ++ later) = (find? key first).or (find? key later) := by
  induction first with
  | nil => simp [find?]
  | cons m rest ih =>
    rw [List.cons_append, find?, find?, ih]
    split <;> simp

/-- Where no key is listed twice, what is listed is what is found. -/
theorem find?_eq_some_iff (distinct : (ms.map Prod.fst).Nodup) :
    find? key ms = some value ↔ (key, value) ∈ ms := by
  constructor
  · exact mem_of_find?
  · intro there
    induction ms with
    | nil => cases there
    | cons m rest ih =>
      obtain ⟨absent, others⟩ := List.nodup_cons.mp distinct
      rcases List.mem_cons.mp there with rfl | later
      · rw [find?, if_pos rfl]
      · have apart : m.1 ≠ key := by
          rintro rfl
          exact absent (List.mem_map.mpr ⟨_, later, rfl⟩)
        rw [find?, if_neg apart]
        exact ih others later

/-- The order of members does not matter if no key is listed twice. -/
theorem find?_perm {ms' : Members} (perm : ms.Perm ms') (distinct : (ms.map Prod.fst).Nodup)
    (key : String) : find? key ms = find? key ms' := by
  have distinct' : (ms'.map Prod.fst).Nodup := (perm.map Prod.fst).nodup_iff.mp distinct
  apply Option.ext
  intro value
  rw [find?_eq_some_iff distinct, find?_eq_some_iff distinct', perm.mem_iff]

theorem set_filter (keep : String → Bool) (sorted : Sorted ms) (key : String) (value : Value) :
    (set key value ms).filter (fun m => keep m.1) =
      if keep key then set key value (ms.filter fun m => keep m.1)
      else ms.filter fun m => keep m.1 := by
  have kept_sorted : Sorted (ms.filter fun m => keep m.1) := List.Pairwise.filter _ sorted
  by_cases kept : keep key = true
  · rw [if_pos kept]
    apply Sorted.ext
    · exact List.Pairwise.filter _ (sorted.set key value)
    · exact kept_sorted.set key value
    · intro k
      by_cases here : k = key
      · rw [here, find?_filter, if_pos kept, find?_set_self, find?_set_self]
      · rw [find?_filter, find?_set_other here, find?_set_other here, find?_filter]
  · rw [if_neg kept]
    apply Sorted.ext
    · exact List.Pairwise.filter _ (sorted.set key value)
    · exact kept_sorted
    · intro k
      by_cases here : k = key
      · rw [here, find?_filter, find?_filter, if_neg kept, if_neg kept]
      · rw [find?_filter, find?_filter, find?_set_other here]

/-- Collecting some of the pairs gives some of the members. -/
theorem ofList_filter (keep : String → Bool) (pairs : List (String × Value)) :
    ofList (pairs.filter fun m => keep m.1) = (ofList pairs).filter fun m => keep m.1 := by
  have from_seen (seen : Members) (sorted : Sorted seen) :
      (pairs.filter fun m => keep m.1).foldl (fun ms p => set p.1 p.2 ms)
          (seen.filter fun m => keep m.1) =
        (pairs.foldl (fun ms p => set p.1 p.2 ms) seen).filter fun m => keep m.1 := by
    induction pairs generalizing seen with
    | nil => rfl
    | cons p rest ih =>
      rw [List.foldl_cons, ← ih _ (sorted.set p.1 p.2), set_filter keep sorted]
      by_cases kept : keep p.1 = true
      · simp [kept]
      · simp [kept]
  exact from_seen [] .nil

theorem ofList_sorted (pairs : List (String × Value)) : Sorted (ofList pairs) := by
  have from_seen (seen : Members) (sorted : Sorted seen) :
      Sorted (pairs.foldl (fun ms p => set p.1 p.2 ms) seen) := by
    induction pairs generalizing seen with
    | nil => exact sorted
    | cons p rest ih => exact ih _ (sorted.set p.1 p.2)
  exact from_seen [] .nil

/-- Pairs of different keys are found among the members that are collected from them. -/
theorem find?_ofList {pairs : List (String × Value)} (distinct : (pairs.map Prod.fst).Nodup)
    (key : String) : find? key (ofList pairs) = find? key pairs := by
  have from_seen (seen : Members) :
      find? key (pairs.foldl (fun ms p => set p.1 p.2 ms) seen) =
        (find? key pairs).or (find? key seen) := by
    induction pairs generalizing seen with
    | nil => rfl
    | cons p rest ih =>
      obtain ⟨k, v⟩ := p
      obtain ⟨absent, others⟩ := List.nodup_cons.mp distinct
      rw [List.foldl_cons, ih others, find?]
      by_cases here : k = key
      · subst here
        have none_later : find? k rest = none := by
          apply find?_eq_none
          rintro m there rfl
          exact absent (List.mem_map.mpr ⟨m, there, rfl⟩)
        simp [none_later, find?_set_self]
      · rw [if_neg here, find?_set_other (Ne.symm here)]
  rw [ofList, from_seen []]
  simp [find?]

end Selections

end Jukebox.Json.Members
