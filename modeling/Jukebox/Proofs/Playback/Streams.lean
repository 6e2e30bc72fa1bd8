import Jukebox.Proofs.Playback.Rehearsal
/-!
# Streams of the engine at the output

The output only sees calls: streams are added and removed. `Accounted` ties a record of calls to the
streams that are held. It is kept by every section of the engine as long as the output gives each
stream a number of its own, so every stream the engine ever registered is either held by one of its
two sessions or was removed once.
-/
namespace Jukebox.Playback

def Call.added? : Call → Option StreamId
  | .added s => some s
  | _ => none

def Call.removed? : Call → Option StreamId
  | .removed s => some s
  | _ => none

def addedIn (calls : List Call) : List StreamId := calls.filterMap Call.added?

/-- Streams that were unregistered, in order. -/
def removedIn (calls : List Call) : List StreamId := calls.filterMap Call.removed?

/-- Streams that were registered and not unregistered. -/
def registeredIn (calls : List Call) : List StreamId :=
  (addedIn calls).filter fun s => s ∉ removedIn calls

@[simp] theorem addedIn_nil : addedIn [] = [] := rfl

@[simp] theorem removedIn_nil : removedIn [] = [] := rfl

@[simp] theorem addedIn_cons (c : Call) (calls : List Call) :
    addedIn (c :: calls) = c.added?.toList ++ addedIn calls := by
  cases adds : c.added? <;> simp [addedIn, adds]

@[simp] theorem removedIn_cons (c : Call) (calls : List Call) :
    removedIn (c :: calls) = c.removed?.toList ++ removedIn calls := by
  cases removes : c.removed? <;> simp [removedIn, removes]

@[simp] theorem addedIn_append (calls more : List Call) :
    addedIn (calls ++ more) = addedIn calls ++ addedIn more := by
  simp [addedIn]

@[simp] theorem removedIn_append (calls more : List Call) :
    removedIn (calls ++ more) = removedIn calls ++ removedIn more := by
  simp [removedIn]

@[simp] theorem addedIn_dropped (s : Option Session) : addedIn (dropped s) = [] := by
  cases s <;> rfl

@[simp] theorem removedIn_dropped (s : Option Session) :
    removedIn (dropped s) = (s.map Session.stream).toList := by
  cases s <;> rfl

theorem mem_removedIn {calls : List Call} {s : StreamId} :
    s ∈ removedIn calls ↔ .removed s ∈ calls := by
  refine ⟨fun gone => ?_, fun there => List.mem_filterMap.mpr ⟨.removed s, there, rfl⟩⟩
  obtain ⟨c, there, names⟩ := List.mem_filterMap.mp gone
  cases c <;> cases names
  exact there

theorem fresh_of_append {calls more : List Call} (fresh : (addedIn (calls ++ more)).Nodup) :
    (addedIn calls).Nodup := by
  rw [addedIn_append] at fresh
  exact (List.nodup_append.mp fresh).1

/-- The streams of the sessions an engine holds. -/
def Engine.held (e : Engine) : List StreamId :=
  e.streams.1.toList ++ e.streams.2.toList

structure Accounted (calls : List Call) (held : List StreamId) : Prop where
  /-- Registered and not unregistered are exactly the streams held. -/
  registered : (registeredIn calls).Perm held
  /-- No stream is held twice. -/
  distinct : held.Nodup
  /-- Never more than two streams are registered at a time. -/
  bounded : ∀ before, before <+: calls → (registeredIn before).length ≤ 2
  /-- No stream is unregistered twice. -/
  once : (removedIn calls).Nodup
  /-- A stream is unregistered only after it was registered. -/
  ordered : ∀ before s after, calls = before ++ .removed s :: after → s ∈ addedIn before

namespace Accounted

variable {calls : List Call} {held : List StreamId}

theorem nothing : Accounted [] [] where
  registered := .nil
  distinct := .nil
  bounded before first := by
    obtain rfl := List.prefix_nil.mp first
    exact Nat.zero_le 2
  once := .nil
  ordered before s after split := by simp at split

/-- Only streams that were registered are unregistered. -/
theorem removed_added (acc : Accounted calls held) : ∀ s ∈ removedIn calls, s ∈ addedIn calls := by
  intro s gone
  obtain ⟨before, after, split⟩ := List.append_of_mem (mem_removedIn.mp gone)
  rw [split, addedIn_append]
  exact List.mem_append_left _ (acc.ordered before s after split)

theorem held_iff (acc : Accounted calls held) (s : StreamId) :
    s ∈ held ↔ s ∈ addedIn calls ∧ s ∉ removedIn calls := by
  rw [← acc.registered.mem_iff, registeredIn, List.mem_filter, decide_eq_true_iff]

theorem few (acc : Accounted calls held) : held.length ≤ 2 := by
  rw [← acc.registered.length_eq]
  exact acc.bounded calls (List.prefix_refl calls)

/-- One more call keeps the account if the streams registered after it are those held then and it
unregisters only a stream that was held. -/
private theorem extend {c : Call} {held' : List StreamId} (acc : Accounted calls held)
    (registered : (registeredIn (calls ++ [c])).Perm held') (distinct : held'.Nodup)
    (few : held'.length ≤ 2) (owned : ∀ s, c.removed? = some s → s ∈ held) :
    Accounted (calls ++ [c]) held' where
  registered := registered
  distinct := distinct
  bounded before first := by
    rcases List.prefix_concat_iff.mp first with whole | shorter
    · rw [whole, registered.length_eq]
      exact few
    · exact acc.bounded before shorter
  once := by
    cases gone : c.removed? with
    | none => simpa [gone] using acc.once
    | some s =>
      have new := ((acc.held_iff s).mp (owned s gone)).2
      have apart : ∀ t ∈ removedIn calls, t ≠ s := fun t there same => new (same ▸ there)
      simpa [gone, List.nodup_append, acc.once] using apart
  ordered before s after split := by
    rcases List.eq_nil_or_concat after with rfl | ⟨rest, last, rfl⟩
    · obtain ⟨rfl, same⟩ := List.append_inj' split rfl
      cases same
      exact ((acc.held_iff s).mp (owned s rfl)).1
    · rw [List.concat_eq_append, ← List.cons_append, ← List.append_assoc] at split
      exact acc.ordered before s rest (List.append_inj' split rfl).1

/-- A call that neither registers nor unregisters changes nothing. -/
theorem other {c : Call} (acc : Accounted calls held) (adds : c.added? = none)
    (removes : c.removed? = none) : Accounted (calls ++ [c]) held := by
  have same : registeredIn (calls ++ [c]) = registeredIn calls := by
    simp [registeredIn, adds, removes]
  refine acc.extend (same ▸ acc.registered) acc.distinct acc.few ?_
  intro s names
  rw [removes] at names
  cases names

/-- A stream with a number of its own is held once it is registered. -/
theorem add {s : StreamId} (acc : Accounted calls held) (fresh : s ∉ addedIn calls)
    (room : held.length ≤ 1) : Accounted (calls ++ [.added s]) (s :: held) := by
  have new : s ∉ removedIn calls := fun gone => fresh (acc.removed_added s gone)
  have one_more : registeredIn (calls ++ [.added s]) = registeredIn calls ++ [s] := by
    simp [registeredIn, Call.added?, Call.removed?, new]
  refine acc.extend ?_ ?_ ?_ ?_
  · rw [one_more]
    exact (List.perm_append_singleton s _).trans (acc.registered.cons s)
  · exact List.nodup_cons.mpr ⟨fun there => fresh ((acc.held_iff s).mp there).1, acc.distinct⟩
  · exact Nat.succ_le_succ room
  · rintro t ⟨⟩

/-- The first of the streams held is no longer held once it is unregistered. -/
theorem remove {s : StreamId} (acc : Accounted calls (s :: held)) :
    Accounted (calls ++ [.removed s]) held := by
  have apart := List.nodup_cons.mp acc.distinct
  have one_less : registeredIn (calls ++ [.removed s]) = (registeredIn calls).filter (· ≠ s) := by
    simp [registeredIn, Call.added?, Call.removed?, List.filter_filter, Bool.and_comm]
  have others : (s :: held).filter (· ≠ s) = held := by
    simpa [List.filter_eq_self] using fun t there (same : t = s) => apart.1 (same ▸ there)
  refine acc.extend ?_ apart.2 (Nat.le_of_succ_le acc.few) ?_
  · rw [one_less]
    exact others ▸ acc.registered.filter _
  · rintro t ⟨⟩
    exact List.mem_cons_self

theorem perm {held' : List StreamId} (acc : Accounted calls held) (same : held.Perm held') :
    Accounted calls held' :=
  ⟨acc.registered.trans same, same.nodup_iff.mp acc.distinct, acc.bounded, acc.once, acc.ordered⟩

/-- Emptying a slot gives up the stream it held. -/
theorem drop {s : Option Session}
    (acc : Accounted calls ((s.map Session.stream).toList ++ held)) :
    Accounted (calls ++ dropped s) held := by
  cases s with
  | none => rwa [dropped_none, List.append_nil]
  | some s => exact acc.remove

theorem drop_last {s : Option Session} (acc : Accounted calls (s.map Session.stream).toList) :
    Accounted (calls ++ dropped s) [] :=
  drop (by rwa [List.append_nil])

end Accounted

namespace Engine

theorem held_eq (e : Engine) : e.held =
    (e.current.map Session.stream).toList ++ (e.previous.map Session.stream).toList := rfl

variable {e e' : Engine} {calls made : List Call}

/-- Dropping both sessions leaves nothing held. -/
theorem dropped_accounted (acc : Accounted calls e.held) :
    Accounted (calls ++ (dropped e.current ++ dropped e.previous)) [] := by
  have current : Accounted (calls ++ dropped e.current) (e.previous.map Session.stream).toList :=
    acc.drop
  rw [← List.append_assoc]
  exact current.drop_last

theorem leaving_accounted (keep : Bool) (acc : Accounted calls e.held) :
    Accounted (calls ++ e.leaving keep) (e.left keep).held := by
  have previous : Accounted (calls ++ dropped e.previous) (e.current.map Session.stream).toList :=
    (acc.perm List.perm_append_comm).drop
  cases keep with
  | true =>
    rw [leaving, if_pos rfl, List.append_nil]
    exact previous
  | false =>
    rw [leaving, if_neg Bool.false_ne_true, ← List.append_assoc]
    exact previous.drop_last

/-- Starting an entry in an empty slot holds the stream that is registered for it. -/
theorem Starts.accounted {index : Nat} {r : Except Refusal Unit} (start : e.Starts index r e' made)
    (empty : e.current = none) (acc : Accounted calls e.held)
    (fresh : (addedIn (calls ++ made)).Nodup) : Accounted (calls ++ made) e'.held := by
  cases start with
  | absent no => rwa [List.append_nil]
  | unopened here reason => exact acc.other rfl rfl
  | @refused entry here file reason =>
    have opened : Accounted (calls ++ [.opened entry.path (some file)]) e.held := acc.other rfl rfl
    rw [List.append_cons]
    exact opened.other rfl rfl
  | @started entry here file stream =>
    have opened : Accounted (calls ++ [.opened entry.path (some file)]) e.held := acc.other rfl rfl
    have new : stream ∉ addedIn (calls ++ [.opened entry.path (some file)]) := by
      have apart : (addedIn calls).Nodup ∧ ∀ s ∈ addedIn calls, s ≠ stream := by
        simpa [empty, Call.added?, List.nodup_append] using fresh
      simpa [Call.added?] using fun there => apart.2 stream there rfl
    have room : e.held.length ≤ 1 := by
      rw [held_eq, empty]
      cases e.previous <;> simp
    have added := opened.add new room
    have played := added.other (c := .played stream) rfl rfl
    rw [empty]
    simpa [held_eq, landed, empty] using played

theorem Scans.accounted {indices : List Nat} (scan : e.Scans indices e' made)
    (empty : e.current = none) (acc : Accounted calls e.held)
    (fresh : (addedIn (calls ++ made)).Nodup) : Accounted (calls ++ made) e'.held := by
  induction scan generalizing calls with
  | exhausted => rwa [List.append_nil]
  | passed start _ ih =>
    rw [← List.append_assoc] at fresh ⊢
    exact ih (start.accounted empty acc (fresh_of_append fresh)) fresh
  | found start => exact start.accounted empty acc fresh

theorem Advances.accounted {d : Direction} {keep : Bool} (advance : e.Advances d keep e' made)
    (acc : Accounted calls e.held) (fresh : (addedIn (calls ++ made)).Nodup) :
    Accounted (calls ++ made) e'.held := by
  cases advance with
  | idle no => rwa [List.append_nil]
  | moved here scan =>
    rw [← List.append_assoc] at fresh ⊢
    exact scan.accounted rfl (leaving_accounted keep acc) fresh

theorem Reclaims.accounted (reclaim : e.Reclaims e' made) (acc : Accounted calls e.held) :
    Accounted (calls ++ made) e'.held := by
  cases reclaim with
  | empty no => rwa [List.append_nil]
  | waiting there => exact acc.other rfl rfl
  | @drained s there =>
    have asked : Accounted (calls ++ [.askedDrained s.stream true]) e.held := acc.other rfl rfl
    rw [List.append_cons]
    rw [held_eq, there] at asked
    simpa [held_eq] using (asked.perm List.perm_append_comm).remove

theorem Ticks.accounted {moved : Bool} (tick : e.Ticks moved e' made)
    (acc : Accounted calls e.held) (fresh : (addedIn (calls ++ made)).Nodup) :
    Accounted (calls ++ made) e'.held := by
  cases tick with
  | idle reclaim no => exact reclaim.accounted acc
  | playing reclaim there =>
    rw [← List.append_assoc]
    exact (reclaim.accounted acc).other rfl rfl
  | @finished e₁ _ reclaimed more s status reclaim there ended advance =>
    have asked : Accounted (calls ++ reclaimed ++ [.askedStatus s.file status]) e₁.held :=
      (reclaim.accounted acc).other rfl rfl
    rw [← List.append_assoc, List.append_cons] at fresh ⊢
    exact advance.accounted asked fresh

theorem Removes.accounted {index : Nat} {r : Except Refusal Unit}
    (remove : e.Removes index r e' made) (acc : Accounted calls e.held) :
    Accounted (calls ++ made) e'.held := by
  cases remove with
  | absent outside => rwa [List.append_nil]
  | current inside here => exact dropped_accounted acc
  | other inside elsewhere => rwa [List.append_nil]

theorem Plays.accounted {index : Option Nat} {r : Except Refusal Unit}
    (play : e.Plays index r e' made) (acc : Accounted calls e.held)
    (fresh : (addedIn (calls ++ made)).Nodup) : Accounted (calls ++ made) e'.held := by
  cases play with
  | refused no => rwa [List.append_nil]
  | tried target start =>
    rw [← List.append_assoc] at fresh ⊢
    exact start.accounted rfl (dropped_accounted acc) fresh

theorem Toggles.accounted (toggle : e.Toggles e' made) (acc : Accounted calls e.held) :
    Accounted (calls ++ made) e'.held := by
  cases toggle with
  | idle no => rwa [List.append_nil]
  | paused there on => exact acc.other rfl rfl
  | resumed there off => exact acc.other rfl rfl

end Engine

/-- No section loses a stream, gives one up twice or holds a third. -/
theorem Effect.accounted {e e' : Engine} {c : Command} {r : Except Refusal Unit}
    {calls made : List Call} (effect : Effect e c r e' made) (acc : Accounted calls e.held)
    (fresh : (addedIn (calls ++ made)).Nodup) : Accounted (calls ++ made) e'.held := by
  cases effect with
  | add path tags => rwa [List.append_nil]
  | remove removes => exact removes.accounted acc
  | flush => exact Engine.dropped_accounted acc
  | play plays => exact plays.accounted acc fresh
  | togglePause toggles => exact toggles.accounted acc
  | stop => exact Engine.dropped_accounted acc
  | next advances => exact advances.accounted acc fresh
  | prev advances => exact advances.accounted acc fresh
  | seekNothing secs no => rwa [List.append_nil]
  | seek secs r there => exact acc.other rfl rfl
  | setSettings settings => rwa [List.append_nil]
  | tick ticks => exact ticks.accounted acc fresh
  | status picture => rwa [List.append_nil]
  | look => rwa [List.append_nil]

theorem Run.accounted {ω : Type} {h : Host ω} {settings : Config.Music} {e : Engine}
    {turns : List Turn} (run : Run h (.new settings) turns e)
    (fresh : (addedIn (callsOf turns)).Nodup) : Accounted (callsOf turns) e.held := by
  induction run with
  | start => exact .nothing
  | turn _ takes ih =>
    rw [callsOf_append, callsOf_singleton] at fresh ⊢
    exact takes.effect.accounted (ih (fresh_of_append fresh)) fresh

/-- Where nothing is held, every stream that was registered was unregistered once. -/
theorem Accounted.count_removed {calls : List Call} (acc : Accounted calls []) {s : StreamId}
    (there : s ∈ addedIn calls) : (removedIn calls).count s = 1 := by
  have gone : s ∈ removedIn calls :=
    Decidable.byContradiction fun kept => List.not_mem_nil ((acc.held_iff s).mpr ⟨there, kept⟩)
  rw [acc.once.count, if_pos gone]

/-- As long as the output numbers its streams apart, the streams registered and not unregistered are
those of the two sessions after every run of a new engine, at no call more than two, and none is
unregistered twice or before it was registered. Dropping the engine then unregisters the rest, so
that every stream was unregistered once. -/
theorem Run.streams_conserved {ω : Type} {h : Host ω} {settings : Config.Music} {e : Engine}
    {turns : List Turn} (run : Run h (.new settings) turns e)
    (fresh : (addedIn (callsOf turns)).Nodup) :
    Accounted (callsOf turns) e.held ∧
      ∀ made, Disposes h e made →
        Accounted (callsOf turns ++ made) [] ∧
          ∀ s ∈ addedIn (callsOf turns ++ made),
            (removedIn (callsOf turns ++ made)).count s = 1 := by
  have acc := run.accounted fresh
  refine ⟨acc, fun made disposes => ?_⟩
  rw [disposes.calls]
  have emptied := Engine.dropped_accounted acc
  exact ⟨emptied, fun s there => emptied.count_removed there⟩

/-- The first of two tracks ends, is played out, and the second is left for the first. -/
def changingTracks : List (Command × Rehearsal) :=
  [(.add ⟨[97]⟩ none, ⟨0, 0, [], .playing, false⟩),
    (.add ⟨[98]⟩ none, ⟨0, 0, [], .playing, false⟩),
    (.play (some 0), ⟨0, 0, [], .playing, false⟩),
    (.tick, ⟨1, 1, [], .ended, false⟩),
    (.tick, ⟨2, 2, [], .playing, true⟩),
    (.prev, ⟨2, 2, [], .playing, false⟩)]

theorem changingTracks_conserved :
    (addedIn (callsOf (rehearse changingTracks).1)).Nodup ∧
    Accounted (callsOf (rehearse changingTracks).1) (rehearse changingTracks).2.held ∧
    ∀ made, Disposes .rehearsed (rehearse changingTracks).2 made →
      Accounted (callsOf (rehearse changingTracks).1 ++ made) [] ∧
      ∀ s ∈ addedIn (callsOf (rehearse changingTracks).1 ++ made),
        (removedIn (callsOf (rehearse changingTracks).1 ++ made)).count s = 1 :=
  ⟨by decide +kernel, Run.streams_conserved (rehearse_run _) (by decide +kernel)⟩

end Jukebox.Playback
