import Jukebox.Proofs.Playback.Parking
/-!
# Orders to the output

The engine tells the output to pull from a stream or to hold it. `lastOrder` is what the output was
told last, and it agrees with the playing flag for as long as there is a current session.

`Exchanged` counts the registrations that a section makes and undoes, without any assumption on the
numbers the output gives. From it follows that an order is only ever given about a registration that
is not undone and not the one in the previous slot.
-/
namespace Jukebox.Playback

open Storage

/-- A call that tells the output to pull from a stream, or to hold it. -/
def Call.Orders (c : Call) (s : StreamId) : Prop :=
  c = .played s ∨ c = .paused s

/-- What a call tells the output about a stream, if anything. -/
def Call.order? (s : StreamId) : Call → Option Bool
  | .played t => if t = s then some true else none
  | .paused t => if t = s then some false else none
  | _ => none

/-- What the output was told last about a stream. -/
def lastOrder (s : StreamId) (calls : List Call) : Option Bool :=
  (calls.filterMap (Call.order? s)).getLast?

theorem lastOrder_append (s : StreamId) (calls more : List Call) :
    lastOrder s (calls ++ more) = (lastOrder s more).or (lastOrder s calls) := by
  rw [lastOrder, List.filterMap_append, List.getLast?_append]
  rfl

@[simp] theorem lastOrder_played (s : StreamId) : lastOrder s [.played s] = some true := by
  simp [lastOrder, Call.order?]

theorem Call.order?_eq_none {s : StreamId} {c : Call} (silent : ¬ c.Orders s) :
    c.order? s = none := by
  cases c with
  | played t => exact if_neg fun same => silent (Or.inl (congrArg Call.played same))
  | paused t => exact if_neg fun same => silent (Or.inr (congrArg Call.paused same))
  | _ => rfl

/-- Calls that give no order about a stream leave the last one standing. -/
theorem lastOrder_silent {s : StreamId} {more : List Call} (calls : List Call)
    (silent : ∀ c ∈ more, ¬ c.Orders s) : lastOrder s (calls ++ more) = lastOrder s calls := by
  have none_given : lastOrder s more = none := by
    have empty : more.filterMap (Call.order? s) = [] :=
      List.filterMap_eq_nil_iff.mpr fun c there => Call.order?_eq_none (silent c there)
    rw [lastOrder, empty]
    rfl
  rw [lastOrder_append, none_given, Option.none_or]

/-- Calls that give no order at all. -/
def Silent (calls : List Call) : Prop := ∀ c ∈ calls, ∀ s, ¬ c.Orders s

namespace Silent

theorem nil : Silent [] := List.forall_mem_nil _

theorem single {c : Call} (silent : ∀ s, ¬ c.Orders s) : Silent [c] :=
  List.forall_mem_singleton.mpr silent

theorem append {calls more : List Call} (first : Silent calls) (second : Silent more) :
    Silent (calls ++ more) := by
  intro c there
  rcases List.mem_append.mp there with before | after
  · exact first c before
  · exact second c after

theorem dropped (s : Option Session) : Silent (dropped s) := by
  cases s with
  | none => exact nil
  | some s => exact single (by simp [Call.Orders])

end Silent

/-- Calls that take the streams held to others: what is held afterwards and was unregistered is what
was held before and was registered, number for number. -/
def Exchanged (held : List StreamId) (calls : List Call) (held' : List StreamId) : Prop :=
  ∀ s, held.count s + (addedIn calls).count s = (removedIn calls).count s + held'.count s

namespace Exchanged

variable {held held' held'' : List StreamId} {calls more : List Call}

theorem trans (first : Exchanged held calls held') (second : Exchanged held' more held'') :
    Exchanged held (calls ++ more) held'' := by
  intro s
  have one := first s
  have two := second s
  simp only [addedIn_append, removedIn_append, List.count_append]
  omega

/-- Calls that neither register nor unregister. -/
theorem other (adds : addedIn calls = []) (removes : removedIn calls = []) :
    Exchanged held calls held := by
  intro s
  simp [adds, removes]

/-- From nothing held, the record accounts for each number. -/
theorem perm_of_nil (all : Exchanged [] calls held) :
    (addedIn calls).Perm (removedIn calls ++ held) := by
  refine List.perm_iff_count.mpr fun s => ?_
  have counts := all s
  simpa using counts

/-- Where nothing is held in the end, every stream that was registered was unregistered. -/
theorem registered_nil (all : Exchanged [] calls []) : registeredIn calls = [] := by
  refine List.filter_eq_nil_iff.mpr fun s there => ?_
  have gone : s ∈ removedIn calls := by
    simpa using (perm_of_nil all).mem_iff.mp there
  simpa using gone

end Exchanged

/-- Each order in some calls is about a registration that was held when they began or made by them,
that they did not undo before, and that is not the one in the previous slot. -/
def OrdersLive (held : List StreamId) (calls : List Call) (previous : Option Session) : Prop :=
  ∀ before c after s, calls = before ++ c :: after → c.Orders s →
    (removedIn before).count s + (previous.map Session.stream).toList.count s <
      held.count s + (addedIn before).count s

namespace OrdersLive

variable {held held' : List StreamId} {calls more : List Call} {previous : Option Session}

theorem single {c : Call}
    (live : ∀ s, c.Orders s → (previous.map Session.stream).toList.count s < held.count s) :
    OrdersLive held [c] previous := by
  intro before c' after s split orders
  obtain ⟨rfl, rfl, rfl⟩ : before = [] ∧ c' = c ∧ after = [] := by
    simpa [List.singleton_eq_append_iff] using split
  simpa using live s orders

theorem of_silent (silent : Silent calls) : OrdersLive held calls previous := by
  intro before c after s split orders
  have there : c ∈ calls := split ▸ List.mem_append_right before List.mem_cons_self
  exact absurd orders (silent c there s)

/-- Calls without an order may come first. -/
theorem after (silent : Silent calls) (exchanged : Exchanged held calls held')
    (live : OrdersLive held' more previous) : OrdersLive held (calls ++ more) previous := by
  intro before c rest s split orders
  rcases List.append_eq_append_iff.mp split with ⟨mid, rfl, here⟩ | ⟨mid, rfl, here⟩
  · -- The order is one of the later calls.
    have later := live mid c rest s here orders
    have counts := exchanged s
    simp only [addedIn_append, removedIn_append, List.count_append]
    omega
  · -- The first calls reach up to it, or hold it and are not silent.
    cases mid with
    | nil =>
      have later := live [] c rest s here.symm orders
      have counts := exchanged s
      simp only [List.append_nil, addedIn_nil, removedIn_nil, List.count_nil] at later counts ⊢
      omega
    | cons c' mid =>
      obtain ⟨rfl, _⟩ := List.cons.inj here
      have there : c ∈ before ++ c :: mid := List.mem_append_right before List.mem_cons_self
      exact absurd orders (silent c there s)

end OrdersLive

/-- The last order about the stream of the current session agrees with the playing flag. -/
def Obeyed (calls : List Call) (e : Engine) : Prop :=
  ∀ s, e.current = some s → lastOrder s.stream calls = some e.playing

/-- Calls without an order that take one engine to another. The current session may be given up;
otherwise it and the flag stay. -/
structure Calm (e : Engine) (made : List Call) (e' : Engine) : Prop where
  silent : Silent made
  exchanged : Exchanged e.held made e'.held
  current : e'.current = none ∨ e'.current = e.current ∧ e'.playing = e.playing

/-- Calls that take one engine to another and whose orders are about live registrations and agree
with the flag. -/
structure Orderly (e : Engine) (made : List Call) (e' : Engine) : Prop where
  exchanged : Exchanged e.held made e'.held
  live : OrdersLive e.held made e'.previous
  about : ∀ c ∈ made, ∀ s, c.Orders s → ∃ cur, e'.current = some cur ∧ cur.stream = s
  obeyed : ∀ calls, Obeyed calls e → Obeyed (calls ++ made) e'

namespace Calm

variable {e e' e'' : Engine} {made more : List Call}

/-- Calls that neither order nor register. -/
theorem aside (silent : Silent made) (adds : addedIn made = []) (removes : removedIn made = [])
    (held : e'.held = e.held)
    (current : e'.current = none ∨ e'.current = e.current ∧ e'.playing = e.playing) :
    Calm e made e' :=
  ⟨silent, held ▸ .other adds removes, current⟩

theorem refl (e : Engine) : Calm e [] e :=
  .aside .nil rfl rfl rfl (Or.inr ⟨rfl, rfl⟩)

/-- A question to the host about a file, or a request for a stream that is refused. -/
theorem question (e : Engine) {c : Call} (silent : ∀ s, ¬ c.Orders s) (adds : c.added? = none)
    (removes : c.removed? = none) : Calm e [c] e :=
  .aside (.single silent) (by simp [adds]) (by simp [removes]) rfl (Or.inr ⟨rfl, rfl⟩)

theorem trans (first : Calm e made e') (second : Calm e' more e'') :
    Calm e (made ++ more) e'' where
  silent := first.silent.append second.silent
  exchanged := first.exchanged.trans second.exchanged
  current := by
    rcases second.current with gone | ⟨current, flag⟩
    · exact Or.inl gone
    rcases first.current with gone | ⟨current', flag'⟩
    · exact Or.inl (current.trans gone)
    · exact Or.inr ⟨current.trans current', flag.trans flag'⟩

theorem obeyed (calm : Calm e made e') {calls : List Call} (obeyed : Obeyed calls e) :
    Obeyed (calls ++ made) e' := by
  intro s there
  rcases calm.current with gone | ⟨current, flag⟩
  · rw [gone] at there
    cases there
  · rw [lastOrder_silent calls fun c among => calm.silent c among s.stream, flag]
    exact obeyed s (current ▸ there)

theorem orderly (calm : Calm e made e') : Orderly e made e' where
  exchanged := calm.exchanged
  live := .of_silent calm.silent
  about c there s orders := absurd orders (calm.silent c there s)
  obeyed _ := calm.obeyed

/-- What comes first may be calm. -/
theorem before (calm : Calm e made e') (rest : Orderly e' more e'') :
    Orderly e (made ++ more) e'' where
  exchanged := calm.exchanged.trans rest.exchanged
  live := .after calm.silent calm.exchanged rest.live
  about c there s orders := by
    rcases List.mem_append.mp there with first | later
    · exact absurd orders (calm.silent c first s)
    · exact rest.about c later s orders
  obeyed calls obeyed := by
    rw [← List.append_assoc]
    exact rest.obeyed _ (calm.obeyed obeyed)

end Calm

namespace Engine

variable {e e' : Engine} {made : List Call}

/-- The stream of the current session is held beside the one in the previous slot. -/
theorem current_live {s : Session} (there : e.current = some s) :
    (e.previous.map Session.stream).toList.count s.stream < e.held.count s.stream := by
  simp [held_eq, there]

theorem stopped_calm (e : Engine) :
    Calm e (dropped e.current ++ dropped e.previous) e.stopped where
  silent := (Silent.dropped _).append (.dropped _)
  exchanged s := by simp [held_eq, stopped]
  current := Or.inl rfl

theorem left_calm (e : Engine) (keep : Bool) : Calm e (e.leaving keep) (e.left keep) where
  silent := by
    cases keep with
    | true => exact (Silent.dropped _).append .nil
    | false => exact (Silent.dropped _).append (.dropped _)
  exchanged s := by
    cases keep with
    | true => simp [held_eq, leaving, left, Nat.add_comm]
    | false => simp [held_eq, leaving, left, Nat.add_comm]
  current := Or.inl rfl

theorem Starts.calm {index : Nat} {r : Refusal} (start : e.Starts index (.error r) e' made) :
    Calm e made e := by
  cases start with
  | absent no => exact .refl e
  | unopened here reason => exact .question e (by simp [Call.Orders]) rfl rfl
  | refused here file reason =>
    exact (Calm.question e (by simp [Call.Orders]) rfl rfl).trans
      (.question e (by simp [Call.Orders]) rfl rfl)

/-- A stream is registered, and the first order is to pull from it. -/
theorem Starts.orderly {index : Nat} {r : Except Refusal Unit} (start : e.Starts index r e' made)
    (empty : e.current = none) : Orderly e made e' := by
  cases start with
  | absent no => exact (Calm.refl _).orderly
  | unopened here reason => exact (Starts.calm (.unopened here reason)).orderly
  | refused here file reason => exact (Starts.calm (.refused here file reason)).orderly
  | @started entry here file stream =>
    have split : [.opened entry.path (some file), .added stream, .played stream] ++ dropped none =
        [.opened entry.path (some file), .added stream] ++ [Call.played stream] := rfl
    rw [empty, split]
    have silent : Silent [.opened entry.path (some file), .added stream] :=
      (Silent.single (by simp [Call.Orders])).append (.single (by simp [Call.Orders]))
    have registered : Exchanged e.held [.opened entry.path (some file), .added stream]
        (stream :: e.held) := by
      intro s
      simp [Call.added?, Call.removed?, List.count_cons]
    refine ⟨registered.trans fun s => ?_, .after silent registered (.single ?_), ?_, ?_⟩
    · simp [held_eq, landed, empty, Call.added?, Call.removed?]
    · rintro s (⟨⟨⟩⟩ | ⟨⟨⟩⟩)
      simp [held_eq, landed, empty]
    · intro c there s orders
      have played : c = .played stream := by
        rcases List.mem_append.mp there with first | last
        · exact absurd orders (silent c first s)
        · exact List.mem_singleton.mp last
      subst played
      rcases orders with ⟨⟨⟩⟩ | ⟨⟨⟩⟩
      exact ⟨_, rfl, rfl⟩
    · intro calls _ s there
      obtain rfl := Option.some.inj there
      rw [← List.append_assoc, lastOrder_append, lastOrder_played]
      rfl

theorem Scans.orderly {indices : List Nat} (scan : e.Scans indices e' made)
    (empty : e.current = none) : Orderly e made e' := by
  induction scan with
  | exhausted => exact (Calm.refl e).orderly
  | passed start _ ih => exact start.calm.before ih
  | found start => exact start.orderly empty

theorem Advances.orderly {d : Direction} {keep : Bool} (advance : e.Advances d keep e' made) :
    Orderly e made e' := by
  cases advance with
  | idle no => exact (Calm.refl e).orderly
  | moved here scan => exact (left_calm e keep).before (scan.orderly rfl)

theorem Reclaims.calm (reclaim : e.Reclaims e' made) : Calm e made e' := by
  cases reclaim with
  | empty no => exact .refl e
  | waiting there => exact .question e (by simp [Call.Orders]) rfl rfl
  | @drained p there =>
    have silent : Silent [.askedDrained p.stream true, .removed p.stream] :=
      (Silent.single (by simp [Call.Orders])).append (.single (by simp [Call.Orders]))
    refine ⟨silent, fun s => ?_, Or.inr ⟨rfl, rfl⟩⟩
    simp [held_eq, there, Call.added?, Call.removed?, List.count_cons, Nat.add_comm]

theorem Ticks.orderly {moved : Bool} (tick : e.Ticks moved e' made) : Orderly e made e' := by
  cases tick with
  | idle reclaim no => exact reclaim.calm.orderly
  | playing reclaim there =>
    exact (reclaim.calm.trans (.question e' (by simp [Call.Orders]) rfl rfl)).orderly
  | @finished e₁ _ _ _ s status reclaim there ended advance =>
    have asked : Calm e₁ [.askedStatus s.file status] e₁ :=
      .question e₁ (by simp [Call.Orders]) rfl rfl
    exact reclaim.calm.before (asked.before advance.orderly)

theorem Removes.calm {index : Nat} {r : Except Refusal Unit}
    (remove : e.Removes index r e' made) : Calm e made e' := by
  cases remove with
  | absent outside => exact .refl e
  | current inside here =>
    exact ⟨(stopped_calm e).silent, (stopped_calm e).exchanged, Or.inl rfl⟩
  | other inside elsewhere => exact .aside .nil rfl rfl rfl (Or.inr ⟨rfl, rfl⟩)

theorem Plays.orderly {index : Option Nat} {r : Except Refusal Unit}
    (play : e.Plays index r e' made) : Orderly e made e' := by
  cases play with
  | refused no => exact (Calm.refl e).orderly
  | tried target start => exact (stopped_calm e).before (start.orderly rfl)

/-- An order about the current stream, with the flag set to it. -/
theorem toggled {s : Session} {c : Call} {on : Bool} (there : e.current = some s)
    (tells : c.order? s.stream = some on) (about : ∀ t, c.Orders t → t = s.stream)
    (adds : c.added? = none) (removes : c.removed? = none) :
    Orderly e [c] { e with playing := on } where
  exchanged := .other (by simp [adds]) (by simp [removes])
  live := .single fun t orders => about t orders ▸ current_live there
  about c' among t orders := by
    obtain rfl := List.mem_singleton.mp among
    exact ⟨s, there, (about t orders).symm⟩
  obeyed calls _ := by
    intro s' current
    obtain rfl := Option.some.inj (there.symm.trans current)
    rw [lastOrder_append]
    simp [lastOrder, tells]

theorem Toggles.orderly (toggle : e.Toggles e' made) : Orderly e made e' := by
  cases toggle with
  | idle no => exact (Calm.refl e).orderly
  | paused there on => exact toggled there (by simp [Call.order?]) (by simp [Call.Orders]) rfl rfl
  | resumed there off => exact toggled there (by simp [Call.order?]) (by simp [Call.Orders]) rfl rfl

end Engine

/-- The orders of every section are about live registrations and agree with the flag. -/
theorem Effect.orderly {e e' : Engine} {c : Command} {r : Except Refusal Unit} {made : List Call}
    (effect : Effect e c r e' made) : Orderly e made e' := by
  have unchanged : Orderly e [] e := (Calm.refl e).orderly
  cases effect with
  | add path tags =>
    have aside : Calm e [] { e with playlist := e.playlist.push path tags } :=
      .aside .nil rfl rfl rfl (Or.inr ⟨rfl, rfl⟩)
    exact aside.orderly
  | remove removes => exact removes.calm.orderly
  | flush =>
    have stopping := e.stopped_calm
    have flushing : Calm e (dropped e.current ++ dropped e.previous) e.flushed :=
      ⟨stopping.silent, stopping.exchanged, Or.inl rfl⟩
    exact flushing.orderly
  | play plays => exact plays.orderly
  | togglePause toggles => exact toggles.orderly
  | stop => exact e.stopped_calm.orderly
  | next advances => exact advances.orderly
  | prev advances => exact advances.orderly
  | seekNothing secs no => exact unchanged
  | seek secs r there => exact (Calm.question e (by simp [Call.Orders]) rfl rfl).orderly
  | setSettings settings =>
    have aside : Calm e [] { e with settings := settings } :=
      .aside .nil rfl rfl rfl (Or.inr ⟨rfl, rfl⟩)
    exact aside.orderly
  | tick ticks => exact ticks.orderly
  | status picture => exact unchanged
  | look => exact unchanged

namespace Engine

variable {e e' : Engine} {made : List Call}

/-- Tries that find an entry leave the flag set. -/
theorem Scans.lands {indices : List Nat} (scan : e.Scans indices e' made) :
    e' = e ∨ e'.playing = true := by
  induction scan with
  | exhausted => exact Or.inl rfl
  | passed _ _ ih => exact ih
  | found start =>
    cases start
    exact Or.inr rfl

/-- Moving on changes the current index to none, or to an entry that plays. -/
theorem Advances.lands {d : Direction} {keep : Bool} (advance : e.Advances d keep e' made) :
    e'.playlist.current = e.playlist.current ∨ e'.playlist.current = none ∨ e'.playing = true := by
  cases advance with
  | idle no => exact Or.inl rfl
  | moved here scan =>
    rcases scan.lands with rfl | playing
    · exact Or.inr (Or.inl rfl)
    · exact Or.inr (Or.inr playing)

theorem Ticks.lands {moved : Bool} (tick : e.Ticks moved e' made) :
    e'.playlist.current = e.playlist.current ∨ e'.playlist.current = none ∨ e'.playing = true := by
  have kept : ∀ {e₁ calls}, e.Reclaims e₁ calls → e₁.playlist.current = e.playlist.current := by
    intro e₁ calls reclaim
    cases reclaim <;> rfl
  cases tick with
  | idle reclaim no => exact Or.inl (kept reclaim)
  | playing reclaim there => exact Or.inl (kept reclaim)
  | finished reclaim there ended advance => exact kept reclaim ▸ advance.lands

theorem Plays.playing {index : Option Nat} (play : e.Plays index (.ok ()) e' made) :
    e'.playing = true := by
  cases play with
  | tried target start =>
    cases start
    rfl

/-- Pausing and resuming undo each other. -/
theorem Toggles.twice {e'' : Engine} {made' : List Call} (first : e.Toggles e' made)
    (second : e'.Toggles e'' made') : e'' = e := by
  rcases e with ⟨settings, playlist, current, previous, playing⟩
  cases first with
  | idle no =>
    cases second with
    | idle no => rfl
    | paused there on => cases no.symm.trans there
    | resumed there off => cases no.symm.trans there
  | paused there on =>
    obtain rfl : playing = true := on
    cases second with
    | idle no => cases there.symm.trans no
    | paused there on => cases on
    | resumed there off => rfl
  | resumed there off =>
    obtain rfl : playing = false := off
    cases second with
    | idle no => cases there.symm.trans no
    | paused there on => rfl
    | resumed there off => cases off

end Engine

/-- Of the registrations of a stream's number in some calls, one is neither undone nor the one in
the previous slot. -/
def Live (calls : List Call) (previous : Option Session) (s : StreamId) : Prop :=
  (removedIn calls).count s + (previous.map Session.stream).toList.count s <
    (addedIn calls).count s

/-- Moving on from an entry leads to none or to one that plays. -/
theorem Effect.lands {e e' : Engine} {c : Command} {r : Except Refusal Unit} {made : List Call}
    (effect : Effect e c r e' made) (moves : c = .next ∨ c = .prev ∨ c = .tick) :
    e'.playlist.current = e.playlist.current ∨ e'.playlist.current = none ∨
      e'.playing = true := by
  rcases moves with rfl | rfl | rfl
  · cases effect with
    | next advances => exact advances.lands
  · cases effect with
    | prev advances => exact advances.lands
  · cases effect with
    | tick ticks => exact ticks.lands

/-- With streams numbered apart, the stream of a live registration is registered, not unregistered
and not the one in the previous slot. -/
theorem Live.of_fresh {calls : List Call} {previous : Option Session} {s : StreamId}
    (live : Live calls previous s) (fresh : (addedIn calls).Nodup) :
    s ∈ addedIn calls ∧ s ∉ removedIn calls ∧ ∀ p, previous = some p → p.stream ≠ s := by
  have once : (addedIn calls).count s ≤ 1 := by
    rw [fresh.count]
    split <;> decide
  unfold Live at live
  refine ⟨List.count_pos_iff.mp (by omega), List.count_eq_zero.mp (by omega), ?_⟩
  rintro p rfl rfl
  simp at live
  omega

section

variable {ω : Type} {h : Host ω} {settings : Config.Music} {e e' e'' : Engine}
  {turns : List Turn} {t t' : Turn}

theorem Run.exchanged (run : Run h e turns e') : Exchanged e.held (callsOf turns) e'.held := by
  induction run with
  | start => exact .other rfl rfl
  | turn _ takes ih =>
    rw [callsOf_append, callsOf_singleton]
    exact ih.trans takes.effect.orderly.exchanged

theorem Run.balanced (run : Run h (.new settings) turns e) :
    Exchanged [] (callsOf turns) e.held :=
  run.exchanged

theorem Run.obeyed (run : Run h (.new settings) turns e) : Obeyed (callsOf turns) e := by
  induction run with
  | start => intro s there; cases there
  | turn _ takes ih =>
    rw [callsOf_append, callsOf_singleton]
    exact takes.effect.orderly.obeyed _ ih

/-- Every order of a section is about a live registration. -/
theorem Run.order_live (run : Run h (.new settings) turns e) (takes : Takes h e t e')
    {before after : List Call} {c : Call} {s : StreamId} (split : t.calls = before ++ c :: after)
    (orders : c.Orders s) : Live (callsOf turns ++ before) e'.previous s := by
  have counts := run.balanced s
  have live := takes.effect.orderly.live before c after s split orders
  rw [List.count_nil] at counts
  simp only [Live, addedIn_append, removedIn_append, List.count_append]
  omega

/-- With streams numbered apart, no order is about the stream that a section found parked. -/
theorem Run.order_elsewhere (run : Run h (.new settings) turns e) (takes : Takes h e t e')
    (fresh : (addedIn (callsOf turns ++ t.calls)).Nodup) {c : Call} {s : StreamId}
    (there : c ∈ t.calls) (orders : c.Orders s) : ∀ p, e.previous = some p → p.stream ≠ s := by
  rintro p parked rfl
  obtain ⟨cur, current, same⟩ := takes.effect.orderly.about c there p.stream orders
  have acc := (run.turn takes).accounted (by simpa using fresh)
  -- A session that stays parked shares no number with the current one; one that is given up is
  -- unregistered, so that its number is not held.
  rcases takes.effect.kept parked with still | gone
  · have apart := acc.distinct
    simp [Engine.held_eq, current, still, same] at apart
  · have held : p.stream ∈ e'.held := by simp [Engine.held_eq, current, same]
    refine ((acc.held_iff p.stream).mp held).2 (mem_removedIn.mpr ?_)
    rw [callsOf_append, callsOf_singleton]
    exact List.mem_append_right _ gone

/-- With streams numbered apart, an order is about a stream that is registered, and that is in the
previous slot neither before the section nor after it. -/
theorem Run.order_fresh (run : Run h (.new settings) turns e) (takes : Takes h e t e')
    (fresh : (addedIn (callsOf turns ++ t.calls)).Nodup) {before after : List Call} {c : Call}
    {s : StreamId} (split : t.calls = before ++ c :: after) (orders : c.Orders s) :
    s ∈ addedIn (callsOf turns ++ before) ∧ s ∉ removedIn (callsOf turns ++ before) ∧
      ∀ p, e.previous = some p ∨ e'.previous = some p → p.stream ≠ s := by
  have there : c ∈ t.calls := split ▸ List.mem_append_right before List.mem_cons_self
  have fresh_before : (addedIn (callsOf turns ++ before)).Nodup := by
    rw [split, ← List.append_assoc] at fresh
    exact fresh_of_append fresh
  obtain ⟨added, kept, apart⟩ := (run.order_live takes split orders).of_fresh fresh_before
  refine ⟨added, kept, fun p slot => ?_⟩
  rcases slot with earlier | later
  · exact run.order_elsewhere takes fresh there orders p earlier
  · exact apart p later

/-- Engine and output agree on what is playing. After every run of a new engine the output was last
told to pull from the stream of the current session if the flag is set, and to hold it otherwise.
The next section leaves the flag set if it plays an entry or moves on to another one. Whenever it
gives an order, that is about a registration which is neither undone nor parked; with streams
numbered apart the stream was registered, is not unregistered, and is in the previous slot neither
before nor after. Pausing twice changes nothing. -/
theorem Run.orders_agree (run : Run h (.new settings) turns e) :
    (∀ s, e.current = some s → lastOrder s.stream (callsOf turns) = some e.playing) ∧
    ∀ t e', Takes h e t e' →
      (∀ index, t.command = .play index → t.result = .ok () → e'.playing = true) ∧
      (t.command = .next ∨ t.command = .prev ∨ t.command = .tick →
        ∀ i, e'.playlist.current = some i → e.playlist.current ≠ some i → e'.playing = true) ∧
      (∀ before c after s, t.calls = before ++ c :: after → c.Orders s →
        Live (callsOf turns ++ before) e'.previous s ∧
        ((addedIn (callsOf turns ++ t.calls)).Nodup →
          s ∈ addedIn (callsOf turns ++ before) ∧ s ∉ removedIn (callsOf turns ++ before) ∧
          ∀ p, e.previous = some p ∨ e'.previous = some p → p.stream ≠ s)) ∧
      (t.command = .togglePause →
        ∀ t' e'', Takes h e' t' e'' → t'.command = .togglePause → e'' = e) := by
  refine ⟨run.obeyed, fun t e' takes => ⟨?_, ?_, ?_, ?_⟩⟩
  · rcases t with ⟨command, result, made⟩
    rintro index rfl rfl
    cases takes.effect with
    | play plays => exact plays.playing
  · intro moves i there elsewhere
    rcases takes.effect.lands moves with same | none | playing
    · exact absurd (same.symm.trans there) elsewhere
    · rw [there] at none
      cases none
    · exact playing
  · intro before c after s split orders
    exact ⟨run.order_live takes split orders, fun fresh => run.order_fresh takes fresh split orders⟩
  · rcases t with ⟨command, result, made⟩
    rintro rfl ⟨command', result', made'⟩ e'' takes' rfl
    cases takes.effect with
    | togglePause first =>
      cases takes'.effect with
      | togglePause second => exact first.twice second

end

/-- The first of three tracks is played and paused. -/
def trackPaused : List Turn × Engine :=
  rehearse [(.add ⟨[97]⟩ none, ⟨0, 0, [], .playing, false⟩),
    (.add ⟨[98]⟩ none, ⟨0, 0, [], .playing, false⟩),
    (.add ⟨[99]⟩ none, ⟨0, 0, [], .playing, false⟩),
    (.play (some 0), ⟨0, 0, [], .playing, false⟩),
    (.togglePause, ⟨1, 1, [], .playing, false⟩)]

/-- The second one does not open, so that moving on leads to the third. -/
def brokenSkipped : Turn × Engine :=
  act .rehearsed .next ⟨1, 1, [⟨[98]⟩], .playing, false⟩ trackPaused.2

def trackReplayed : Turn × Engine :=
  act .rehearsed (.play none) ⟨1, 1, [], .playing, false⟩ trackPaused.2

def trackResumed : Turn × Engine :=
  act .rehearsed .togglePause ⟨1, 1, [], .playing, false⟩ trackPaused.2

def trackPausedAgain : Turn × Engine :=
  act .rehearsed .togglePause ⟨1, 1, [], .playing, false⟩ trackResumed.2

theorem brokenSkipped_orders :
    lastOrder ⟨0⟩ (callsOf trackPaused.1) = some false ∧
    brokenSkipped.2.playlist.current = some 2 ∧ brokenSkipped.2.playing = true ∧
    brokenSkipped.1.calls = [.removed ⟨0⟩, .opened ⟨[98]⟩ none, .opened ⟨[99]⟩ (some ⟨1⟩),
      .added ⟨1⟩] ++ .played ⟨1⟩ :: [] ∧
    ⟨1⟩ ∈ addedIn (callsOf trackPaused.1 ++ [.removed ⟨0⟩, .opened ⟨[98]⟩ none,
      .opened ⟨[99]⟩ (some ⟨1⟩), .added ⟨1⟩]) ∧
    trackReplayed.2.playing = true ∧ trackPausedAgain.2 = trackPaused.2 := by
  obtain ⟨told, sections⟩ := Run.orders_agree (rehearse_run _ : Run _ _ trackPaused.1 trackPaused.2)
  have skips := sections _ _ (act_takes .rehearsed .next ⟨1, 1, [⟨[98]⟩], .playing, false⟩ _)
  have replays := sections _ _ (act_takes .rehearsed (.play none) ⟨1, 1, [], .playing, false⟩ _)
  have resumes := sections _ _ (act_takes .rehearsed .togglePause ⟨1, 1, [], .playing, false⟩ _)
  have there : trackPaused.2.current = some ⟨⟨0⟩, ⟨0⟩, 0⟩ := by decide +kernel
  have held : trackPaused.2.playing = false := by decide +kernel
  have moved : brokenSkipped.2.playlist.current = some 2 := by decide +kernel
  have elsewhere : trackPaused.2.playlist.current ≠ some 2 := by decide +kernel
  have calls : brokenSkipped.1.calls = [.removed ⟨0⟩, .opened ⟨[98]⟩ none,
      .opened ⟨[99]⟩ (some ⟨1⟩), .added ⟨1⟩] ++ .played ⟨1⟩ :: [] := by decide +kernel
  have order := skips.2.2.1 _ _ _ ⟨1⟩ calls (Or.inl rfl)
  exact ⟨held ▸ told _ there, moved, skips.2.1 (Or.inl rfl) 2 moved elsewhere, calls,
    (order.2 (by decide +kernel)).1, replays.1 none rfl rfl,
    resumes.2.2.2 rfl _ _ (act_takes .rehearsed .togglePause ⟨1, 1, [], .playing, false⟩ _) rfl⟩

end Jukebox.Playback
