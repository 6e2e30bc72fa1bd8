import Jukebox.Proofs.Audio.Mixing
import Jukebox.Proofs.Playback.Orders
/-!
# Whether a parked stream drains

A session is parked so that the output can play out what it has pulled. Nobody gives an order about
a parked stream, so what the output was told last is what it had been told when the session was
parked: to pull from the stream if the engine was playing then, and to hold it if it was paused. A
file can be at its end while the engine is paused, and the watcher does not look at the flag. The
stream of such a session is left alone by every mix and is never reported drained.
-/
namespace Jukebox.Playback

namespace Engine

variable {e e' : Engine} {made : List Call} {p : Session}

theorem Starts.previous {index : Nat} {r : Except Refusal Unit} (start : e.Starts index r e' made) :
    e'.previous = e.previous := by
  cases start <;> rfl

theorem Scans.previous {indices : List Nat} (scan : e.Scans indices e' made) :
    e'.previous = e.previous := by
  induction scan with
  | exhausted => rfl
  | passed _ _ ih => exact ih
  | found start => exact start.previous

/-- What is in the previous slot after moving on was there before, or was current. -/
theorem Advances.parked {d : Direction} {keep : Bool} (advance : e.Advances d keep e' made)
    (parked : e'.previous = some p) :
    e.previous = some p ∨ (keep = true ∧ e.current = some p) := by
  cases advance with
  | idle no => exact Or.inl parked
  | moved here scan =>
    rw [scan.previous] at parked
    cases keep with
    | true => exact Or.inr ⟨rfl, parked⟩
    | false => cases parked

theorem Reclaims.parked (reclaim : e.Reclaims e' made) (parked : e'.previous = some p) :
    e.previous = some p := by
  cases reclaim with
  | empty no => exact parked
  | waiting there => exact parked
  | drained there => cases parked

theorem Ticks.parked {moved : Bool} (tick : e.Ticks moved e' made)
    (parked : e'.previous = some p) : e.previous = some p ∨ e.current = some p := by
  cases tick with
  | idle reclaim no => exact Or.inl (reclaim.parked parked)
  | playing reclaim there => exact Or.inl (reclaim.parked parked)
  | finished reclaim there ended advance =>
    rcases advance.parked parked with still | ⟨_, current⟩
    · exact Or.inl (reclaim.parked still)
    · exact Or.inr (reclaim.current ▸ current)

end Engine

/-- Only a pass of the watcher parks a session, and the one that is current. -/
theorem Effect.parked {e e' : Engine} {c : Command} {r : Except Refusal Unit} {made : List Call}
    {p : Session} (effect : Effect e c r e' made) (parked : e'.previous = some p) :
    e.previous = some p ∨ (c = .tick ∧ e.current = some p) := by
  cases effect with
  | add path tags => exact Or.inl parked
  | remove removes =>
    cases removes with
    | absent outside => exact Or.inl parked
    | current inside here => cases parked
    | other inside elsewhere => exact Or.inl parked
  | flush => cases parked
  | play plays =>
    cases plays with
    | refused no => exact Or.inl parked
    | tried target start =>
      rw [start.previous] at parked
      cases parked
  | togglePause toggles => cases toggles <;> exact Or.inl parked
  | stop => cases parked
  | next advances => exact Or.inl ((advances.parked parked).resolve_right (by simp))
  | prev advances => exact Or.inl ((advances.parked parked).resolve_right (by simp))
  | seekNothing secs no => exact Or.inl parked
  | seek secs r there => exact Or.inl parked
  | setSettings settings => exact Or.inl parked
  | tick ticks => exact (ticks.parked parked).imp id fun current => ⟨rfl, current⟩
  | status picture => exact Or.inl parked
  | look => exact Or.inl parked

section

variable {ω : Type} {h : Host ω} {settings : Config.Music} {e e' : Engine} {turns : List Turn}
  {t : Turn} {p : Session}

/-- With streams numbered apart, a section says nothing about the stream it leaves parked. -/
theorem Run.parked_silent (run : Run h (.new settings) turns e) (takes : Takes h e t e')
    (fresh : (addedIn (callsOf turns ++ t.calls)).Nodup) (parked : e'.previous = some p) :
    lastOrder p.stream (callsOf turns ++ t.calls) = lastOrder p.stream (callsOf turns) := by
  refine lastOrder_silent _ fun c there orders => ?_
  obtain ⟨before, after, split⟩ := List.append_of_mem there
  obtain ⟨_, _, apart⟩ := run.order_fresh takes fresh split orders
  exact apart p (Or.inr parked) rfl

/-- A parked session was parked by a pass of the watcher, and since then the last order about its
stream has been the one that stood then. -/
theorem Run.parked_by (run : Run h (.new settings) turns e) (parked : e.previous = some p)
    (fresh : (addedIn (callsOf turns)).Nodup) :
    ∃ before pass later e₀ e₁, turns = before ++ [pass] ++ later ∧
      Run h (.new settings) before e₀ ∧ Parks h e₀ pass e₁ p ∧ Run h e₁ later e ∧
      lastOrder p.stream (callsOf turns) = some e₀.playing := by
  -- Followed back, the session was parked by the last turn or has been parked before it.
  induction run with
  | start => cases parked
  | @turn turns t e e' run takes ih =>
    rw [callsOf_append, callsOf_singleton] at fresh
    have silent := run.parked_silent takes fresh parked
    rw [callsOf_append, callsOf_singleton, silent]
    rcases takes.effect.parked parked with still | ⟨pass, current⟩
    · obtain ⟨before, pass, later, e₀, e₁, rfl, first, parks, rest, told⟩ :=
        ih still (fresh_of_append fresh)
      exact ⟨before, pass, later ++ [t], e₀, e₁, List.append_assoc .., first, parks,
        rest.turn takes, told⟩
    · exact ⟨turns, t, [], e, e', (List.append_nil _).symm, run,
        ⟨takes, pass, current, parked⟩, .start, run.obeyed p current⟩

/-- A parked stream can drain exactly if the engine was playing when the watcher parked its session.
What the output was told last about the stream is to pull from it in that case, and to hold it
otherwise. At an output that does what it was told last, a mix for which the stream has too few
frames leaves it drained in the first case; in the second every mix leaves the stream as it is. -/
theorem Run.parked_order {σ κ α : Type} [Audio.Sample α] (r : Audio.Resampler κ α)
    (read : Audio.Source σ α) (run : Run h (.new settings) turns e)
    (parked : e.previous = some p) (fresh : (addedIn (callsOf turns)).Nodup) :
    ∃ before pass later e₀ e₁, turns = before ++ [pass] ++ later ∧
      Run h (.new settings) before e₀ ∧ Parks h e₀ pass e₁ p ∧ Run h e₁ later e ∧
      lastOrder p.stream (callsOf turns) = some e₀.playing ∧
      ∀ (m : Audio.Mixer σ κ α) (s : Audio.Stream σ κ α), m.stream? p.stream = some s →
        lastOrder p.stream (callsOf turns) = some s.playing → ∀ out,
          (e₀.playing = true →
            (m.supplied r read (Audio.deviceFrames m.channels out.size) p.stream).length <
              Audio.deviceFrames m.channels out.size →
            (m.fill r read out).2.isDrained p.stream = true) ∧
          (e₀.playing = false → (m.fill r read out).2.stream? p.stream = some s) := by
  obtain ⟨before, pass, later, e₀, e₁, split, first, parks, rest, told⟩ :=
    run.parked_by parked fresh
  refine ⟨before, pass, later, e₀, e₁, split, first, parks, rest, told, ?_⟩
  intro m s there obeys out
  have flag : s.playing = e₀.playing := Option.some.inj (obeys.symm.trans told)
  refine ⟨fun playing short => ?_, fun held => ?_⟩
  · exact m.isDrained_fill r read out there (flag.trans playing) short
  · exact m.stream?_fill_held r read out there (flag.trans held)

end

/-- The first of two tracks is played and ends. -/
def trackParked : List Turn × Engine :=
  rehearse [(.add ⟨[97]⟩ none, ⟨0, 0, [], .playing, false⟩),
    (.add ⟨[98]⟩ none, ⟨0, 0, [], .playing, false⟩),
    (.play (some 0), ⟨0, 0, [], .playing, false⟩),
    (.tick, ⟨1, 1, [], .ended, false⟩)]

/-- The first of two tracks is played and paused, and then found at its end. -/
def pausedParked : List Turn × Engine :=
  rehearse [(.add ⟨[97]⟩ none, ⟨0, 0, [], .playing, false⟩),
    (.add ⟨[98]⟩ none, ⟨0, 0, [], .playing, false⟩),
    (.play (some 0), ⟨0, 0, [], .playing, false⟩),
    (.togglePause, ⟨1, 1, [], .playing, false⟩),
    (.tick, ⟨1, 1, [], .ended, false⟩)]

def holding : Audio.Mixer Unit Unit Float32 :=
  ⟨44100, 2, 1, [(⟨0⟩, .new () 2 none)]⟩

/-- A source that never has anything. -/
def barren : Audio.Source Unit Float32 := fun _ _ => (⟨#[], 0⟩, ())

theorem pausedParked_order :
    trackParked.2.previous = some ⟨⟨0⟩, ⟨0⟩, 0⟩ ∧ (addedIn (callsOf trackParked.1)).Nodup ∧
    (∃ e₀ pass e₁, Parks .rehearsed e₀ pass e₁ ⟨⟨0⟩, ⟨0⟩, 0⟩ ∧ e₀.playing = true ∧
      lastOrder ⟨0⟩ (callsOf trackParked.1) = some e₀.playing) ∧
    pausedParked.2.previous = some ⟨⟨0⟩, ⟨0⟩, 0⟩ ∧ (addedIn (callsOf pausedParked.1)).Nodup ∧
    (∃ e₀ pass e₁, Parks .rehearsed e₀ pass e₁ ⟨⟨0⟩, ⟨0⟩, 0⟩ ∧ e₀.playing = false ∧
      lastOrder ⟨0⟩ (callsOf pausedParked.1) = some e₀.playing) ∧
    (holding.fill .idle barren #[0, 0]).2.stream? ⟨0⟩ =
      some (.new () 2 none) := by
  have parked : trackParked.2.previous = some ⟨⟨0⟩, ⟨0⟩, 0⟩ := by decide +kernel
  have fresh : (addedIn (callsOf trackParked.1)).Nodup := by decide +kernel
  have told : lastOrder ⟨0⟩ (callsOf trackParked.1) = some true := by decide +kernel
  have parked' : pausedParked.2.previous = some ⟨⟨0⟩, ⟨0⟩, 0⟩ := by decide +kernel
  have fresh' : (addedIn (callsOf pausedParked.1)).Nodup := by decide +kernel
  have told' : lastOrder ⟨0⟩ (callsOf pausedParked.1) = some false := by decide +kernel
  obtain ⟨_, pass, _, e₀, e₁, _, _, parks, _, order, _⟩ :=
    Run.parked_order .idle barren (rehearse_run _) parked fresh
  obtain ⟨_, pass', _, e₀', e₁', _, _, parks', _, order', mixes⟩ :=
    Run.parked_order .idle barren (rehearse_run _) parked' fresh'
  have playing : e₀.playing = true := Option.some.inj (order.symm.trans told)
  have held : e₀'.playing = false := Option.some.inj (order'.symm.trans told')
  exact ⟨parked, fresh, ⟨e₀, pass, e₁, parks, playing, order⟩, parked', fresh',
    ⟨e₀', pass', e₁', parks', held, order'⟩, (mixes holding _ rfl told' #[0, 0]).2 held⟩

/-- Paused and then found at its end, a track leaves a stream behind that is held. -/
theorem pausedParked_held :
    ¬ ∀ (turns : List Turn) (e : Engine) (p : Session), Run .rehearsed (.new .default) turns e →
      (addedIn (callsOf turns)).Nodup → e.previous = some p →
      lastOrder p.stream (callsOf turns) = some true := by
  intro always
  have told := always pausedParked.1 pausedParked.2 ⟨⟨0⟩, ⟨0⟩, 0⟩ (rehearse_run _)
    (by decide +kernel) (by decide +kernel)
  revert told
  decide +kernel

end Jukebox.Playback
