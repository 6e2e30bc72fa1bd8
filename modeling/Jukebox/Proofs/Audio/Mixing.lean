import Jukebox.Proofs.Audio.Drawing
/-!
# Mixing streams into a buffer

The streams of a mixer by their numbers, and what a mix does: each stream that plays draws one frame
for each frame of the device, and each sample of the device is silence to which the streams add
their parts one by one. A stream that does not play is left as it is.
-/
namespace Jukebox.Audio

variable {σ κ α : Type}

/-- The frames of a device that a buffer has room for. The last one may be cut short. -/
def deviceFrames (channels size : Nat) : Nat := (size + channels - 1) / channels

/-- A resampler for streams that need none. -/
def Resampler.idle : Resampler Unit α where
  create _ _ _ := .ok ()
  needed _ := 0
  process _ _ := (none, ())
  processPartial _ _ := (none, ())
  reset _ := ()
  delay _ := 0

namespace Mixer

variable {m m' : Mixer σ κ α} {i id : StreamId} {s : Stream σ κ α}

def ids (m : Mixer σ κ α) : List StreamId := m.streams.map Prod.fst

/-- The streams of a mixer have numbers of their own, below the next one. -/
structure Numbered (m : Mixer σ κ α) : Prop where
  distinct : m.ids.Nodup
  below : ∀ id ∈ m.ids, id.number < m.next

theorem mem_of_stream? (there : m.stream? id = some s) : (id, s) ∈ m.streams := by
  obtain ⟨⟨j, _⟩, found, rfl⟩ := Option.map_eq_some_iff.mp there
  have same : j = id := by simpa using List.find?_some found
  exact same ▸ List.mem_of_find?_eq_some found

/-- Each registered stream is the one of its number. -/
theorem Numbered.stream?_eq (numbered : m.Numbered) (there : (id, s) ∈ m.streams) :
    m.stream? id = some s := by
  obtain ⟨before, after, split⟩ := List.append_of_mem there
  have absent : ∀ p ∈ before, p.1 ≠ id := by
    intro p earlier
    have distinct := numbered.distinct
    rw [ids, split, List.map_append, List.map_cons, List.nodup_append] at distinct
    exact distinct.2.2 p.1 (List.mem_map_of_mem earlier) id List.mem_cons_self
  have first : m.streams.find? (·.1 = id) = some (id, s) :=
    List.find?_eq_some_iff_append.mpr
      ⟨decide_eq_true rfl, before, after, split, by simpa using absent⟩
  rw [stream?, first]
  rfl

theorem Numbered.unused (numbered : m.Numbered) (later : m.next ≤ id.number) :
    m.stream? id = none := by
  rw [Option.eq_none_iff_forall_not_mem]
  intro s there
  have below := numbered.below id (List.mem_map_of_mem (mem_of_stream? there))
  exact absurd below (Nat.not_lt.mpr later)

theorem Numbered.congr (numbered : m.Numbered) (same : m'.ids = m.ids) (next : m'.next = m.next) :
    m'.Numbered :=
  ⟨same ▸ numbered.distinct, next ▸ same ▸ numbered.below⟩

theorem stream?_eq_none : m.stream? id = none ↔ id ∉ m.ids := by
  rw [stream?, Option.map_eq_none_iff, List.find?_eq_none, ids, List.mem_map, not_exists]
  simp only [decide_eq_true_eq, not_and]

/-- There is nothing to change under a number that is not registered. -/
theorem update_unknown (unknown : id ∉ m.ids) (f : Stream σ κ α → Stream σ κ α) :
    m.update id f = m := by
  have untouched : ∀ p ∈ m.streams, (if p.1 = id then (p.1, f p.2) else (p.1, p.2)) = p :=
    fun p there => if_neg fun same : p.1 = id => unknown (same ▸ List.mem_map_of_mem there)
  rw [update, List.map_congr_left untouched, List.map_id']

theorem remove_unknown (unknown : id ∉ m.ids) : m.remove id = m := by
  have all : m.streams.filter (·.1 ≠ id) = m.streams :=
    List.filter_eq_self.mpr fun p there => decide_eq_true fun same =>
      unknown (same ▸ List.mem_map_of_mem there)
  rw [remove, all]

def register (m : Mixer σ κ α) (s : Stream σ κ α) : Mixer σ κ α :=
  { m with next := m.next + 1, streams := m.streams ++ [(⟨m.next⟩, s)] }

theorem Numbered.register (numbered : m.Numbered) (s : Stream σ κ α) : (m.register s).Numbered := by
  have grown : (m.register s).ids = m.ids ++ [⟨m.next⟩] := by simp [ids, Mixer.register]
  refine ⟨?_, ?_⟩
  · rw [grown]
    refine List.nodup_append.mpr ⟨numbered.distinct, by simp, ?_⟩
    rintro id there _ last rfl
    obtain rfl := List.mem_singleton.mp last
    exact Nat.lt_irrefl _ (numbered.below _ there)
  · rw [grown]
    intro id there
    rcases List.mem_append.mp there with earlier | last
    · exact Nat.lt_succ_of_lt (numbered.below id earlier)
    · obtain rfl := List.mem_singleton.mp last
      exact Nat.lt_succ_self _

theorem stream?_register (m : Mixer σ κ α) (s : Stream σ κ α) (id : StreamId) :
    (m.register s).stream? id =
      (m.stream? id).or (if (⟨m.next⟩ : StreamId) = id then some s else none) := by
  rw [stream?, register, List.find?_append, stream?]
  by_cases new : (⟨m.next⟩ : StreamId) = id <;>
    cases m.streams.find? (·.1 = id) <;> simp [new]

/-- The streams of a mixer with one more are those of before and the new one. -/
theorem of_stream?_register {s' : Stream σ κ α} (there : (m.register s).stream? id = some s') :
    m.stream? id = some s' ∨ (id = ⟨m.next⟩ ∧ s' = s) := by
  rw [stream?_register] at there
  rcases Option.or_eq_some_iff.mp there with old | ⟨_, new⟩
  · exact Or.inl old
  · by_cases same : (⟨m.next⟩ : StreamId) = id
    · rw [if_pos same] at new
      exact Or.inr ⟨same.symm, (Option.some.inj new).symm⟩
    · rw [if_neg same] at new
      cases new

/-- At the rate of the device a stream needs no converter and is never refused. -/
theorem add_eq (r : Resampler κ α) (m : Mixer σ κ α) {format : Format} (source : σ)
    (rate : format.rate = m.rate) :
    m.add r format source =
      .ok (⟨m.next⟩, m.register (.new source (max format.channels 1) none)) := by
  simp only [add, rate, if_pos]
  rfl

theorem stream?_remove (m : Mixer σ κ α) (i id : StreamId) :
    (m.remove i).stream? id = if id = i then none else m.stream? id := by
  rw [stream?, remove, List.find?_filter]
  by_cases here : id = i
  · simp [here]
  · -- A stream that is looked for is not the one that the filter drops.
    have both (j : StreamId) :
        decide (decide (j ≠ i) = true ∧ decide (j = id) = true) = decide (j = id) := by
      by_cases same : j = id <;> simp [same, here]
    simp only [both]
    rw [if_neg here, stream?]

theorem of_stream?_remove (there : (m.remove i).stream? id = some s) : m.stream? id = some s := by
  rw [stream?_remove] at there
  by_cases gone : id = i
  · rw [if_pos gone] at there
    cases there
  · rwa [if_neg gone] at there

/-- A stream that is not refused gets the next number, and a converter for its channels if it needs
one. -/
theorem add_new {r : Resampler κ α} {format : Format} {source : σ}
    (added : m.add r format source = .ok (id, m')) :
    ∃ converter, m' = m.register (.new source (max format.channels 1) converter) ∧
      ∀ c, converter = some c →
        Converter.new r format.rate m.rate (max format.channels 1) = .ok c := by
  by_cases rate : format.rate = m.rate
  · rw [add_eq r m source rate] at added
    cases added
    exact ⟨none, rfl, fun c converted => by cases converted⟩
  · unfold add at added
    rw [if_neg rate] at added
    cases made : Converter.new r format.rate m.rate (max format.channels 1) with
    | error f =>
      rw [made] at added
      cases added
    | ok c =>
      rw [made] at added
      cases added
      exact ⟨some c, rfl, fun _ converted => congrArg Except.ok (Option.some.inj converted)⟩

theorem add_registers {r : Resampler κ α} {format : Format} {source : σ}
    (added : m.add r format source = .ok (id, m')) : ∃ s, m' = m.register s := by
  obtain ⟨converter, registered, _⟩ := add_new added
  exact ⟨_, registered⟩

theorem Numbered.remove (numbered : m.Numbered) (i : StreamId) : (m.remove i).Numbered := by
  have fewer : (m.remove i).ids.Sublist m.ids := List.filter_sublist.map Prod.fst
  exact ⟨numbered.distinct.sublist fewer, fun id there => numbered.below id (fewer.subset there)⟩

@[simp] theorem ids_update (m : Mixer σ κ α) (i : StreamId) (f : Stream σ κ α → Stream σ κ α) :
    (m.update i f).ids = m.ids := by
  rw [ids, update, List.map_map, ids]
  refine List.map_congr_left fun p _ => ?_
  by_cases here : p.1 = i <;> simp [here]

theorem stream?_update (m : Mixer σ κ α) (i id : StreamId) (f : Stream σ κ α → Stream σ κ α) :
    (m.update i f).stream? id = (m.stream? id).map fun s => if id = i then f s else s := by
  have kept : (fun p : StreamId × Stream σ κ α => decide (p.1 = id)) ∘
      (fun (j, s) => if j = i then (j, f s) else (j, s)) = fun p => decide (p.1 = id) := by
    funext ⟨j, s⟩
    by_cases here : j = i <;> simp [here]
  rw [stream?, update, List.find?_map, kept, stream?, Option.map_map, Option.map_map]
  refine Option.map_congr fun p found => ?_
  have same : p.1 = id := by simpa using List.find?_some found
  by_cases here : p.1 = i <;> simp [here, ← same]

/-- The streams of a changed mixer are as before or changed. -/
theorem of_stream?_update {s' : Stream σ κ α} {f : Stream σ κ α → Stream σ κ α}
    (there : (m.update i f).stream? id = some s') :
    ∃ s, m.stream? id = some s ∧ (s' = s ∨ s' = f s) := by
  rw [stream?_update] at there
  obtain ⟨s, old, rfl⟩ := Option.map_eq_some_iff.mp there
  refine ⟨s, old, ?_⟩
  by_cases here : id = i
  · exact Or.inr (if_pos here)
  · exact Or.inl (if_neg here)

end Mixer

section

variable [Sample α]

/-- What some frames add to a sample of a device buffer: the frame of the device it lies in takes
the frame of the same number, if there is one. -/
def part (channels size i : Nat) (fs : Array (Frame α)) : Option α :=
  (fs[i / channels]?).map fun frame =>
    mapChannel frame (i % channels) (min channels (size - i / channels * channels))

@[simp] theorem size_overlay (channels : Nat) (out : Array α) (fs : Array (Frame α)) :
    (overlay channels out fs).size = out.size := by
  simp [overlay]

theorem getElem?_overlay (channels : Nat) (out : Array α) (fs : Array (Frame α)) (i : Nat) :
    (overlay channels out fs)[i]? =
      out[i]?.map fun x => (part channels out.size i fs).elim x (Sample.add x) := by
  rw [overlay, Array.getElem?_mapIdx]
  refine Option.map_congr fun x _ => ?_
  cases there : fs[i / channels]? <;> simp [part, there]

@[simp] theorem overlay_empty (channels : Nat) (out : Array α) :
    overlay channels out #[] = out := by
  refine Array.ext_getElem? fun i => ?_
  simp [getElem?_overlay, part]

theorem size_foldl_overlay (channels : Nat) (supplied : List (Array (Frame α))) (out : Array α) :
    (supplied.foldl (overlay channels) out).size = out.size := by
  induction supplied generalizing out with
  | nil => rfl
  | cons fs rest ih => rw [List.foldl_cons, ih, size_overlay]

/-- Laid over one another, frames add their parts one by one. -/
theorem getElem?_foldl_overlay (channels : Nat) (supplied : List (Array (Frame α))) (out : Array α)
    (i : Nat) :
    (supplied.foldl (overlay channels) out)[i]? =
      out[i]?.map fun x => (supplied.filterMap (part channels out.size i)).foldl Sample.add x := by
  induction supplied generalizing out with
  | nil => simp
  | cons fs rest ih =>
    rw [List.foldl_cons, ih, size_overlay, getElem?_overlay, Option.map_map]
    refine Option.map_congr fun x _ => ?_
    cases adds : part channels out.size i fs <;> simp [adds]

variable (r : Resampler κ α) (read : Source σ α)

/-- What a stream gives to a number of device frames, and the stream afterwards. -/
def Stream.supply (s : Stream σ κ α) (count : Nat) : Array (Frame α) × Stream σ κ α :=
  if s.playing then s.draw r read count #[] else (#[], s)

/-- A stream that plays but gives fewer frames than the device has is drained. -/
theorem Stream.isDrained_supply {s : Stream σ κ α} {count : Nat} (playing : s.playing = true)
    (short : (s.supply r read count).1.size < count) :
    (s.supply r read count).2.isDrained = true := by
  rw [supply, playing, if_pos rfl] at short ⊢
  exact isDrained_of_draw r read (by simpa using short)

theorem Stream.supply_held {s : Stream σ κ α} (held : s.playing = false) (count : Nat) :
    s.supply r read count = (#[], s) := by
  rw [supply, held, if_neg Bool.false_ne_true]

namespace Mixer

/-- A mix draws from each stream that plays and lays the frames over one another. -/
theorem mixStreams_eq (channels : Nat) (streams : List (StreamId × Stream σ κ α)) (out : Array α) :
    mixStreams r read channels out streams =
      ((streams.map fun p => (p.2.supply r read (deviceFrames channels out.size)).1).foldl
          (overlay channels) out,
        streams.map fun p => (p.1, (p.2.supply r read (deviceFrames channels out.size)).2)) := by
  induction streams generalizing out with
  | nil => rfl
  | cons p rest ih =>
    obtain ⟨id, s⟩ := p
    cases playing : s.playing with
    | true =>
      simp only [mixStreams, playing, if_true, ih, size_overlay, Stream.supply, deviceFrames,
        List.map_cons, List.foldl_cons]
    | false =>
      simp only [mixStreams, playing, ih, Stream.supply, deviceFrames, List.map_cons,
        List.foldl_cons, Bool.false_eq_true, if_false, overlay_empty]

variable (m : Mixer σ κ α) (out : Array α)

theorem fill_streams : (m.fill r read out).2 = { m with
    streams := m.streams.map fun p =>
      (p.1, (p.2.supply r read (deviceFrames m.channels out.size)).2) } := by
  simp only [fill, mixStreams_eq, Array.size_map]

@[simp] theorem ids_fill : (m.fill r read out).2.ids = m.ids := by
  rw [fill_streams, ids, List.map_map, ids]
  rfl

theorem stream?_fill (id : StreamId) :
    (m.fill r read out).2.stream? id =
      (m.stream? id).map fun s => (s.supply r read (deviceFrames m.channels out.size)).2 := by
  rw [fill_streams, stream?, List.find?_map, stream?, Option.map_map, Option.map_map]
  rfl

theorem stream?_fill_held {id : StreamId} {s : Stream σ κ α} (there : m.stream? id = some s)
    (held : s.playing = false) : (m.fill r read out).2.stream? id = some s := by
  rw [stream?_fill, there, Option.map_some, Stream.supply_held r read held]

theorem size_fill : (m.fill r read out).1.size = out.size := by
  simp only [fill, mixStreams_eq]
  rw [size_foldl_overlay, Array.size_map]

/-- The frames that the stream of a number gives to a number of device frames. -/
def supplied (m : Mixer σ κ α) (count : Nat) (id : StreamId) : List (Frame α) :=
  match m.stream? id with
  | none => []
  | some s => (s.supply r read count).1.toList

theorem supplied_eq {m : Mixer σ κ α} {id : StreamId} {s : Stream σ κ α} (count : Nat)
    (there : m.stream? id = some s) :
    m.supplied r read count id = (s.supply r read count).1.toList := by
  rw [supplied, there]

/-- A mix that finds too few frames in a stream that plays leaves it drained. -/
theorem isDrained_fill {id : StreamId} {s : Stream σ κ α} (there : m.stream? id = some s)
    (playing : s.playing = true)
    (short : (m.supplied r read (deviceFrames m.channels out.size) id).length <
      deviceFrames m.channels out.size) : (m.fill r read out).2.isDrained id = true := by
  rw [supplied_eq r read _ there, Array.length_toList] at short
  rw [isDrained, stream?_fill, there, Option.map_some, Option.all_some]
  exact Stream.isDrained_supply r read playing short

/-- Each sample of a mix is silence to which the streams add their parts. Of what was in the buffer
nothing is left. -/
theorem getElem?_fill {i : Nat} (inside : i < out.size) :
    (m.fill r read out).1[i]? = some ((m.streams.filterMap fun p =>
      part m.channels out.size i (p.2.supply r read (deviceFrames m.channels out.size)).1).foldl
        Sample.add Sample.silence) := by
  simp only [fill, mixStreams_eq, getElem?_foldl_overlay, Array.size_map, Array.getElem?_map,
    Array.getElem?_eq_getElem inside, Option.map_some, List.filterMap_map]
  rfl

end Mixer

end

end Jukebox.Audio
