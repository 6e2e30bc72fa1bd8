import Jukebox.Proofs.Playback.Edits
import Jukebox.Proofs.Playback.Handling
import Jukebox.Proofs.Storage.Components
/-!
# Paths that the player touches

The player looks at files and directories when a client names them and opens files of entries. What
a client names lies below the music root of that time, so an entry keeps a path below the root that
was configured when it was added, and `Confines` says this of whatever is done to the engine.
-/
namespace Jukebox.Playback

open Storage

/-- The path that a call looks at because a client named it. -/
def Call.browses? : Call → Option Path
  | .inspected p => some p
  | .listed p => some p
  | .readTags p => some p
  | _ => none

def Call.opens? : Call → Option Path
  | .opened p _ => some p
  | _ => none

def Command.configures (s : Config.Music) : Command → Config.Music
  | .setSettings settings => settings
  | _ => s

/-- Calls that look at nothing and open only files of these entries. -/
def OpensOnly (entries : List Entry) (made : List Call) : Prop :=
  ∀ c ∈ made, c.browses? = none ∧ ∀ p, c.opens? = some p → ∃ entry ∈ entries, entry.path = p

namespace OpensOnly

variable {entries more_entries : List Entry} {made more : List Call}

theorem nil : OpensOnly entries [] := List.forall_mem_nil _

theorem single {c : Call} (browses : c.browses? = none) (opens : c.opens? = none) :
    OpensOnly entries [c] := by
  refine List.forall_mem_singleton.mpr ⟨browses, fun p here => ?_⟩
  rw [opens] at here
  cases here

theorem append (first : OpensOnly entries made) (second : OpensOnly entries more) :
    OpensOnly entries (made ++ more) := by
  intro c there
  rcases List.mem_append.mp there with before | after
  · exact first c before
  · exact second c after

theorem cons {c : Call} (browses : c.browses? = none) (opens : c.opens? = none)
    (rest : OpensOnly entries more) : OpensOnly entries (c :: more) :=
  (single browses opens).append rest

theorem dropped (s : Option Session) : OpensOnly entries (dropped s) := by
  cases s with
  | none => exact nil
  | some s => exact single rfl rfl

/-- Opening the file of an entry. -/
theorem opening {entry : Entry} (there : entry ∈ entries) (file : Option FileId)
    (rest : OpensOnly entries more) : OpensOnly entries (.opened entry.path file :: more) := by
  refine List.forall_mem_cons.mpr ⟨⟨rfl, fun p here => ?_⟩, rest⟩
  cases here
  exact ⟨entry, there, rfl⟩

end OpensOnly

namespace Engine

variable {e e' : Engine} {made : List Call}

theorem Starts.opensOnly {index : Nat} {r : Except Refusal Unit}
    (start : e.Starts index r e' made) : OpensOnly e.playlist.entries made := by
  cases start with
  | absent no => exact .nil
  | unopened here reason => exact .opening (Playlist.mem_of_entry here) none .nil
  | refused here file reason => exact .opening (Playlist.mem_of_entry here) _ (.single rfl rfl)
  | started here file stream =>
    exact .opening (Playlist.mem_of_entry here) _
      (.cons rfl rfl (.cons rfl rfl (.dropped e.current)))

theorem Scans.opensOnly {indices : List Nat} (scan : e.Scans indices e' made) :
    OpensOnly e.playlist.entries made := by
  induction scan with
  | exhausted => exact .nil
  | passed start _ ih => exact start.opensOnly.append ih
  | found start => exact start.opensOnly

theorem leaving_opensOnly (keep : Bool) : OpensOnly e.playlist.entries (e.leaving keep) := by
  refine (OpensOnly.dropped e.previous).append ?_
  cases keep with
  | true => exact .nil
  | false => exact .dropped e.current

theorem Advances.opensOnly {d : Direction} {keep : Bool} (advance : e.Advances d keep e' made) :
    OpensOnly e.playlist.entries made := by
  cases advance with
  | idle no => exact .nil
  | moved here scan => exact (leaving_opensOnly keep).append scan.opensOnly

theorem Reclaims.opensOnly (reclaim : e.Reclaims e' made) :
    OpensOnly e.playlist.entries made := by
  cases reclaim with
  | empty no => exact .nil
  | waiting there => exact .single rfl rfl
  | drained there => exact .cons rfl rfl (.single rfl rfl)

theorem Ticks.opensOnly {moved : Bool} (tick : e.Ticks moved e' made) :
    OpensOnly e.playlist.entries made := by
  cases tick with
  | idle reclaim no => exact reclaim.opensOnly
  | playing reclaim there => exact reclaim.opensOnly.append (.single rfl rfl)
  | finished reclaim there ended advance =>
    refine reclaim.opensOnly.append (.cons rfl rfl ?_)
    rw [← reclaim.entries.entries]
    exact advance.opensOnly

theorem Starts.settings {index : Nat} {r : Except Refusal Unit}
    (start : e.Starts index r e' made) : e'.settings = e.settings := by
  cases start <;> rfl

theorem Scans.settings {indices : List Nat} (scan : e.Scans indices e' made) :
    e'.settings = e.settings := by
  induction scan with
  | exhausted => rfl
  | passed start _ ih => exact ih
  | found start => exact start.settings

theorem Advances.settings {d : Direction} {keep : Bool} (advance : e.Advances d keep e' made) :
    e'.settings = e.settings := by
  cases advance with
  | idle no => rfl
  | moved here scan => exact scan.settings

theorem Ticks.settings {moved : Bool} (tick : e.Ticks moved e' made) :
    e'.settings = e.settings := by
  have reclaimed {e₁ : Engine} {made : List Call} (reclaim : e.Reclaims e₁ made) :
      e₁.settings = e.settings := by cases reclaim <;> rfl
  cases tick with
  | idle reclaim no => exact reclaimed reclaim
  | playing reclaim there => exact reclaimed reclaim
  | finished reclaim there ended advance => exact advance.settings.trans (reclaimed reclaim)

end Engine

section

variable {e e' : Engine} {c : Command} {r : Except Refusal Unit} {made : List Call}

/-- No command looks at a path, and what it opens are files of entries. -/
theorem Effect.opensOnly (effect : Effect e c r e' made) : OpensOnly e.playlist.entries made := by
  have halted : OpensOnly e.playlist.entries (dropped e.current ++ dropped e.previous) :=
    (OpensOnly.dropped e.current).append (.dropped e.previous)
  cases effect with
  | remove removes =>
    cases removes with
    | absent outside => exact .nil
    | current inside here => exact halted
    | other inside elsewhere => exact .nil
  | flush => exact halted
  | play plays =>
    cases plays with
    | refused no => exact .nil
    | tried target start => exact halted.append start.opensOnly
  | togglePause toggles =>
    cases toggles with
    | idle no => exact .nil
    | paused there on => exact .single rfl rfl
    | resumed there off => exact .single rfl rfl
  | stop => exact halted
  | next advances => exact advances.opensOnly
  | prev advances => exact advances.opensOnly
  | seek secs r there => exact .single rfl rfl
  | tick ticks => exact ticks.opensOnly
  | _ => exact .nil

/-- Only new settings change the settings. -/
theorem Effect.settings_eq (effect : Effect e c r e' made) :
    e'.settings = c.configures e.settings := by
  cases effect with
  | remove removes => cases removes <;> rfl
  | play plays =>
    cases plays with
    | refused no => rfl
    | tried target start => exact start.settings
  | togglePause toggles => cases toggles <;> rfl
  | next advances => exact advances.settings
  | prev advances => exact advances.settings
  | tick ticks => exact ticks.settings
  | _ => rfl

end

/-- What is done to an engine keeps to its music root: paths that are looked at lie below it, files
that are opened are those of entries, and new entries have paths below it. -/
structure Confines (e : Engine) (made : List Call) (e' : Engine) : Prop where
  browses : ∀ c ∈ made, ∀ p, c.browses? = some p → Below e.settings.root p
  opens : ∀ c ∈ made, ∀ p, c.opens? = some p →
    ∃ entry, (entry ∈ e.playlist.entries ∨ entry ∈ e'.playlist.entries) ∧ entry.path = p
  adds : ∀ entry ∈ e'.playlist.entries, entry ∈ e.playlist.entries ∨
    e.playlist.issued ≤ entry.serial ∧ Below e.settings.root entry.path

namespace Confines

variable {e e' : Engine} {made : List Call}

/-- Calls that open files of the entries there were, while none is added. -/
theorem of_opensOnly (opens : OpensOnly e.playlist.entries made)
    (entries : ∀ entry ∈ e'.playlist.entries, entry ∈ e.playlist.entries) :
    Confines e made e' where
  browses c there p looks := by
    rw [(opens c there).1] at looks
    cases looks
  opens c there p opening := by
    obtain ⟨entry, here, same⟩ := (opens c there).2 p opening
    exact ⟨entry, Or.inl here, same⟩
  adds entry there := Or.inl (entries entry there)

theorem refl (e : Engine) : Confines e [] e :=
  of_opensOnly .nil fun _ there => there

/-- Commands that add nothing. -/
theorem of_effect {c : Command} {r : Except Refusal Unit} (effect : Effect e c r e' made)
    (adds : ∀ path tags, c ≠ .add path tags) : Confines e made e' := by
  refine of_opensOnly effect.opensOnly fun entry there => ?_
  rw [effect.entries.entries] at there
  cases c with
  | add path tags => exact absurd rfl (adds path tags)
  | remove index => exact List.mem_of_mem_eraseIdx there
  | flush => cases there
  | _ => exact there

theorem of_start {index : Nat} {r : Except Refusal Unit}
    (start : e.stopped.Starts index r e' made) :
    Confines e (dropped e.current ++ dropped e.previous ++ made) e' := by
  have opens : OpensOnly e.playlist.entries made := start.opensOnly
  refine of_opensOnly (((OpensOnly.dropped _).append (.dropped _)).append opens) ?_
  intro entry there
  rwa [start.entries.entries] at there

end Confines

def Host.Enumerates {ω : Type} (h : Host ω) : Prop :=
  ∀ p w names w', h.readDirectory p w = (.ok names, w') → ∀ name ∈ names, NormalName name

section

variable {ω : Type} {h : Host ω} {e e' : Engine} {w w' : ω} {relative : String} {made : List Call}

theorem Adds.settings {r : Except Refusal Nat} (adds : Adds h e w relative r e' w' made) :
    e'.settings = e.settings := by
  cases adds <;> rfl

/-- Requests leave the settings alone. -/
theorem Request.Serves.settings {request : Request} {response : Http.Response}
    (serves : request.Serves h e w relative response e' w' made) : e'.settings = e.settings := by
  cases serves with
  | added adds => exact adds.settings
  | notAdded adds => exact adds.settings
  | entryPlayed index inside start => exact start.settings
  | entryRemoved index removes => exact (Effect.remove removes).settings_eq
  | performed means effect =>
    refine effect.settings_eq.trans ?_
    cases request <;> cases means <;> rfl
  | resumed unnamed target start => exact start.settings
  | notAppended named adds => exact adds.settings
  | appended named adds start => exact start.settings.trans adds.settings
  | _ => rfl

/-- A file that is added lies below the root, and so is whatever was looked at for it. -/
theorem Adds.confines {r : Except Refusal Nat} (adds : Adds h e w relative r e' w' made) :
    Confines e made e' ∧ ∀ c ∈ made, c.opens? = none := by
  cases adds with
  | outside no => exact ⟨.refl e, List.forall_mem_nil _⟩
  | noFile resolved no =>
    have below := Library.below_of_resolve? resolved
    refine ⟨⟨?_, ?_, fun entry there => Or.inl there⟩, by simp [Call.opens?]⟩
    · simpa [Call.browses?] using below
    · simp [Call.opens?]
  | @added path tags _ resolved file read =>
    have below := Library.below_of_resolve? resolved
    refine ⟨⟨?_, ?_, fun entry there => ?_⟩, by simp [Call.opens?]⟩
    · simpa [Call.browses?] using below
    · simp [Call.opens?]
    · rcases List.mem_append.mp there with old | new
      · exact Or.inl old
      · obtain rfl := List.mem_singleton.mp new
        exact Or.inr ⟨Nat.le_refl _, below⟩

theorem Lists.confines {r : Except Refusal Library.Listing} (names : h.Enumerates)
    (lists : Lists h e w relative r w' made) : Confines e made e := by
  cases lists with
  | outside no => exact .refl e
  | unread resolved no =>
    have below := Library.below_of_resolve? resolved
    refine ⟨?_, by simp [Call.opens?], fun entry there => Or.inl there⟩
    simpa [Call.browses?] using below
  | @listed path found _ _ _ looked resolved read looks =>
    have below := Library.below_of_resolve? resolved
    refine ⟨fun c there p looking => ?_, fun c there p opening => ?_,
      fun entry there => Or.inl there⟩
    · rcases List.mem_cons.mp there with rfl | inside
      · cases looking
        exact below
      · obtain ⟨name, here, rfl | rfl⟩ := looks c inside <;> cases looking <;>
          exact below.push (names _ _ _ _ read name here)
    · rcases List.mem_cons.mp there with rfl | inside
      · cases opening
      · obtain ⟨name, here, rfl | rfl⟩ := looks c inside <;> cases opening

/-- No request leaves the root that is configured when it is made. -/
theorem Request.Serves.confines {request : Request} {response : Http.Response}
    (names : h.Enumerates) (serves : request.Serves h e w relative response e' w' made) :
    Confines e made e' := by
  cases serves with
  | added adds => exact adds.confines.1
  | notAdded adds => exact adds.confines.1
  | entryPlayed index inside start => exact .of_start start
  | entryRemoved index removes =>
    exact .of_effect (.remove removes) fun _ _ => Command.noConfusion
  | performed means effect =>
    refine .of_effect effect ?_
    rintro path tags rfl
    cases request <;> cases means
  | resumed unnamed target start => exact .of_start start
  | notAppended named adds => exact adds.confines.1
  | appended named adds start =>
    obtain ⟨confined, aside⟩ := adds.confines
    have played := Confines.of_start start
    refine ⟨fun c there p looks => ?_, fun c there p opening => ?_, fun entry there => ?_⟩
    · rcases List.mem_append.mp there with before | after
      · exact confined.browses c before p looks
      · exact adds.settings ▸ played.browses c after p looks
    · rcases List.mem_append.mp there with before | after
      · rw [aside c before] at opening
        cases opening
      · obtain ⟨entry, here, same⟩ := played.opens c after p opening
        refine ⟨entry, Or.inr (here.elim (fun before => ?_) id), same⟩
        rw [start.entries.entries]
        exact before
    · rw [start.entries.entries] at there
      exact confined.adds entry there
  | sought position there ran => exact .of_opensOnly (.single rfl rfl) fun _ there => there
  | listed lists => exact lists.confines names
  | _ => exact .refl e

end

end Jukebox.Playback
