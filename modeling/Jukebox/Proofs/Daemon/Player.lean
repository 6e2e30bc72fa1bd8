import Jukebox.Playback.Service
import Jukebox.Proofs.Daemon.History
import Jukebox.Proofs.Playback.Paths
import Jukebox.Proofs.Text.Utf8
/-!
# The player as a module of the daemon

The player's section is its music root, and its states are those whose root was made of a text. A
root is shown as that text, so the section that a state stands for means that state's root again.
-/
namespace Jukebox.Config.Music

/-- Settings whose root can be told: it was made of a text. -/
def Told (m : Music) : Prop :=
  ∃ text, m.root = Storage.Path.ofString text

theorem ofSection_told (value : Option Json.Value) : (ofSection value).Told := by
  unfold ofSection
  split
  · rename_i p found
    obtain ⟨v, -, path⟩ := Option.bind_eq_some_iff.mp found
    obtain ⟨text, -, rfl⟩ := Option.map_eq_some_iff.mp path
    exact ⟨text, rfl⟩
  · exact ⟨defaultRoot, rfl⟩

/-- A root made of a text is shown as it, and comes back from its section. -/
theorem ofSection_toSection {m : Music} (told : m.Told) : ofSection (some m.toSection) = m := by
  obtain ⟨root⟩ := m
  obtain ⟨text, rfl⟩ := told
  have shown : (Storage.Path.ofString text).display = text := Text.lossy_bytesOf text
  simp [ofSection, toSection, setting?, Json.Members.find?, path?, Json.Value.text?, shown]

end Jukebox.Config.Music

namespace Jukebox.Playback

open Storage (FileSystem)
open Daemon (Conduct)

variable {ω : Type} (h : FileSystem → Host ω)

/-- The daemon's modules, when the player is the only one and its calls are on record. -/
def Service.modules : Daemon.Surroundings Player (ω × List Call) Request :=
  fun fs => Service.interface (h fs).recorded

/-- The list of the daemon's modules, when the player is the only one. -/
def Service.descriptors : FileSystem → List (Module.Descriptor Player (ω × List Call)) :=
  fun _ => [Service.descriptor]

/-- Requests leave the settings alone. -/
theorem Service.handle_settings {fs : FileSystem} {r : Request} {q : Http.Request} {p p' : Player}
    {reply : Http.Reply} (takes : (Service.handle (h fs).recorded r q).Takes p reply p') :
    p'.engine.settings = p.engine.settings := by
  obtain ⟨⟨w, calls⟩, ⟨w', calls'⟩, ran⟩ := takes
  obtain ⟨response, e', w₁, made, answered, serves⟩ := r.handles (h fs) p.engine w q.resource
  have handled : Service.handle (h fs).recorded r q p (w, calls) =
      ((.answered response, { p with engine := e' }), (w₁, calls ++ made)) := by
    dsimp only [Service.handle]
    rw [answered calls]
  cases handled.symm.trans ran
  exact serves.settings

def Service.conduct : Conduct (Service.modules h) Service.descriptors where
  Valid _ p := p.engine.settings.Told
  config p := some p.engine.settings.toSection
  opening known ran := by
    obtain rfl := List.mem_singleton.mp known
    cases ran
    exact Config.Music.ofSection_told _
  setting _ takes := by
    obtain ⟨w, w', ran⟩ := takes
    cases ran
    exact Config.Music.ofSection_told _
  getting valid takes := by
    obtain ⟨w, w', ran⟩ := takes
    cases ran
    exact ⟨rfl, valid, rfl⟩
  routing valid takes := by
    obtain ⟨w, w', ran⟩ := takes
    cases ran
    exact ⟨valid, rfl⟩
  handling valid takes := by
    rw [Service.handle_settings h takes]
    exact valid

/-- Opened with a section or given it later, the player has the root that the section means. -/
theorem Service.agrees : (Service.conduct h).Agrees := by
  intro fs d known value w s w' opened s₀ r s' _ takes
  obtain rfl := List.mem_singleton.mp known
  obtain ⟨w₁, w₁', ran⟩ := takes
  cases opened
  cases ran
  rfl

end Jukebox.Playback
