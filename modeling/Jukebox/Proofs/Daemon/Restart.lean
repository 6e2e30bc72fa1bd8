import Jukebox.Proofs.Daemon.Player
import Jukebox.Proofs.Playback.Rehearsal
/-!
# Reloading is restarting

Reloading reads the file and gives every open module its section; a daemon that is built reads the
file and opens every module with its section. If both ways of getting a section mean the same to
each module, a daemon that reloads cannot be told from one that was just built, whatever happened to
it before.
-/
namespace Jukebox.Daemon

open Config (Httpd Store)
open Storage (FileSystem)
open Jukebox.Module (Called Descriptor Loaded Registry)

variable {μ ω η : Type} {modules : Surroundings μ ω η}
  {descriptors : FileSystem → List (Descriptor μ ω)}

/-- Modules that are given their sections have the configurations of those opened with them. -/
theorem Conduct.live_eq {conduct : Conduct modules descriptors} (agrees : conduct.Agrees)
    {fs : FileSystem} {store : Store} {ds : List (Descriptor μ ω)} {r r' loaded : Registry μ}
    {answers : List (String × Except Fault Unit)} (known : ∀ d ∈ ds, d ∈ descriptors fs)
    (sound : r.Holds conduct.Valid)
    (called : Called (fun m => (modules fs).setConfig (store.section? m.id)) r answers r')
    (loads : List.Forall₂ (fun d m => Loaded.Loads d (store.section? d.id) m) ds loaded)
    (same : loaded.shape = r.shape) :
    r'.live conduct.config = loaded.live conduct.config := by
  induction called generalizing ds loaded with
  | nil =>
    obtain rfl := List.map_eq_nil_iff.mp same
    rfl
  | @opened id name s s' a rest rest' answers takes _ ih =>
    cases loads with
    | nil => cases same
    | @cons d m ds' others one later =>
      obtain ⟨head, tail⟩ := List.cons.inj same
      have rest_eq := ih (fun d' there => known d' (List.mem_cons_of_mem d there)) sound.tail later
        tail
      cases one with
      | failed ran => cases (Prod.mk.inj head).2
      | @opened s₁ w w' ran =>
        obtain rfl : d.id = id := (Prod.mk.inj head).1
        rw [Registry.live_opened, Registry.live_opened, rest_eq,
          agrees fs d (known d List.mem_cons_self) _ w s₁ w' ran s a s' (sound.head rfl) takes]
  | @passed m rest rest' answers shut _ ih =>
    cases loads with
    | nil => cases same
    | @cons d m' ds' others one later =>
      obtain ⟨head, tail⟩ := List.cons.inj same
      have shut' : m'.isOpen = false := ((Prod.mk.inj head).2).trans shut
      rw [Registry.live_shut shut, Registry.live_shut shut',
        ih (fun d' there => known d' (List.mem_cons_of_mem d there)) sound.tail later tail]

/-- After any history, whatever is in the configuration file now, reloading leaves the document and
the live configuration of a daemon that is built on that file with the same modules opened. The
player is a module of the kind that is asked for. -/
theorem Reachable.reload_is_restart {conduct : Conduct modules descriptors} {c : Core μ ω}
    (reachable : Reachable conduct c) (agrees : conduct.Agrees) (w : ω)
    (same : (Context.build modules descriptors (.openAt c.files c.store.path) c.files
      w).core.registry.shape = c.registry.shape) :
    (Core.reload modules c).2.store =
        (Context.build modules descriptors (.openAt c.files c.store.path) c.files w).core.store ∧
      (Core.snapshot modules "" (Core.reload modules c).2).1 =
        (Core.snapshot modules "" (Context.build modules descriptors
          (.openAt c.files c.store.path) c.files w).core).1 ∧
      ∀ {υ : Type} (h : FileSystem → Playback.Host υ), (Playback.Service.conduct h).Agrees := by
  obtain ⟨loaded, routes, f, w', loads, called, built⟩ :=
    Context.build_effect modules descriptors (.openAt c.files c.store.path) c.files w
  obtain ⟨answers, r, w₁, ran, reloaded⟩ := Core.reload_effect modules c
  have sound_loaded := Conduct.load_sound conduct (fun _ there => there) loads
  have moved := Conduct.route_moves conduct called
  have shapes : Registry.shape loaded = c.registry.shape := by
    rw [built] at same
    exact (Registry.Moves.shape_eq moved).symm.trans same
  have live : r.live conduct.config = f.live conduct.config := by
    rw [Conduct.route_live called sound_loaded]
    exact Conduct.live_eq agrees (fun _ there => there) reachable.sound
      (Registry.called_of_callAll ran) loads shapes
  have sound_after : conduct.Sound (Core.reload modules c).2 :=
    Event.sound conduct .reload c reachable.sound
  have sound_built := conduct.build_sound (.openAt c.files c.store.path) c.files w
  refine ⟨by rw [reloaded, built]; rfl, ?_, Playback.Service.agrees⟩
  rw [conduct.snapshot_told sound_after, conduct.snapshot_told sound_built, reloaded, built]
  unfold Conduct.told
  rw [live]
  rfl

/-- A daemon with the player only, whose root is changed and whose file is then written by someone
else. -/
def rewritten : Core Playback.Player (Playback.Rehearsal × List Playback.Call) :=
  let built := (Context.build (Playback.Service.modules fun _ => .rehearsed)
    Playback.Service.descriptors ⟨.ofString "aircat.conf", []⟩ .empty
    (⟨0, 0, [], .playing, false⟩, [])).core
  let changed := ((Event.apply "" [("files", .object [("path", .string "/music")])]).run
    (Playback.Service.modules fun _ => .rehearsed) built).2
  { changed with
    files := ⟨[([Text.bytesOf "aircat.conf"], .file (Text.bytesOf "\x7b\"httpd\":[80]\x7d"))], []⟩ }

theorem rewritten_reachable :
    Reachable (Playback.Service.conduct fun _ => .rehearsed) rewritten :=
  ⟨_, _, _, .rewrite (.event .start _ trivial) _ trivial⟩

theorem rewritten_reloaded :
    Reachable (Playback.Service.conduct fun _ => .rehearsed) rewritten ∧
    (Playback.Service.conduct fun _ => Playback.Host.rehearsed).Agrees ∧
    rewritten.registry.shape = [("files", true)] ∧
    (Core.snapshot (Playback.Service.modules fun _ => .rehearsed) ""
        (Core.reload (Playback.Service.modules fun _ => .rehearsed) rewritten).2).1 =
      (Core.snapshot (Playback.Service.modules fun _ => .rehearsed) ""
        (Context.build (Playback.Service.modules fun _ => .rehearsed) Playback.Service.descriptors
          (.openAt rewritten.files rewritten.store.path) rewritten.files
          (⟨0, 0, [], .playing, false⟩, [])).core).1 :=
  ⟨rewritten_reachable, Playback.Service.agrees _, rfl,
    (Reachable.reload_is_restart rewritten_reachable (Playback.Service.agrees _)
      (⟨0, 0, [], .playing, false⟩, []) rfl).2.1⟩

end Jukebox.Daemon
