import Jukebox.Config.Section
import Jukebox.Module.Registry
/-!
# The daemon's state

The daemon has a registry of modules, the configuration document and the settings of its HTTP layer.
The modules own the live configuration; the document is only read and written on demand. The file
system is part of the state, and modules see it but do not change it.

`Surroundings` ties the modules to the file system: what they are depends on what they see.
-/
namespace Jukebox.Daemon

open Config (Httpd Store)
open Jukebox.Module (Descriptor Interface Registry)

/-- How modules are called while the file system is as it is. -/
abbrev Surroundings (μ ω η : Type) := Storage.FileSystem → Interface μ ω η

structure Core (μ ω : Type) where
  registry : Registry μ
  store : Store
  httpd : Httpd
  files : Storage.FileSystem
  world : ω

abbrev Operation (μ ω α : Type) := StateM (Core μ ω) α

namespace Core

variable {μ ω η : Type} (modules : Surroundings μ ω η)

def httpdOf (store : Store) : Httpd :=
  .ofSection (store.section? Httpd.key)

def start (descriptors : Storage.FileSystem → List (Descriptor μ ω)) (store : Store)
    (files : Storage.FileSystem) (world : ω) : Core μ ω :=
  let (registry, world) := (Registry.load (descriptors files) store).run world
  ⟨registry, store, httpdOf store, files, world⟩

def onRegistry {α : Type} (op : Interface μ ω η → Registry μ → StateM ω (α × Registry μ)) :
    Operation μ ω α :=
  fun c =>
    let ((a, registry), world) := op (modules c.files) c.registry c.world
    (a, { c with registry := registry, world := world })

/-- Runs an operation of the registry that has no result of its own. -/
def onRegistry' (op : Interface μ ω η → Registry μ → StateM ω (Registry μ)) :
    Operation μ ω Unit :=
  onRegistry modules fun i r => do return ((), ← op i r)

/-- Resets the HTTP layer and every module to their defaults. The document stays. -/
def resetDefaults : Operation μ ω Unit := do
  modify fun c => { c with httpd := .default }
  onRegistry' modules fun i r => r.defaultAll i

/-- Reads the file again and gives every owner its section. -/
def reload : Operation μ ω Unit := do
  modify fun c => { c with store := c.store.load c.files }
  modify fun c => { c with httpd := httpdOf c.store }
  let store := (← get).store
  onRegistry' modules fun i r => r.reloadAll i store

def writeStore : Operation μ ω (Except Fault Unit) :=
  fun c =>
    let (result, files) := (c.store.save.run).run c.files
    (result, { c with files := files })

def recordHttpd : Operation μ ω Unit :=
  modify fun c => { c with store := c.store.setSection Httpd.key (some c.httpd.toSection) }

/-- Collects the live configuration and writes it. -/
def save : Operation μ ω (Except Fault Unit) := do
  recordHttpd
  let store := (← get).store
  let store ← onRegistry modules fun i r => r.collect i store
  modify fun c => { c with store := store }
  match ← writeStore with
  | .ok () => pure (.ok ())
  | .error f =>
    pure (.error (.internal ("Cannot write " ++ store.path.display ++ ": " ++ f.message)))

def selects (resource key : String) : Bool :=
  resource = "" ∨ resource = key

def snapshot (resource : String) : Operation μ ω Json.Members := do
  let httpd := (← get).httpd
  let own := if selects resource Httpd.key then [(Httpd.key, httpd.toSection)] else []
  let sections ← onRegistry modules fun i r => r.configs i
  pure (Json.Members.ofList (own ++ sections.filter fun (id, _) => selects resource id))

/-- Applies one section to its owner. A key that no open module has, and a section that its module
refuses, are passed over. -/
def applySection (key : String) (value : Json.Value) : Operation μ ω Unit :=
  if key = Httpd.key then modify fun c => { c with httpd := .ofSection (some value) }
  else do
    let _ ← onRegistry modules fun i r => r.apply i key value

/-- Applies the sections of a body in key order; with a resource only the one of that key. -/
def apply (resource : String) : Json.Members → Operation μ ω Unit
  | [] => pure ()
  | (key, value) :: rest => do
    if selects resource key then applySection modules key value
    apply resource rest

/-- Takes the modules' sections into the document, closes the modules and writes the file. -/
def shutdown : Operation μ ω (Except Fault Unit) := do
  let store := (← get).store
  let store ← onRegistry modules fun i r => r.closeAll i store
  modify fun c => { c with store := store }
  recordHttpd
  writeStore

/-- Closes what is still open when the daemon goes away. -/
def drop : Operation μ ω Unit :=
  onRegistry' modules fun i r => r.drop i

end Core

end Jukebox.Daemon
