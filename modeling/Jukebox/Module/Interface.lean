import Jukebox.Fault
import Jukebox.Http.Route
import Jukebox.Json.Printer
/-!
# The module contract

A module is linked in under an id. Opening it with its section of the configuration gives its state,
or fails. From then on it is asked for its configuration, given a new one, asked for its routes and
called to answer requests, until it is closed.

Modules share a world `ω` that every call may look at and change; the states of different modules
have one type `μ`, and their handlers one type `η`.

Routes, modules and what they are opened with have descriptions, for people who look into the
daemon.
-/
namespace Jukebox.Module

abbrev Call (μ ω α : Type) := StateT μ (StateM ω) α

structure Interface (μ ω η : Type) where
  /-- Applies a section; none means the defaults. -/
  setConfig : Option Json.Value → Call μ ω (Except Fault Unit)
  /-- The present section, if the module has one. -/
  getConfig : Call μ ω (Option Json.Value)
  /-- The URL table. -/
  routes : Call μ ω (List (Http.Route η))
  /-- Answers a request. -/
  handle : η → Http.Request → Call μ ω Http.Reply
  /-- Ends the module. -/
  close : Call μ ω (Except Fault Unit)

structure Descriptor (μ ω : Type) where
  id : String
  name : String
  description : String
  /-- Opens the module with its section of the configuration. -/
  opening : Option Json.Value → StateM ω (Except Fault μ)

open Text (literal)

def describeRoute {η : Type} (r : Http.Route η) : String :=
  "Route \x7b path: " ++ literal r.path ++ ", flags: UrlFlags(" ++ toString r.flagCode ++
    "), methods: MethodMask(" ++ toString (Http.Method.code r.methods) ++ ") \x7d"

/-- Description of what a module is opened with. -/
def describeOpening (config : Option Json.Value) : String :=
  let text := match config with
    | none => "None"
    | some v => "Some(" ++ v.describe ++ ")"
  "ModuleContext \x7b config: " ++ text ++ ", .. \x7d"

def Descriptor.describe {μ ω : Type} (d : Descriptor μ ω) : String :=
  "ModuleDescriptor \x7b id: " ++ literal d.id ++ ", name: " ++ literal d.name ++ " \x7d"

end Jukebox.Module
