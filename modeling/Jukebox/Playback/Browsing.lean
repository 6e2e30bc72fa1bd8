import Jukebox.Library.Media
import Jukebox.Library.View
import Jukebox.Playback.Host
import Jukebox.Playback.Refusal
/-!
# Browsing directories

A listing tells the subdirectories and the media files of a directory, each in the order of their
names. Hidden names, nodes that cannot be inspected, files without a media extension and files
whose tags cannot be read are left out.
-/
namespace Jukebox.Playback

open Storage

inductive Found where
  | directory (name : String)
  | file (info : Library.FileView)
  deriving DecidableEq, Repr

namespace Found

def directories (found : List Found) : List String :=
  found.filterMap fun
    | .directory name => some name
    | .file _ => none

def files (found : List Found) : List Library.FileView :=
  found.filterMap fun
    | .directory _ => none
    | .file info => some info

/-- The listing of the nodes found. Sorting keeps the order of equal names. -/
def listing (found : List Found) : Library.Listing where
  directories := (directories found).mergeSort fun a b => decide (a ≤ b)
  files := (files found).mergeSort fun a b => decide (a.file ≤ b.file)

end Found

variable {ω : Type} (h : Host ω)

/-- What is shown of one name in a directory. -/
def inspect (dir : Path) (name : Name) : StateM ω (Option Found) := do
  let shown := Text.lossy name
  if shown.toList.head? = some '.' then pure none
  else
    let path := dir.push name
    match ← h.kindOf? path with
    | some .directory => pure (some (.directory shown))
    | some .file =>
      if Library.isMediaFile path then
        match ← h.readTags path with
        | .ok tags => pure (some (.file ⟨shown, some (.complete tags)⟩))
        | .error _ => pure none
      else pure none
    | _ => pure none

def inspectAll (dir : Path) : List Name → StateM ω (List Found)
  | [] => pure []
  | name :: rest => do
    let first ← inspect h dir name
    let others ← inspectAll dir rest
    pure (first.toList ++ others)

def browse (dir : Path) : StateM ω (Except Refusal Library.Listing) := do
  match ← h.readDirectory dir with
  | .error e => pure (.error (.listing e))
  | .ok names => do
    let found ← inspectAll h dir names
    pure (.ok (Found.listing found))

end Jukebox.Playback
