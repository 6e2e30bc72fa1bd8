import Jukebox.Storage.FileSystem
/-!
# Where the configuration is

A path on the command line wins over one from the environment, that over the file in the user's
configuration directory if there is one, and that over the file of the system.
-/
namespace Jukebox.Config

open Storage

structure Places where
  /-- Path given on the command line. -/
  argument : Option Path
  /-- Path given in the environment. -/
  environment : Option String
  /-- Configuration home of the user, counted only if absolute. -/
  configHome : Option Path
  /-- Home directory of the user. -/
  home : Option Path
  deriving DecidableEq, Repr

def fileName : String := "aircat.conf"

def directoryName : String := "aircat"

def systemPath : Path :=
  Path.ofString "/etc/aircat/aircat.conf"

namespace Places

def userDirectory? (p : Places) : Option Path :=
  match p.configHome with
  | some dir =>
    if dir.isAbsolute then some dir else p.home.map (·.push (Text.bytesOf ".config"))
  | none => p.home.map (·.push (Text.bytesOf ".config"))

def userPath? (p : Places) : Option Path :=
  p.userDirectory?.map fun dir =>
    (dir.push (Text.bytesOf directoryName)).push (Text.bytesOf fileName)

/-- The file of the user if it is there, or else that of the system. -/
def defaultPath (p : Places) (fs : FileSystem) : Path :=
  match p.userPath? with
  | some path => if fs.isThere path then path else systemPath
  | none => systemPath

def candidates (p : Places) : List Path :=
  p.argument.toList ++ (p.environment.map Path.ofString).toList ++ p.userPath?.toList ++
    [systemPath]

def choose (p : Places) (fs : FileSystem) : Path :=
  match p.argument with
  | some path => path
  | none =>
    match p.environment with
    | some v => if v = "" then p.defaultPath fs else Path.ofString v
    | none => p.defaultPath fs

end Places

end Jukebox.Config
