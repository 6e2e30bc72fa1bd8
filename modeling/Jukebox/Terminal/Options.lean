/-!
# Options of the command line

What the program can be told when it is started, and the texts that describe it.
-/
namespace Jukebox.Terminal

abbrev Environment := String → Option String

inductive Flag where
  | config | port | verbose | help | version
  deriving DecidableEq, Repr

namespace Flag

def all : List Flag := [.config, .port, .verbose, .help, .version]

def long : Flag → String
  | .config => "config"
  | .port => "port"
  | .verbose => "verbose"
  | .help => "help"
  | .version => "version"

def short : Flag → Char
  | .config => 'c'
  | .port => 'p'
  | .verbose => 'v'
  | .help => 'h'
  | .version => 'V'

def placeholder? : Flag → Option String
  | .config => some "<CONFIG>"
  | .port => some "<PORT>"
  | _ => none

def takesValue (f : Flag) : Bool :=
  f.placeholder?.isSome

/-- The variable that gives the value when the command line does not. -/
def variableName? : Flag → Option String
  | .config => some "AIRCAT_CONFIG"
  | .port => some "AIRCAT_PORT"
  | _ => none

def purpose : Flag → String
  | .config => "Configuration file"
  | .port => "Port to listen on, overriding the configuration for this run"
  | .verbose => "Enable debug logging"
  | .help => "Print help"
  | .version => "Print version"

/-- The option as it is spoken of: its long name and what stands for its value. -/
def label (f : Flag) : String :=
  "--" ++ f.long ++ match f.placeholder? with
    | some p => " " ++ p
    | none => ""

def ofLong? (name : String) : Option Flag :=
  all.find? (·.long = name)

def ofShort? (name : Char) : Option Flag :=
  all.find? (·.short = name)

def names (f : Flag) : String :=
  "-" ++ f.short.toString ++ ", " ++ f.label

/-- A line of the description. The purposes stand in a column. -/
def helpLine (environment : Environment) (f : Flag) : String :=
  let width := (all.map (·.names.length)).foldl max 0
  let value := match f.variableName? with
    | some v => " [env: " ++ v ++ "=" ++ (environment v).getD "" ++ "]"
    | none => ""
  "  " ++ f.names ++ "".pushn ' ' (width - f.names.length + 2) ++ f.purpose ++ value ++ "\n"

end Flag

/-- How the program is called with what is written after its name. -/
def usageLine (parts : List String) : String :=
  "Usage: aircat " ++ " ".intercalate parts

/-- How the program is called, with the options that matter at the moment or with any. -/
def usage (flags : List Flag) : String :=
  usageLine (if flags = [] then ["[OPTIONS]"] else flags.map (·.label))

/-- The options that set the program up, for use where any of them may stand. -/
def anySetting : String :=
  "<" ++ "|".intercalate ([Flag.config, .port, .verbose].map (·.label)) ++ ">"

/-- The description of the program. It shows the present values of the variables. -/
def helpText (environment : Environment) : String :=
  "AirCat networked media daemon\n\n" ++ usage [] ++ "\n\nOptions:\n" ++
    String.join (Flag.all.map (·.helpLine environment))

def versionText : String :=
  "aircat 0.1.0\n"

end Jukebox.Terminal
