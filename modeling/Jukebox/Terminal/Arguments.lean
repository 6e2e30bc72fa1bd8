import Jukebox.Terminal.Options
import Jukebox.Terminal.Similarity
import Jukebox.Text.Numeral
/-!
# Reading the command line

Options come in a long form (`--port 1`, `--port=1`) and a short one (`-p 1`, `-p1`, `-p=1`); short
options without a value may be written together. A value may not look like an option. An option may
be given once. One that is not given takes its value from its variable, if that is set.

The first mistake ends the reading, and so does a request for help or for the version.
-/
namespace Jukebox.Terminal

structure Arguments where
  config : Option String
  port : Option UInt16
  verbose : Bool
  deriving DecidableEq, Repr

/-- A list of options with one more, unless it is there already. -/
def withFlag (flags : List Flag) (flag : Flag) : List Flag :=
  if flag ∈ flags then flags else flags ++ [flag]

inductive Misuse where
  /-- Something that is no option; with the option that may be meant, and those given. -/
  | unexpected (what : String) (similar : Option Flag) (given : List Flag)
  /-- An option without the value that it takes. -/
  | valueMissing (flag : Flag)
  /-- A value that is no port. -/
  | badPort (value reason : String)
  /-- An option that is given twice. -/
  | repeated (flag : Flag)
  /-- A value for an option that takes none; with the options given. -/
  | valueUnexpected (value : String) (flag : Flag) (given : List Flag)
  deriving DecidableEq, Repr

inductive Stop where
  | help
  | version
  | misuse (m : Misuse)
  deriving DecidableEq, Repr

namespace Misuse

def reason : Misuse → String
  | .unexpected what similar _ =>
    "unexpected argument '" ++ what ++ "' found" ++ match similar with
      | some f => "\n\n  tip: a similar argument exists: '--" ++ f.long ++ "'"
      | none => ""
  | .valueMissing flag =>
    "a value is required for '" ++ flag.label ++ "' but none was supplied"
  | .badPort value reason =>
    "invalid value '" ++ value ++ "' for '" ++ Flag.port.label ++ "': " ++ reason
  | .repeated flag => "the argument '" ++ flag.label ++ "' cannot be used multiple times"
  | .valueUnexpected value flag _ =>
    "unexpected value '" ++ value ++ "' for '" ++ flag.label ++
      "' found; no more were expected"

/-- The usage that is shown with a mistake, if one is. After a value for an option that takes none,
the settings given before are shown together, and so is the option if it is one of them. -/
def usage? : Misuse → Option String
  | .unexpected _ _ given => some (usage given)
  | .valueMissing _ => none
  | .badPort _ _ => none
  | .repeated _ => some (usage [])
  | .valueUnexpected _ flag [] => some (usage [flag])
  | .valueUnexpected _ .help _ => some (usageLine [Flag.help.label, anySetting])
  | .valueUnexpected _ .version _ => some (usageLine [Flag.version.label, anySetting])
  | .valueUnexpected _ _ _ => some (usageLine [anySetting])

def message (m : Misuse) : String :=
  let shown := match m.usage? with
    | some text => "\n\n" ++ text
    | none => ""
  "error: " ++ m.reason ++ shown ++ "\n\nFor more information, try '--help'.\n"

end Misuse

/-- Digits read as a number in a range of signed words of 64 bits, or what is wrong with them. The
sign is applied to every digit, so the range is left as soon as it is left. -/
def wordDigits (sign : Int) : Int → List Char → Except String Int
  | n, [] => .ok n
  | n, c :: rest =>
    if c.isDigit then
      let next := n * 10 + sign * Int.ofNat (c.toNat - '0'.toNat)
      if (Text.Numeral.signedBound : Int) ≤ next then
        .error "number too large to fit in target type"
      else if next < -(Text.Numeral.signedBound : Int) then
        .error "number too small to fit in target type"
      else wordDigits sign next rest
    else .error "invalid digit found in string"

def wordOf (s : String) : Except String Int :=
  match s.toList with
  | [] => .error "cannot parse integer from empty string"
  | ['+'] => .error "invalid digit found in string"
  | ['-'] => .error "invalid digit found in string"
  | '+' :: rest => wordDigits 1 0 rest
  | '-' :: rest => wordDigits (-1) 0 rest
  | cs => wordDigits 1 0 cs

def portOf (s : String) : Except String UInt16 := do
  let n ← wordOf s
  if 0 ≤ n ∧ n ≤ 65535 then return UInt16.ofNat n.toNat
  else throw (toString n ++ " is not in 0..=65535")

structure Progress where
  given : List Flag
  arguments : Arguments
  open? : Option (Flag × Option String)
  deriving DecidableEq, Repr

namespace Progress

def start : Progress :=
  ⟨[], ⟨none, none, false⟩, none⟩

/-- The value of an option put into the arguments. -/
def store (a : Arguments) (flag : Flag) (value : String) : Except Misuse Arguments :=
  match flag with
  | .config =>
    if value = "" then .error (.valueMissing .config) else .ok { a with config := some value }
  | .port =>
    match portOf value with
    | .ok port => .ok { a with port := some port }
    | .error reason => .error (.badPort value reason)
  | _ => .ok { a with verbose := true }

/-- Takes an option over. An option given twice is forgotten. -/
def accept (p : Progress) (flag : Flag) (value : String) : Progress × Option Misuse :=
  if flag ∈ p.given then ({ p with given := p.given.erase flag }, some (.repeated flag))
  else
    let p := { p with given := p.given ++ [flag] }
    match store p.arguments flag value with
    | .ok arguments => ({ p with arguments }, none)
    | .error m => (p, some m)

def settle (p : Progress) : Progress × Option Misuse :=
  match p.open? with
  | none => (p, none)
  | some (flag, none) => ({ p with open? := none }, some (.valueMissing flag))
  | some (flag, some value) => { p with open? := none }.accept flag value

/-- The progress after a step that may have found a mistake. -/
def checked (r : Progress × Option Misuse) : Except Stop Progress :=
  match r.2 with
  | some m => .error (.misuse m)
  | none => .ok r.1

def meet (p : Progress) (flag : Flag) : Except Stop Progress := do
  let p ← checked p.settle
  match flag with
  | .help => .error .help
  | .version => .error .version
  | _ => checked (p.accept flag "")

def meetValued (p : Progress) (flag : Flag) (value : Option String) : Except Stop Progress := do
  let p ← checked p.settle
  match value with
  | some v => checked (p.accept flag v)
  | none => .ok { p with open? := some (flag, none) }

/-- An argument that is no option, with the option that may be meant. What is read by then is taken
over as far as it goes. -/
def unknownOption (p : Progress) (name : String) : Except Stop Progress :=
  let similar := closest? name Flag.long Flag.all
  let given := match similar with
    | some flag => withFlag p.settle.1.given flag
    | none => p.settle.1.given
  .error (.misuse (.unexpected ("--" ++ name) similar given))

def misplaced (what : String) : Except Stop Progress :=
  .error (.misuse (.unexpected what none []))

/-- A run of short options. The rest of the run is the value of the first one that takes one. -/
def readRun : List Char → Progress → Except Stop Progress
  | [], p => .ok p
  | c :: rest, p =>
    match Flag.ofShort? c with
    | none => misplaced (String.ofList ['-', c])
    | some flag =>
      if flag.takesValue then
        p.meetValued flag (match rest with
          | [] => none
          | '=' :: value => some (String.ofList value)
          | value => some (String.ofList value))
      else do
        let p ← p.meet flag
        readRun rest p

/-- A long option, with its value if one is attached. -/
def readLong (p : Progress) (name : String) (value : Option String) : Except Stop Progress :=
  match Flag.ofLong? name with
  | none => p.unknownOption name
  | some flag =>
    if flag.takesValue then p.meetValued flag value
    else
      match value with
      | some v => .error (.misuse (.valueUnexpected v flag p.given))
      | none => p.meet flag

/-- Reads the command line to its end. After `--` nothing has a place. -/
def readAll : List String → Progress → Except Stop Progress
  | [], p => checked p.settle
  | a :: rest, p =>
    match a.toList with
    | ['-', '-'] =>
      match rest with
      | [] => checked p.settle
      | next :: _ => misplaced next
    | '-' :: '-' :: cs => do
      let name := cs.takeWhile (· ≠ '=')
      let value := match cs.dropWhile (· ≠ '=') with
        | [] => none
        | _ :: v => some (String.ofList v)
      let p ← p.readLong (String.ofList name) value
      readAll rest p
    | '-' :: c :: cs => do
      let p ← readRun (c :: cs) p
      readAll rest p
    | _ =>
      match p.open? with
      | some (flag, none) => readAll rest { p with open? := some (flag, some a) }
      | _ => misplaced a

/-- Takes the value of an option from its variable unless the option is given. -/
def completeFrom (environment : Environment) (p : Progress) (flag : Flag) :
    Except Stop Progress :=
  if flag ∈ p.given then .ok p
  else
    match flag.variableName?.bind environment with
    | some value => checked (p.accept flag value)
    | none => .ok p

end Progress

def Arguments.read (environment : Environment) (args : List String) :
    Except Stop Arguments := do
  let p ← Progress.readAll args .start
  let p ← p.completeFrom environment .config
  let p ← p.completeFrom environment .port
  return p.arguments

end Jukebox.Terminal
