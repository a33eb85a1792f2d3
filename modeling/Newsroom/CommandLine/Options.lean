import Newsroom.Text.Numeral
import Newsroom.Text.Search

/-!
# Command line

What the arguments of the program ask for.

## Main Definitions

* `Options` — a configuration file and what may replace its settings
* `UsageError` — why arguments make no sense
* `Request` — a run, or the version or usage of the program
* `CommandLine.parse` — the request of a list of arguments

## Design Notes

Arguments are read from left to right.  The first that is wrong, or that asks for
the version or the usage, decides; that the file is missing is noticed at the
end.  The value of an option follows a `=` or is the next argument, which then
must not look like an option itself.  After `--` no argument is an option.
-/

namespace Newsroom.CommandLine

/-- What a run is asked to do. -/
structure Options where
  config : String
  seed : Option UInt64 := none
  editDelayMs : Option UInt64 := none
  logLevel : Option String := none
  deriving DecidableEq, Repr

/-- Why arguments make no sense. -/
inductive UsageError where
  | unknownOption (argument : String)
  | surplusArgument (argument : String)
  | unexpectedValue (option : String)
  | missingValue (option : String)
  | invalidValue (option : String)
  | repeatedOption (option : String)
  | missingConfig
  deriving DecidableEq, Repr

/-- What stops the reading of arguments. -/
inductive Stop where
  | usage (fault : UsageError)
  | version
  | help
  deriving DecidableEq, Repr

/-- What has been read of the arguments. -/
structure Draft where
  config : Option String := none
  seed : Option UInt64 := none
  editDelayMs : Option UInt64 := none
  logLevel : Option String := none
  deriving DecidableEq, Repr

/-- The options that take a value. -/
inductive Setting where
  | seed
  | editDelayMs
  | logLevel
  deriving DecidableEq, Repr

/-- How an option is written. -/
def Setting.flag : Setting → String
  | seed => "--seed"
  | editDelayMs => "--edit-delay-ms"
  | logLevel => "--log-level"

/-- The option that takes a value and is written in a given way. -/
def Setting.ofFlag? (s : String) : Option Setting :=
  [seed, editDelayMs, logLevel].find? fun o => o.flag == s

/-- A value for something that may be given once. -/
def once {α : Type} (flag : String) (old new : Option α) : Except Stop (Option α) :=
  match old, new with
  | some _, _ => .error (.usage (.repeatedOption flag))
  | none, none => .error (.usage (.invalidValue flag))
  | none, some a => .ok (some a)

/-- An option with its value. -/
def Draft.set (d : Draft) (o : Setting) (value : String) : Except Stop Draft :=
  match o with
  | .seed => do
      let seed ← once o.flag d.seed (Text.word64? value.toList)
      return { d with seed }
  | .editDelayMs => do
      let editDelayMs ← once o.flag d.editDelayMs (Text.word64? value.toList)
      return { d with editDelayMs }
  | .logLevel => do
      let logLevel ← once o.flag d.logLevel (some value)
      return { d with logLevel }

/-- An argument that is no option names the configuration file. -/
def Draft.addArgument (d : Draft) (a : String) : Except Stop Draft :=
  match d.config with
  | some _ => .error (.usage (.surplusArgument a))
  | none => if a.isEmpty then .error (.usage .missingConfig) else .ok { d with config := some a }

/-- Whether an argument looks like an option. -/
def looksLikeOption (a : String) : Bool :=
  match a.toList with
  | '-' :: _ :: _ => true
  | _ => false

/-- What a single argument is. -/
inductive Argument where
  /-- No option follows. -/
  | separator
  | setting (o : Setting) (value : Option String)
  | version
  | help
  /-- An option without a value, with a value. -/
  | valued (flag : String)
  | unknown
  | plain

/-- The part of an argument before its first `=`, and what follows it. -/
def splitValue (a : String) : String × Option String :=
  (String.ofList (a.toList.takeWhile (· != '=')), (Text.afterFirst? '=' a.toList).map String.ofList)

/-- What a long option is. -/
def longOption (a : String) : Argument :=
  let (flag, value) := splitValue a
  match Setting.ofFlag? flag with
  | some o => .setting o value
  | none =>
      if flag = "--version" then if value.isSome then .valued flag else .version
      else if flag = "--help" then if value.isSome then .valued flag else .help
      else .unknown

/-- What an argument is where options are possible. -/
def classify (a : String) : Argument :=
  match a.toList with
  | ['-', '-'] => .separator
  | '-' :: '-' :: _ => longOption a
  | '-' :: 'V' :: _ => .version
  | '-' :: 'h' :: _ => .help
  | '-' :: _ :: _ => .unknown
  | _ => .plain

/-- The arguments after a separator. -/
def readPlain (d : Draft) : List String → Except Stop Draft
  | [] => .ok d
  | a :: as =>
      match d.addArgument a with
      | .ok d => readPlain d as
      | .error s => .error s

/-- The arguments where options are possible. -/
def readArguments (d : Draft) : List String → Except Stop Draft
  | [] => .ok d
  | a :: as =>
      match classify a with
      | .separator => readPlain d as
      | .version => .error .version
      | .help => .error .help
      | .valued flag => .error (.usage (.unexpectedValue flag))
      | .unknown => .error (.usage (.unknownOption a))
      | .plain =>
          match d.addArgument a with
          | .ok d => readArguments d as
          | .error s => .error s
      | .setting o (some value) =>
          match d.set o value with
          | .ok d => readArguments d as
          | .error s => .error s
      | .setting o none =>
          match as with
          | [] => .error (.usage (.missingValue o.flag))
          | value :: as =>
              if looksLikeOption value then .error (.usage (.missingValue o.flag))
              else
                match d.set o value with
                | .ok d => readArguments d as
                | .error s => .error s

/-- The run that arguments ask for, or what they ask for instead. -/
def parse (args : List String) : Except Stop Options := do
  let d ← readArguments {} args
  match d.config with
  | some config => return { d with config }
  | none => throw (.usage .missingConfig)

end Newsroom.CommandLine
