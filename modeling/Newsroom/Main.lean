import Newsroom.CommandLine.Program

/-!
# Main

The command line of the newsroom: reads the configuration file that it is given,
runs the newsroom and prints what the screen manager shows.
-/

namespace Newsroom

/-- The number by which the operating system reports an error.  Some errors carry
it negated. -/
def errorNumber? : IO.Error → Option Nat
  | .noFileOrDirectory _ code _ | .permissionDenied _ code _ | .inappropriateType _ code _
  | .invalidArgument _ code _ => some (min code.toNat (0 - code).toNat)
  | _ => none

/-- What reading a file gave. -/
def readContents (path : String) : IO (Except SystemFault ByteArray) := do
  match Path.fault? path with
  | some fault => return .error fault
  | none =>
      try
        return .ok (← IO.FS.readBinFile path)
      catch e =>
        return .error (((errorNumber? e).bind SystemFault.ofNumber?).getD (.other (toString e)))

/-- A seed that nobody has chosen. -/
def freshSeed : IO UInt64 := do
  let bytes ← IO.getRandomBytes 8
  return bytes.foldl (fun n b => n * 256 + b.toUInt64) 0

/-- Prints what a run of the program has left behind. -/
def report (r : CommandLine.Result) : IO UInt32 := do
  for l in r.lines do
    IO.println l
  match r.errorLine with
  | some l => IO.eprintln l
  | none => pure ()
  return r.exitCode.toUInt32

end Newsroom

/-- Runs the program. -/
def main (args : List String) : IO UInt32 := do
  match Newsroom.CommandLine.parse args with
  | .error stop => Newsroom.report (Newsroom.CommandLine.stopped stop)
  | .ok options =>
      let contents ← Newsroom.readContents options.config
      Newsroom.report (Newsroom.CommandLine.execute options contents (← Newsroom.freshSeed))
