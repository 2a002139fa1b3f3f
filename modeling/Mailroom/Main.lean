import Mailroom.CommandLine.Program
import Std.Time.Zoned

/-! The program.

It gathers the surroundings of a run, and prints what the run comes to. A server is met
through a recording of what it sends, one file for each connection; the environment names
these files in `MAILSIFT_RECORDINGS`, divided by colons. -/
namespace Mailroom.CommandLine

/-- The bytes of a file, if it can be read. -/
def contents? (path : String) : IO (Option Bytes) := do
  try return some (← IO.FS.readBinFile path).toList
  catch _ => return none

def gather (paths : List String) : IO Files :=
  paths.mapM fun path => return (path, ← contents? path)

def currentDate : IO Date := do
  let now ← Std.Time.PlainDate.now
  return (Date.ofNumbers? now.year.toInt now.month.val.toNat now.day.val.toNat).getD default

/-- What the servers send, connection by connection. -/
def recordings : IO (List (List Bytes)) := do
  let paths := (← IO.getEnv "MAILSIFT_RECORDINGS").elim [] fun list => list.splitOn ":"
  return (← gather paths).map fun file => file.2.toList

/-- What is typed, up to a limit that no password needs. -/
def typed : IO Bytes := do return (← (← IO.getStdin).read 65536).toList

/-- The surroundings of a run with the given arguments. What is typed is read only if it is
needed. -/
def surroundings (arguments : List String) : IO Surroundings := do
  let bare : Surroundings :=
    { home := ← IO.getEnv "HOME", configPath := ← IO.getEnv "MAILSIFT_CONFIG",
      today := ← currentDate, scripts := ← recordings }
  let config ← gather (filesToRead arguments bare)
  let files ← gather (filesToRead arguments { bare with files := config })
  let input ← if arguments.contains "--store-password" then typed else pure []
  return { bare with files, input }

end Mailroom.CommandLine

open Mailroom.CommandLine in
def main (arguments : List String) : IO UInt32 := do
  let outcome := start arguments (← surroundings arguments)
  outcome.output.forM IO.println
  outcome.errors.forM IO.eprintln
  return outcome.code.toUInt32
