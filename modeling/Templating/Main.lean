import Std.Time.Zoned
import Templating.CommandLine.Demand
import Templating.CommandLine.Report

/-!
# The program

Reads the files that a command looks at, runs the command on them, and writes its
report. Everything else is decided by `CommandLine.run`.
-/

namespace Templating

section Outside

/-- What lies at a path, if anything does. -/
def observe (path : String) : IO (Option Entry) := do
  try
    let bytes ← IO.FS.readBinFile path
    match String.fromUTF8? bytes with
    | some content => pure (some (.text content))
    | none => pure (some .binary)
  catch e =>
    match e with
    | .inappropriateType .. => pure (some (.directory []))
    | _ => pure none

/-- What lies at a path and on the way to it, under the names from the root. -/
def entriesAt (here : List String) (path : String) :
    IO (List (List String × Entry)) := do
  match ← observe path with
  | none => pure []
  | some entry =>
      pure
        ((Path.names here path, entry) ::
          (Path.passed here path).map (·, .directory []))

/-- Reads the files that are demanded, until no more are. -/
partial def snapshot (here : List String) (arguments : List String)
    (seen : List String) (entries : List (List String × Entry)) : IO FileTree := do
  let files := FileTree.ofEntries here entries
  let unseen := (CommandLine.demanded arguments files).filter (!seen.contains ·)
  if unseen.isEmpty then
    pure files
  else
    let found ← unseen.eraseDups.mapM (entriesAt here)
    snapshot here arguments (unseen ++ seen) (entries ++ found.flatten)

/-- The wall clock, with the offset of the local time zone if it is known. -/
def readClock : IO Clock := do
  let now ← Std.Time.Timestamp.now
  let nanos := now.toNanosecondsSinceUnixEpoch.val
  let offset ←
    try
      let rules ← Std.Time.Database.defaultGetLocalZoneRules
      pure (rules.findLocalTimeTypeForTimestamp now).getTimeZone.offset.second.val
    catch _ => pure 0
  pure ⟨nanos / 1000000000, (nanos % 1000000000).toNat, offset⟩

end Outside

end Templating

open Templating

/-- Runs the program with the arguments of the command line. -/
def main (arguments : List String) : IO UInt32 := do
  let here := Path.names [] (← IO.currentDir).toString
  let files ← snapshot here arguments [] []
  let report := CommandLine.run ⟨files, ← readClock⟩ arguments
  IO.print report.stdout
  IO.eprint report.stderr
  pure (UInt32.ofNat report.code)
