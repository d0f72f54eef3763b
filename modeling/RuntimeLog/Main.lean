import RuntimeLog.Report.TraceExport
import RuntimeLog.Report.TraceListing

/-!
# Command line

Reads logs from files and prints reports on them: `profiletree` reports on a
profile, `jitlogdump` lists the traces of a trace log, and `jitlogjson` exports
them.
-/

namespace RuntimeLog
namespace Main

/-- What a report on a profile is asked for. -/
structure Options where
  profile : Option String
  jitlog : Option String
  pprof : Option String
  onlyVirtual : Bool

/-- The options of a list of arguments.  The last argument of a sort counts. -/
def Options.parse (options : Options) : List String → Options
  | "--jitlog" :: path :: rest => parse { options with jitlog := some path } rest
  | ["--jitlog"] => { options with jitlog := none }
  | "--pprof" :: path :: rest => parse { options with pprof := some path } rest
  | ["--pprof"] => { options with pprof := none }
  | "--virtual" :: rest => parse { options with onlyVirtual := true } rest
  | path :: rest => parse { options with profile := some path } rest
  | [] => options

/-- The bytes of a file. -/
def readBytes (path : String) : IO Bytes := do
  return (← IO.FS.readBinFile path).toList

/-- The exit code where a log cannot be opened and nothing was printed. -/
def brokenLog : UInt32 := 101

/-- The exit code of other failures. -/
def failure : UInt32 := 1

/-- Print a message about what went wrong. -/
def complain (code : UInt32) (message : String) : IO UInt32 := do
  IO.eprintln message
  return code

/-- Run a command; where it cannot read or write a file, end with a code. -/
def orComplain (code : UInt32) (command : IO UInt32) : IO UInt32 :=
  tryCatch command fun error => complain code (toString error)

/-- Report on a profile. -/
def profileTree (arguments : List String) : IO UInt32 := do
  let options : Options :=
    Options.parse { profile := none, jitlog := none, pprof := none, onlyVirtual := false }
      arguments
  match options.profile with
  | none =>
      complain failure
        "Usage: profiletree <profile> [--jitlog <jitlog>] [--virtual] [--pprof <out.pb>]"
  | some path =>
      let profile ← readBytes path
      let jitlog ← options.jitlog.mapM readBytes
      match Report.ProfileReport.ofLogs profile jitlog options.onlyVirtual with
      | .error error => complain brokenLog error.message
      | .ok report =>
          if let some fault := report.fault then
            IO.eprintln ("Profile decoding stopped early: " ++ fault.message)
          IO.print report.text
          if let some path := options.pprof then
            IO.FS.writeBinFile path ⟨report.pprof.toArray⟩
            IO.eprintln ("Wrote " ++ path)
          return 0

/-- List the traces of a log. -/
def dump (path : String) : IO UInt32 := do
  match Report.traceListing (← readBytes path) with
  | .error error => complain brokenLog error.message
  | .ok listing =>
      IO.print listing
      return 0

/-- The contents of the files which merge points name, as far as they exist. -/
def readSources (forest : Forest) : IO SourceFiles := do
  let mut files : SourceFiles := ∅
  for (file, _) in forest.referencedLines do
    unless files.contains file do
      match ← (IO.FS.readFile file).toBaseIO with
      | .ok contents => files := files.insert file contents
      | .error _ => pure ()
  return files

/-- Export the traces of a log. -/
def exportTraces (path : String) : IO UInt32 := do
  let jitlog ← readBytes path
  match Jitlog.format.decodeBytes jitlog with
  | .error error => complain failure ("Failed to decode " ++ path ++ ": " ++ error.message)
  | .ok forest =>
      let (filled, added) := forest.extractSources (← readSources forest)
      IO.eprintln ("Read " ++ toString added ++ " source lines from disk")
      IO.println (Report.forestValue filled).pretty
      return 0

/-- The trace log which is listed if none is named. -/
def usualJitlog : String := "pypy.jitlog"

end Main
end RuntimeLog

open RuntimeLog.Main in
/-- Run the command which the first argument names. -/
def main (arguments : List String) : IO UInt32 :=
  match arguments with
  | "profiletree" :: rest => orComplain brokenLog (profileTree rest)
  | ["jitlogdump"] => orComplain failure (dump usualJitlog)
  | "jitlogdump" :: path :: _ => orComplain failure (dump path)
  | "jitlogjson" :: path :: _ => orComplain failure (exportTraces path)
  | _ => complain failure "Usage: runtimelog (profiletree | jitlogdump | jitlogjson) <file>"
