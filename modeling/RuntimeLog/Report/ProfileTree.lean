import RuntimeLog.Pprof.Build
import RuntimeLog.Profile.Format
import RuntimeLog.Stream.Zstd.Decoder
import RuntimeLog.Text.Percentage
import RuntimeLog.Jitlog.Format

/-!
# Reports on profiles

A report shows the metadata of a profile, the shares of the categories, the most
frequent functions and the call tree, in which small shares are left out.

Reports decompress logs with the decoder of simple frames.
-/

namespace RuntimeLog
namespace Report

attribute [instance] Stream.Zstd.decompressor

/-- Lines as one text. -/
def textOfLines (lines : List String) : String :=
  String.join (lines.map fun line => line ++ "\n")

/-- The line of a category, unless it has no ticks. -/
def tagLine? (totals : TagCounts) (total : UInt64) (tag : StackTag) : Option String :=
  let ticks := totals.getD tag 0
  if ticks = 0 then none
  else
    some
      ("  " ++ Text.padLeft 8 tag.name ++ ": " ++ Text.percentText (Text.percentage ticks total) ++
        "%")

/-- The line of a function. -/
def functionLine (total : UInt64) (name : String) (ticks : UInt64) : String :=
  "  " ++ Text.percentText (Text.percentage ticks total) ++ "% " ++ name

/-- The line of a node of the call tree, unless it is the root or its share is
too small. -/
def nodeLine? (tree : CallTree) (total : UInt64) (id depth : Nat) : Option String :=
  match depth, tree.node? id with
  | level + 1, some node =>
      let share := Text.percentage node.cumulativeTicks.total total
      if Text.isBelowOne share then none
      else
        some
          (String.ofList (List.replicate (2 * level) ' ') ++ Text.percentText share ++ "% " ++
            Text.percentText (Text.percentage node.selfTicks.total total) ++ "% " ++
            node.frame.name)
  | _, _ => none

/-- The number of functions in a report. -/
def functionLimit : Nat := 10

/-- The lines of a report. -/
def profileLines (stats : Stats) (onlyVirtual : Bool) : List String :=
  let total := stats.totalTicks
  let tree := if onlyVirtual then stats.virtualCallTree else stats.callTree
  (stats.profile.metadata.toList.map fun entry => entry.1 ++ ": " ++ entry.2) ++
    [toString stats.samples.length ++ " samples, " ++ toString total ++ " ticks, " ++
      toString stats.compilingTicks ++ " while compiling"] ++
    StackTag.all.filterMap (tagLine? stats.tagTotals total) ++
    ["", "Top functions:"] ++
    ((stats.topFunctions functionLimit).map fun entry => functionLine total entry.1 entry.2) ++
    [""] ++
    tree.walk.filterMap fun entry => nodeLine? tree total entry.1 entry.2

/-- A report on a profile. -/
structure ProfileReport where
  text : String
  /-- The profile in the pprof format. -/
  pprof : Bytes
  /-- The fault which ended the profile early. -/
  fault : Option Fault

/-- Report on a profile, with the traces of a trace log if there is one. -/
def ProfileReport.ofLogs (profile : Bytes) (jitlog : Option Bytes) (onlyVirtual : Bool) :
    Except OpenError ProfileReport := do
  let profile ← Profile.format.decodeBytes profile
  let forest ← jitlog.mapM Jitlog.format.decodeBytes
  let stats := Stats.ofProfile profile (.ofProfile profile [] forest)
  return {
    text := textOfLines (profileLines stats onlyVirtual)
    pprof := (Pprof.build stats).encode
    fault := profile.fault }

end Report
end RuntimeLog
