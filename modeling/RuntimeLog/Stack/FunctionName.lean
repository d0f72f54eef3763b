import RuntimeLog.Stack.Tag

/-!
# Names of runtime functions

Compilers copy functions and mark the copies by suffixes of their names.  Some
functions of the runtime put everything which they call into one category.
-/

namespace RuntimeLog
namespace FunctionName

/-- The words of the suffixes which mark a copy of a function. -/
def cloneWords : List (List Char) :=
  ["part", "isra", "constprop", "cold", "lto_priv"].map String.toList

/-- Take the part behind the last dot off a reversed name.  Both parts are
reversed. -/
def cutAtDot? (reversed : List Char) : Option (List Char × List Char) :=
  match reversed.dropWhile (· != '.') with
  | [] => none
  | _ :: rest => some (reversed.takeWhile (· != '.'), rest)

/-- Whether a reversed part of a name is the word of a suffix. -/
def isCloneWord (reversed : List Char) : Bool :=
  cloneWords.contains reversed.reverse

/-- Take one suffix off a reversed name: a word, or a word and a number. -/
def cutSuffix? (reversed : List Char) : Option (List Char) :=
  match cutAtDot? reversed with
  | none => none
  | some (last, rest) =>
      if isCloneWord last then some rest
      else if !last.isEmpty && last.all Char.isDigit then
        match cutAtDot? rest with
        | none => none
        | some (word, rest) => if isCloneWord word then some rest else none
      else none

/-- Cutting at a dot leaves less of a name. -/
theorem length_of_cutAtDot?
    {reversed last rest : List Char}
    (cut : cutAtDot? reversed = some (last, rest)) :
    rest.length < reversed.length := by
  unfold cutAtDot? at cut
  split at cut
  · cases cut
  · rename_i dot rest' dropped
    cases cut
    have shorter := (List.dropWhile_sublist (l := reversed) (· != '.')).length_le
    rw [dropped] at shorter
    exact shorter

/-- Taking off a suffix leaves less of a name. -/
theorem length_of_cutSuffix?
    {reversed rest : List Char}
    (cut : cutSuffix? reversed = some rest) :
    rest.length < reversed.length := by
  unfold cutSuffix? at cut
  split at cut
  · cases cut
  · rename_i last base dotted
    have outer := length_of_cutAtDot? dotted
    split at cut
    · cases cut
      exact outer
    · split at cut
      · split at cut
        · cases cut
        · rename_i word inner innerDotted
          have deeper := length_of_cutAtDot? innerDotted
          split at cut
          · cases cut
            omega
          · cases cut
      · cases cut

/-- Take all suffixes off a reversed name. -/
def stripReversed (reversed : List Char) : List Char :=
  match _cut : cutSuffix? reversed with
  | none => reversed
  | some rest => stripReversed rest
termination_by reversed.length
decreasing_by exact length_of_cutSuffix? _cut

/-- The name of the function of which a function is a copy. -/
def withoutClones (name : String) : String :=
  String.ofList (stripReversed name.toList.reverse).reverse

/-- The functions which put everything they call into one category. -/
def specialFunctions : List (String × StackTag) :=
  [("pypy_g_resume_in_blackhole", .warmup),
    ("pypy_g_blackhole_from_resumedata", .warmup),
    ("pypy_g_compile_and_run_once", .warmup),
    ("pypy_g_send_bridge_to_backend", .warmup),
    ("pypy_g_IncrementalMiniMarkGC_major_collection_step", .gcMajor),
    ("pypy_g_IncrementalMiniMarkGC_minor_collection", .gcMinor),
    ("pypy_g_IncrementalMiniMarkGC_collect_and_reserve", .gcMinor)]

/-- The category of a function which has a fixed one. -/
def specialTag? (name : String) : Option StackTag :=
  specialFunctions.lookup (withoutClones name)

end FunctionName
end RuntimeLog
