import RuntimeLog.Stack.FunctionName

/-!
# Suffixes of copied functions

A compiler marks the copies of a function by suffixes of its name.  No suffix ends like
another one, so that the last suffix of a name is determined by the name: whatever name
the suffixes were added to, to take them off from the end leads back to it, and further
as long as it has suffixes itself.
-/

namespace RuntimeLog
namespace FunctionName

/-- The words which mark a copy. -/
def suffixWords : List String :=
  ["part", "isra", "constprop", "cold", "lto_priv"]

/-- The suffixes which mark a copy: a word behind a dot, or a word and a number, each
behind a dot. -/
inductive IsCloneSuffix : String → Prop
  | word
      {word : String}
      (known : word ∈ suffixWords) :
      IsCloneSuffix ("." ++ word)
  | numbered
      {word digits : String}
      (known : word ∈ suffixWords)
      (nonempty : digits ≠ "")
      (decimal : ∀ digit ∈ digits.toList, digit.isDigit) :
      IsCloneSuffix ("." ++ word ++ "." ++ digits)

/-- Whether a name is another one with some suffixes, or with none. -/
def IsBase (name base : String) : Prop :=
  ∃ suffixes : List String,
    (∀ suffix ∈ suffixes, IsCloneSuffix suffix) ∧ name = base ++ String.join suffixes

/-- The shortest of the names to which suffixes can be added to get a name. -/
structure IsShortestBase (name base : String) : Prop where
  isBase : IsBase name base
  length_le : ∀ other, IsBase name other → base.length ≤ other.length

variable {word digits suffix name base : String} {suffixes : List String}
variable {reversed part rest : List Char}

/-! ## Parts of names -/

/-- A name is cut at its last dot. -/
theorem cutAtDot?_append (undotted : '.' ∉ part) (rest : List Char) :
    cutAtDot? (part ++ '.' :: rest) = some (part, rest) := by
  have other : ∀ letter ∈ part, (letter != '.') = true := by
    intro letter member
    rw [bne_iff_ne]
    rintro rfl
    exact undotted member
  unfold cutAtDot?
  rw [List.dropWhile_append_of_pos other, List.takeWhile_append_of_pos other]
  simp

theorem eq_of_cutAtDot? (cut : cutAtDot? reversed = some (part, rest)) :
    reversed = part ++ '.' :: rest := by
  unfold cutAtDot? at cut
  split at cut
  · cases cut
  · rename_i dot behind dropped
    cases cut
    have stopped := List.head?_dropWhile_not (· != '.') reversed
    rw [dropped] at stopped
    obtain rfl : dot = '.' := by simpa using stopped
    rw [← dropped, List.takeWhile_append_dropWhile]

theorem isCloneWord_iff :
    isCloneWord part = true ↔ ∃ word ∈ suffixWords, part = word.toList.reverse := by
  unfold isCloneWord
  rw [List.contains_iff_mem, show cloneWords = suffixWords.map String.toList from rfl,
    List.mem_map]
  refine exists_congr fun word => and_congr_right fun _ => ?_
  rw [eq_comm, List.reverse_eq_iff]

/-- A word has no dot, and is no number. -/
theorem letters_of_mem_suffixWords (known : word ∈ suffixWords) :
    '.' ∉ word.toList ∧ word.toList.all Char.isDigit = false := by
  revert word
  decide

/-- A number has no dot, and is no word. -/
theorem decimal_spec
    (nonempty : digits ≠ "")
    (decimal : ∀ digit ∈ digits.toList, digit.isDigit) :
    '.' ∉ digits.toList.reverse ∧ ¬ isCloneWord digits.toList.reverse = true ∧
      (!digits.toList.reverse.isEmpty && digits.toList.reverse.all Char.isDigit) = true := by
  refine ⟨fun member => ?_, fun isWord => ?_, ?_⟩
  · exact absurd (decimal '.' (List.mem_reverse.mp member)) (by decide)
  · obtain ⟨word, known, same⟩ := isCloneWord_iff.mp isWord
    have letters := (letters_of_mem_suffixWords known).2
    rw [← List.reverse_inj.mp same, List.all_eq_true.mpr decimal] at letters
    cases letters
  · simpa [nonempty] using decimal

/-! ## Single suffixes -/

/-- A suffix is taken off whatever name it is added to. -/
theorem cutSuffix?_append (marks : IsCloneSuffix suffix) (rest : List Char) :
    cutSuffix? (suffix.toList.reverse ++ rest) = some rest := by
  have cutWord {word : String} (known : word ∈ suffixWords) :
      cutAtDot? (word.toList.reverse ++ '.' :: rest) = some (word.toList.reverse, rest) ∧
        isCloneWord word.toList.reverse = true := by
    refine ⟨cutAtDot?_append ?_ rest, isCloneWord_iff.mpr ⟨word, known, rfl⟩⟩
    rw [List.mem_reverse]
    exact (letters_of_mem_suffixWords known).1
  cases marks with
  | @word word known =>
      obtain ⟨cut, isWord⟩ := cutWord known
      have spelled : ("." ++ word).toList.reverse ++ rest =
          word.toList.reverse ++ '.' :: rest := by
        simp
      rw [spelled, cutSuffix?, cut]
      exact if_pos isWord
  | @numbered word digits known nonempty decimal =>
      obtain ⟨cut, isWord⟩ := cutWord known
      obtain ⟨undotted, noWord, isNumber⟩ := decimal_spec nonempty decimal
      have spelled : ("." ++ word ++ "." ++ digits).toList.reverse ++ rest =
          digits.toList.reverse ++ '.' :: (word.toList.reverse ++ '.' :: rest) := by
        simp
      rw [spelled, cutSuffix?, cutAtDot?_append undotted]
      dsimp only
      rw [if_neg noWord, if_pos isNumber, cut]
      exact if_pos isWord

/-- What is taken off a name is a suffix. -/
theorem exists_suffix_of_cutSuffix? (cut : cutSuffix? reversed = some rest) :
    ∃ suffix, IsCloneSuffix suffix ∧ reversed = suffix.toList.reverse ++ rest := by
  unfold cutSuffix? at cut
  split at cut
  · cases cut
  · rename_i last behind dotted
    rw [eq_of_cutAtDot? dotted]
    split at cut
    · rename_i isWord
      cases cut
      obtain ⟨word, known, rfl⟩ := isCloneWord_iff.mp isWord
      exact ⟨_, .word known, by simp⟩
    · split at cut
      · rename_i isNumber
        rw [Bool.and_eq_true] at isNumber
        split at cut
        · cases cut
        · rename_i inner deeper innerDotted
          rw [eq_of_cutAtDot? innerDotted]
          split at cut
          · rename_i isWord
            cases cut
            obtain ⟨word, known, rfl⟩ := isCloneWord_iff.mp isWord
            refine ⟨_, @IsCloneSuffix.numbered word (String.ofList last.reverse) known ?_ ?_, by simp⟩
            · simpa using isNumber.1
            · simpa using isNumber.2
          · cases cut
      · cases cut

/-! ## All suffixes -/

theorem stripReversed_of_none (uncut : cutSuffix? reversed = none) :
    stripReversed reversed = reversed := by
  rw [stripReversed]
  split
  · rfl
  · rename_i rest cut
    cases uncut.symm.trans cut

theorem stripReversed_of_some (cut : cutSuffix? reversed = some rest) :
    stripReversed reversed = stripReversed rest := by
  rw [stripReversed]
  split
  · rename_i uncut
    cases cut.symm.trans uncut
  · rename_i other alsoCut
    cases cut.symm.trans alsoCut
    rfl

/-- A suffix of a name has no influence on what is left without its suffixes. -/
theorem withoutClones_append (marks : IsCloneSuffix suffix) (name : String) :
    withoutClones (name ++ suffix) = withoutClones name := by
  unfold withoutClones
  rw [String.toList_append, List.reverse_append,
    stripReversed_of_some (cutSuffix?_append marks name.toList.reverse)]

theorem withoutClones_append_join
    (mark : ∀ suffix ∈ suffixes, IsCloneSuffix suffix)
    (name : String) :
    withoutClones (name ++ String.join suffixes) = withoutClones name := by
  induction suffixes generalizing name with
  | nil => simp
  | cons suffix suffixes inductionHypothesis =>
      obtain ⟨first, others⟩ := List.forall_mem_cons.mp mark
      rw [String.join_cons, ← String.append_assoc, inductionHypothesis others,
        withoutClones_append first]

theorem IsBase.withoutClones_eq (isBase : IsBase name base) :
    withoutClones name = withoutClones base := by
  obtain ⟨suffixes, mark, rfl⟩ := isBase
  exact withoutClones_append_join mark base

/-- What is left of a reversed name lacks some suffixes only. -/
theorem exists_suffixes (reversed : List Char) :
    ∃ suffixes : List String, (∀ suffix ∈ suffixes, IsCloneSuffix suffix) ∧
      reversed = (String.join suffixes).toList.reverse ++ stripReversed reversed := by
  induction reversed using stripReversed.induct with
  | case1 reversed uncut => exact ⟨[], nofun, by simp [stripReversed_of_none uncut]⟩
  | case2 reversed rest cut inductionHypothesis =>
      obtain ⟨suffix, first, whole⟩ := exists_suffix_of_cutSuffix? cut
      obtain ⟨suffixes, others, left⟩ := inductionHypothesis
      refine ⟨suffixes ++ [suffix], ?_, ?_⟩
      · rw [List.forall_mem_append, List.forall_mem_singleton]
        exact ⟨others, first⟩
      · rw [stripReversed_of_some cut, String.join_append, String.toList_append,
          List.reverse_append, List.append_assoc, ← left, whole]
        simp

theorem isBase_withoutClones (name : String) : IsBase name (withoutClones name) := by
  obtain ⟨suffixes, mark, whole⟩ := exists_suffixes name.toList.reverse
  refine ⟨suffixes, mark, String.toList_inj.mp ?_⟩
  rw [List.reverse_eq_iff] at whole
  rw [whole]
  simp [withoutClones]

/-- What is left of a name is left of all its bases. -/
theorem IsBase.isBase_withoutClones (isBase : IsBase name base) :
    IsBase base (withoutClones name) := by
  rw [isBase.withoutClones_eq]
  exact FunctionName.isBase_withoutClones base

theorem IsBase.length_le (isBase : IsBase name base) : base.length ≤ name.length := by
  obtain ⟨suffixes, _, rfl⟩ := isBase
  rw [String.length_append]
  omega

theorem IsBase.eq_of_length (isBase : IsBase name base) (same : name.length ≤ base.length) :
    name = base := by
  obtain ⟨suffixes, _, rfl⟩ := isBase
  rw [String.length_append] at same
  have nothing : String.join suffixes = "" := by
    rw [← String.length_eq_zero_iff]
    omega
  rw [nothing, String.append_empty]

/-- What is left of a name without the suffixes of copies is the shortest name to which
suffixes can be added to get the given one, and the only such one.  It has no suffix
itself, and further suffixes change neither what is left nor the category of the
function. -/
theorem isShortestBase_withoutClones (name : String) :
    IsShortestBase name (withoutClones name) ∧
      (∀ base, IsShortestBase name base → base = withoutClones name) ∧
      withoutClones (withoutClones name) = withoutClones name ∧
      ∀ suffix, IsCloneSuffix suffix →
        withoutClones (name ++ suffix) = withoutClones name ∧
          specialTag? (name ++ suffix) = specialTag? name := by
  have left := isBase_withoutClones name
  refine ⟨⟨left, fun other isBase => isBase.isBase_withoutClones.length_le⟩,
    fun base shortest => ?_, left.withoutClones_eq.symm, fun suffix marks => ?_⟩
  · exact shortest.isBase.isBase_withoutClones.eq_of_length (shortest.length_le _ left)
  · have same := withoutClones_append marks name
    exact ⟨same, congrArg (List.lookup · specialFunctions) same⟩

/-- Words and numbers in front of a suffix need not belong to one. -/
example :
    withoutClones "a.2.isra.0.part.cold.17" = "a.2" ∧ withoutClones "part.3.c" = "part.3.c" ∧
      withoutClones ".part." = ".part." := by
  decide +kernel

end FunctionName
end RuntimeLog
