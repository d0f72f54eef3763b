import Mathlib.Data.Nat.Find
import RuntimeLog.Proofs.Stack.Tagging

/-!
# How far tags spread

The tags of a stack are computed from the root on, and every frame looks at the
tag of its caller only.  Told without callers, a frame is tagged by the frames
since the last one which ends all spreading: warmup wins among them, and after
it the outermost garbage collection.
-/

namespace RuntimeLog
namespace AddressSpace

/-- The category into which a frame puts everything it calls. -/
def category? (space : AddressSpace) (frame : Frame) : Option StackTag :=
  if space.isJit frame then none else FunctionName.specialTag? frame.name

/-- The frame at a place is compiled code. -/
def CompiledAt (space : AddressSpace) (frames : List Frame) (place : Nat) : Prop :=
  (frames[place]?).any space.isJit

/-- The frame at a place is a special function. -/
def SpecialAt (space : AddressSpace) (frames : List Frame) (place : Nat) : Prop :=
  (frames[place]?.bind space.category?).isSome

/-- The frame at a place is in kernel code or a system library. -/
def ExternalAt (space : AddressSpace) (frames : List Frame) (place : Nat) : Prop :=
  (frames[place]?).any space.isExternal

/-- The frame at a place is an interpreter level function. -/
def VirtualAt (frames : List Frame) (place : Nat) : Prop :=
  (frames[place]?).any Frame.isVirtual

/-- The frame at a place was called from external code, or is external itself, and
no compiled code or special function lies between. -/
def OutsideAt (space : AddressSpace) (frames : List Frame) (place : Nat) : Prop :=
  ∃ origin, origin ≤ place ∧ space.ExternalAt frames origin ∧
    ∀ between, between ≤ place → origin ≤ between →
      ¬ space.CompiledAt frames between ∧ ¬ space.SpecialAt frames between

/-- Nothing spreads to the frame at a place from its callers but external code. -/
def StartsAt (space : AddressSpace) (frames : List Frame) (place : Nat) : Prop :=
  VirtualAt frames place ∨ space.CompiledAt frames place ∨ space.OutsideAt frames place

variable {space : AddressSpace} {frame : Frame} {frames : List Frame} {place : Nat}

instance : DecidablePred (CompiledAt space frames) := fun place =>
  inferInstanceAs (Decidable ((frames[place]?).any space.isJit = true))

instance : DecidablePred (SpecialAt space frames) := fun place =>
  inferInstanceAs (Decidable ((frames[place]?.bind space.category?).isSome = true))

instance : DecidablePred (ExternalAt space frames) := fun place =>
  inferInstanceAs (Decidable ((frames[place]?).any space.isExternal = true))

instance : DecidablePred (VirtualAt frames) := fun place =>
  inferInstanceAs (Decidable ((frames[place]?).any Frame.isVirtual = true))

instance : DecidablePred (OutsideAt space frames) := fun place =>
  inferInstanceAs (Decidable (∃ origin, origin ≤ place ∧ space.ExternalAt frames origin ∧
    ∀ between, between ≤ place → origin ≤ between →
      ¬ space.CompiledAt frames between ∧ ¬ space.SpecialAt frames between))

instance : DecidablePred (StartsAt space frames) := fun place =>
  inferInstanceAs (Decidable
    (VirtualAt frames place ∨ space.CompiledAt frames place ∨ space.OutsideAt frames place))

/-- The last place up to this one at which spreading starts anew, or the root. -/
def lastStart (space : AddressSpace) (frames : List Frame) (place : Nat) : Nat :=
  Nat.findGreatest (space.StartsAt frames) place

/-- The categories of the special functions since the last start, outermost first. -/
def categories (space : AddressSpace) (frames : List Frame) (place : Nat) : List StackTag :=
  ((frames.take (place + 1)).drop (space.lastStart frames place)).filterMap space.category?

/-- The tag of a frame below which there are special functions of these categories:
warmup if it is among them, otherwise the outermost one. -/
def strongest (categories : List StackTag) : StackTag :=
  if .warmup ∈ categories then .warmup else categories.head?.getD .c

/-- The tag of the frame at a place, told by the frames up to there. -/
def tagAt (space : AddressSpace) (frames : List Frame) (place : Nat) : StackTag :=
  if space.CompiledAt frames place then .jit
  else if space.OutsideAt frames place then .external
  else strongest (space.categories frames place)

section Categories

/-- A special function stands for warmup or for garbage collection. -/
theorem warmup_or_isGc_of_specialTag?
    {name : String} {tag : StackTag}
    (special : FunctionName.specialTag? name = some tag) :
    tag = .warmup ∨ tag.isGc := by
  obtain ⟨before, after, all, _⟩ := List.lookup_eq_some_iff.mp special
  have each : ∀ entry ∈ FunctionName.specialFunctions,
      entry.2 = .warmup ∨ entry.2.isGc := by decide
  exact each (_, tag) (all ▸ List.mem_append_right before List.mem_cons_self)

theorem warmup_or_isGc_of_category?
    {tag : StackTag}
    (special : space.category? frame = some tag) :
    tag = .warmup ∨ tag.isGc := by
  unfold category? at special
  split at special
  · cases special
  · exact warmup_or_isGc_of_specialTag? special

/-- Special functions since the last start which do not warm up collect garbage. -/
theorem warmup_or_isGc_of_mem_categories
    {tag : StackTag}
    (among : tag ∈ space.categories frames place) :
    tag = .warmup ∨ tag.isGc := by
  obtain ⟨frame, _, special⟩ := List.mem_filterMap.mp among
  exact warmup_or_isGc_of_category? special

@[simp] theorem strongest_nil : strongest [] = .c := rfl

@[simp] theorem strongest_toList (category : Option StackTag) :
    strongest category.toList = category.getD .c := by
  rcases category with _ | tag
  · rfl
  · cases tag <;> rfl

/-- The tag of a caller spreads just as if one more special function were behind
those below the caller. -/
theorem spreadTag_strongest
    {categories : List StackTag} {category : Option StackTag}
    (special : ∀ tag ∈ categories, tag = .warmup ∨ tag.isGc) :
    spreadTag (some (strongest categories)) (category.getD .c) =
      strongest (categories ++ category.toList) := by
  by_cases warm : .warmup ∈ categories
  · rw [strongest, strongest, if_pos warm, if_pos (List.mem_append_left _ warm)]
    rfl
  rcases categories with _ | ⟨outermost, rest⟩
  · rw [List.nil_append, strongest_toList, strongest_nil]
    rfl
  have collects : outermost = .gcMajor ∨ outermost = .gcMinor := by
    rcases special outermost List.mem_cons_self with rfl | gc
    · exact absurd List.mem_cons_self warm
    · cases outermost <;> simp [StackTag.isGc] at gc ⊢
  have added : .warmup ∈ (outermost :: rest) ++ category.toList ↔ category.getD .c = .warmup := by
    rw [List.mem_append, or_iff_right warm]
    rcases category with _ | tag
    · simp
    · simp [eq_comm]
  rw [strongest, strongest, if_neg warm, if_congr added rfl rfl]
  rcases collects with rfl | rfl <;> rfl

end Categories

section Places

theorem compiledAt_iff (here : frames[place]? = some frame) :
    space.CompiledAt frames place ↔ space.isJit frame := by
  simp [CompiledAt, here]

theorem specialAt_iff (here : frames[place]? = some frame) :
    space.SpecialAt frames place ↔ (space.category? frame).isSome := by
  simp [SpecialAt, here]

theorem externalAt_iff (here : frames[place]? = some frame) :
    space.ExternalAt frames place ↔ space.isExternal frame := by
  simp [ExternalAt, here]

theorem virtualAt_iff (here : frames[place]? = some frame) :
    VirtualAt frames place ↔ frame.isVirtual := by
  simp [VirtualAt, here]

/-- The root is outside only by itself. -/
theorem outsideAt_zero_iff :
    space.OutsideAt frames 0 ↔
      space.ExternalAt frames 0 ∧ ¬ space.CompiledAt frames 0 ∧ ¬ space.SpecialAt frames 0 := by
  constructor
  · rintro ⟨origin, first, external, clear⟩
    obtain rfl := Nat.le_zero.mp first
    exact ⟨external, clear 0 (Nat.le_refl 0) (Nat.le_refl 0)⟩
  · rintro ⟨external, plain⟩
    refine ⟨0, Nat.le_refl 0, external, fun between first _ => ?_⟩
    obtain rfl := Nat.le_zero.mp first
    exact plain

/-- One frame further, the outside is left by compiled code and special functions
only, and entered by external code. -/
theorem outsideAt_succ_iff :
    space.OutsideAt frames (place + 1) ↔
      (¬ space.CompiledAt frames (place + 1) ∧ ¬ space.SpecialAt frames (place + 1)) ∧
        (space.OutsideAt frames place ∨ space.ExternalAt frames (place + 1)) := by
  constructor
  · rintro ⟨origin, upTo, external, clear⟩
    refine ⟨clear (place + 1) (Nat.le_refl _) upTo, ?_⟩
    rcases Nat.le_succ_iff.mp upTo with before | rfl
    · exact .inl ⟨origin, before, external, fun between within =>
        clear between (Nat.le_succ_of_le within)⟩
    · exact .inr external
  · rintro ⟨plain, ⟨origin, upTo, external, clear⟩ | external⟩
    · refine ⟨origin, Nat.le_succ_of_le upTo, external, fun between within behind => ?_⟩
      rcases Nat.le_succ_iff.mp within with before | rfl
      · exact clear between before behind
      · exact plain
    · refine ⟨place + 1, Nat.le_refl _, external, fun between within behind => ?_⟩
      obtain rfl := Nat.le_antisymm within behind
      exact plain

/-- Compiled code is never outside. -/
theorem OutsideAt.not_compiledAt (outside : space.OutsideAt frames place) :
    ¬ space.CompiledAt frames place := by
  obtain ⟨origin, upTo, _, clear⟩ := outside
  exact (clear place (Nat.le_refl place) upTo).1

/-- A special function is never outside. -/
theorem OutsideAt.not_specialAt (outside : space.OutsideAt frames place) :
    ¬ space.SpecialAt frames place := by
  obtain ⟨origin, upTo, _, clear⟩ := outside
  exact (clear place (Nat.le_refl place) upTo).2

/-- The special functions up to a place, from some place on. -/
theorem filterMap_take_succ
    {start : Nat}
    (here : frames[place]? = some frame)
    (upTo : start ≤ place) :
    ((frames.take (place + 1)).drop start).filterMap space.category? =
      ((frames.take place).drop start).filterMap space.category? ++
        (space.category? frame).toList := by
  obtain ⟨inside, rfl⟩ := List.getElem?_eq_some_iff.mp here
  have length := List.length_take_of_le (Nat.le_of_lt inside)
  rw [List.take_succ_eq_append_getElem inside, List.drop_append_of_le_length (by omega),
    List.filterMap_append]
  rfl

/-- Where spreading starts anew, no special function but the one there counts. -/
theorem categories_of_startsAt
    (here : frames[place]? = some frame)
    (starts : space.StartsAt frames place) :
    space.categories frames place = (space.category? frame).toList := by
  have last : space.lastStart frames place = place := Nat.findGreatest_eq starts
  rw [categories, last, filterMap_take_succ here (Nat.le_refl place),
    List.drop_eq_nil_of_le (List.length_take_le place frames), List.filterMap_nil,
    List.nil_append]

/-- At the root, no special function but the one there counts. -/
theorem categories_zero (here : frames[0]? = some frame) :
    space.categories frames 0 = (space.category? frame).toList := by
  rw [categories, lastStart, Nat.findGreatest_zero,
    filterMap_take_succ here (Nat.le_refl 0)]
  rfl

/-- Where nothing starts anew, one more special function counts. -/
theorem categories_succ
    (here : frames[place + 1]? = some frame)
    (continues : ¬ space.StartsAt frames (place + 1)) :
    space.categories frames (place + 1) =
      space.categories frames place ++ (space.category? frame).toList := by
  have last : space.lastStart frames (place + 1) = space.lastStart frames place :=
    Nat.findGreatest_of_not continues
  have upTo : space.lastStart frames place ≤ place + 1 :=
    Nat.le_succ_of_le (Nat.findGreatest_le place)
  rw [categories, last, filterMap_take_succ here upTo]
  rfl

end Places

section Callers

/-- The tag of a frame alone, by its category. -/
theorem baseTag_eq (caller : Option StackTag) :
    space.baseTag caller frame =
      if space.isJit frame then .jit
      else (space.category? frame).getD
        (if caller = some .external ∨ space.isExternal frame then .external else .c) := by
  unfold baseTag category?
  split
  · rfl
  · cases FunctionName.specialTag? frame.name <;> rfl

/-- Only external code, and what it calls, is external. -/
theorem baseTag_eq_external_iff {caller : Option StackTag} :
    space.baseTag caller frame = .external ↔
      (¬ space.isJit frame ∧ ¬ (space.category? frame).isSome) ∧
        (caller = some .external ∨ space.isExternal frame) := by
  rw [baseTag_eq]
  by_cases jit : space.isJit frame
  · simp [jit]
  rcases special : space.category? frame with _ | tag
  · simp [jit, or_iff_not_imp_left]
  · have other : tag ≠ .external := by
      rintro rfl
      rcases warmup_or_isGc_of_category? special with warm | gc
      · cases warm
      · cases gc
    simp [jit, other]

/-- Neither compiled nor external code has a tag of its own but its category. -/
theorem baseTag_eq_of_ne
    {caller : Option StackTag}
    (notJit : space.baseTag caller frame ≠ .jit)
    (notExternal : space.baseTag caller frame ≠ .external) :
    space.baseTag caller frame = (space.category? frame).getD .c := by
  rw [baseTag_eq] at *
  split at *
  · exact absurd rfl notJit
  · cases special : space.category? frame <;> simp_all

/-- Exactly the frames outside are told to be external. -/
theorem tagAt_eq_external_iff :
    space.tagAt frames place = .external ↔ space.OutsideAt frames place := by
  unfold tagAt
  split
  · rename_i compiled
    exact iff_of_false (by decide) fun outside => outside.not_compiledAt compiled
  split
  · rename_i outside
    exact iff_of_true rfl outside
  · rename_i inside
    refine iff_of_false ?_ inside
    unfold strongest
    split
    · decide
    · rcases found : space.categories frames place with _ | ⟨outermost, rest⟩
      · simp
      · have among : outermost ∈ space.categories frames place := found ▸ List.mem_cons_self
        rcases warmup_or_isGc_of_mem_categories among with rfl | gc
        · simp
        · rintro rfl
          cases gc

/-- Compiled and external code pass nothing on but being external. -/
theorem spreadTag_tagAt
    (here : frames[place]? = some frame)
    (category : Option StackTag) :
    spreadTag (some (space.tagAt frames place)) (category.getD .c) =
      strongest (space.categories frames place ++ category.toList) := by
  have none_of_startsAt (starts : space.StartsAt frames place)
      (plain : ¬ (space.category? frame).isSome) : space.categories frames place = [] := by
    rw [categories_of_startsAt here starts, Option.not_isSome_iff_eq_none.mp plain]
    rfl
  unfold tagAt
  split
  · rename_i compiled
    have plain : ¬ (space.category? frame).isSome := by
      simp [category?, (compiledAt_iff here).mp compiled]
    rw [none_of_startsAt (.inr (.inl compiled)) plain, List.nil_append, strongest_toList]
    rfl
  split
  · rename_i outside
    have plain : ¬ (space.category? frame).isSome :=
      mt (specialAt_iff here).mpr outside.not_specialAt
    rw [none_of_startsAt (.inr (.inr outside)) plain, List.nil_append, strongest_toList]
    rfl
  · exact spreadTag_strongest fun tag => warmup_or_isGc_of_mem_categories

/-- A frame gets the told tag if its caller says rightly whether the frame is outside,
and passes on what spreads to it. -/
theorem tagFrame_eq_tagAt
    {caller : Option StackTag}
    (here : frames[place]? = some frame)
    (outside : space.OutsideAt frames place ↔
      (¬ space.CompiledAt frames place ∧ ¬ space.SpecialAt frames place) ∧
        (caller = some .external ∨ space.ExternalAt frames place))
    (passed : ¬ space.StartsAt frames place →
      spreadTag caller ((space.category? frame).getD .c) =
        strongest (space.categories frames place)) :
    space.tagFrame caller frame = space.tagAt frames place := by
  have jit_iff : space.baseTag caller frame = .jit ↔ space.CompiledAt frames place := by
    rw [baseTag_eq_jit_iff, compiledAt_iff here]
  have external_iff : space.baseTag caller frame = .external ↔ space.OutsideAt frames place := by
    rw [baseTag_eq_external_iff, outside, compiledAt_iff here, specialAt_iff here,
      externalAt_iff here]
  unfold tagFrame tagAt
  by_cases compiled : space.CompiledAt frames place
  · simp [compiled, jit_iff.mpr compiled]
  by_cases away : space.OutsideAt frames place
  · simp [compiled, away, external_iff.mpr away]
  have base := baseTag_eq_of_ne (mt jit_iff.mp compiled) (mt external_iff.mp away)
  rw [if_neg compiled, if_neg away]
  by_cases isVirtual : frame.isVirtual
  · have starts : space.StartsAt frames place := .inl ((virtualAt_iff here).mpr isVirtual)
    rw [categories_of_startsAt here starts, strongest_toList, ← base]
    exact if_pos (.inl isVirtual)
  · have continues : ¬ space.StartsAt frames place := by
      rintro (known | known | known)
      · exact isVirtual ((virtualAt_iff here).mp known)
      · exact compiled known
      · exact away known
    rw [← passed continues, ← base]
    refine if_neg ?_
    rintro (known | known | known)
    · exact isVirtual known
    · exact compiled (jit_iff.mp known)
    · exact away (external_iff.mp known)

end Callers

section Stacks

/-- Every frame of a stack has the tag which is told without callers. -/
theorem getElem?_tagStack (here : frames[place]? = some frame) :
    (space.tagStack frames)[place]? = some (space.tagAt frames place) := by
  induction place generalizing frame with
  | zero =>
      rw [getElem?_tagStack_of_caller space here]
      refine congrArg some (tagFrame_eq_tagAt here ?_ fun _ => ?_)
      · rw [outsideAt_zero_iff]
        simp [and_comm]
      · rw [categories_zero here, strongest_toList]
        rfl
  | succ place inductionHypothesis =>
      have below : place < frames.length :=
        Nat.lt_of_succ_lt (List.getElem?_eq_some_iff.mp here).1
      have callerHere : frames[place]? = some frames[place] := List.getElem?_eq_getElem below
      have caller : ((space.tagStack frames).take (place + 1)).getLast? =
          some (space.tagAt frames place) := by
        rw [List.getLast?_take, if_neg (Nat.succ_ne_zero place), Nat.add_sub_cancel,
          inductionHypothesis callerHere]
        rfl
      rw [getElem?_tagStack_of_caller space here, caller]
      refine congrArg some (tagFrame_eq_tagAt here ?_ fun continues => ?_)
      · rw [outsideAt_succ_iff, Option.some.injEq, tagAt_eq_external_iff]
      · rw [categories_succ here continues, spreadTag_tagAt callerHere]

/-- The tags of a stack are those which are told without callers. -/
theorem tagStack_eq_map_tagAt (space : AddressSpace) (frames : List Frame) :
    space.tagStack frames = (List.range frames.length).map (space.tagAt frames) := by
  refine List.ext_getElem? fun place => ?_
  rw [List.getElem?_map]
  by_cases inside : place < frames.length
  · rw [getElem?_tagStack (List.getElem?_eq_getElem inside), List.getElem?_range inside]
    rfl
  · have beyond : frames.length ≤ place := Nat.le_of_not_lt inside
    rw [List.getElem?_eq_none (by simpa using beyond),
      List.getElem?_eq_none (by simpa using beyond)]
    rfl

end Stacks

end AddressSpace
end RuntimeLog
