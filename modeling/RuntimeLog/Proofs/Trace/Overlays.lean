import Mathlib.Data.List.Induction
import RuntimeLog.Trace.CodePatch

/-!
# Patched code, byte by byte

Laying patches over a snippet gives every byte of it the value which the last patch
has for its address.  Addresses are counted on beyond the greatest one here, so that
patches and snippets may reach past it.
-/

namespace RuntimeLog
namespace CodePatch

/-! ## One patch -/

/-- Whether a patch reaches over an address. -/
def covers (patch : CodePatch) (address : Nat) : Bool :=
  patch.address.toNat ≤ address && address < patch.address.toNat + patch.bytes.length

/-- The byte which a patch has for an address. -/
def byteAt? (patch : CodePatch) (address : Nat) : Option UInt8 :=
  if patch.covers address then patch.bytes[address - patch.address.toNat]? else none

variable {patch : CodePatch} {code snippet : Bytes} {address index : Nat}

theorem covers_iff :
    patch.covers address ↔
      patch.address.toNat ≤ address ∧ address < patch.address.toNat + patch.bytes.length := by
  simp [covers]

/-- A patch has a byte for each address which it covers. -/
theorem exists_byteAt? (covered : patch.covers address) :
    ∃ byte, patch.bytes[address - patch.address.toNat]? = some byte ∧
      patch.byteAt? address = some byte := by
  obtain ⟨above, below⟩ := covers_iff.mp covered
  have inside : address - patch.address.toNat < patch.bytes.length := by omega
  refine ⟨_, List.getElem?_eq_getElem inside, ?_⟩
  rw [byteAt?, if_pos covered, List.getElem?_eq_getElem inside]

theorem byteAt?_of_not_covers (uncovered : ¬ patch.covers address) :
    patch.byteAt? address = none :=
  if_neg uncovered

theorem length_splice (code : Bytes) (start : Nat) (bytes : Bytes) :
    (splice code start bytes).length = code.length := by
  simp only [splice, List.length_append, List.length_take, List.length_drop]
  omega

/-- Laid bytes replace those at their positions, and no others. -/
theorem getElem?_splice {start : Nat} {bytes : Bytes} (inside : index < code.length) :
    (splice code start bytes)[index]? =
      if start ≤ index ∧ index < start + bytes.length then bytes[index - start]?
      else code[index]? := by
  unfold splice
  have front : (code.take start).length = min start code.length := List.length_take
  have middle : (bytes.take (code.length - start)).length =
      min (code.length - start) bytes.length := List.length_take
  by_cases before : index < start
  · rw [if_neg (by omega), List.append_assoc, List.getElem?_append_left (by omega),
      List.getElem?_take_of_lt before]
  · by_cases within : index < start + bytes.length
    · rw [if_pos (by omega), List.append_assoc, List.getElem?_append_right (by omega),
        List.getElem?_append_left (by omega), List.getElem?_take_of_lt (by omega), front]
      congr 1
      omega
    · rw [if_neg (by omega), List.getElem?_append_right (by simp only [List.length_append]; omega),
        List.getElem?_drop]
      congr 1
      simp only [List.length_append]
      omega

/-- A patch is laid over code from the first address on which they have in common. -/
theorem overlay_eq (code : Bytes) (address : Nat) (patch : CodePatch) :
    overlay code address patch =
      splice code (patch.address.toNat - address)
        (patch.bytes.drop (address - patch.address.toNat)) := by
  simp only [overlay]
  split
  · rename_i behind
    rw [Nat.sub_eq_zero_of_le behind, List.drop_zero]
  · rename_i before
    rw [Nat.sub_eq_zero_of_le (Nat.le_of_not_le before)]

theorem length_overlay (code : Bytes) (address : Nat) (patch : CodePatch) :
    (overlay code address patch).length = code.length := by
  rw [overlay_eq, length_splice]

/-- A patch replaces the bytes of the addresses which it covers. -/
theorem getElem?_overlay (inside : index < code.length) :
    (overlay code address patch)[index]? =
      (patch.byteAt? (address + index)).or code[index]? := by
  rw [overlay_eq, getElem?_splice inside, List.length_drop, List.getElem?_drop]
  by_cases covered : patch.covers (address + index)
  · obtain ⟨byte, here, known⟩ := exists_byteAt? covered
    have reach := covers_iff.mp covered
    have position : address - patch.address.toNat + (index - (patch.address.toNat - address)) =
        address + index - patch.address.toNat := by omega
    rw [if_pos (by omega), position, here, known, Option.some_or]
  · rw [covers_iff] at covered
    rw [if_neg (by omega), byteAt?_of_not_covers (by rwa [covers_iff]), Option.none_or]

/-! ## All patches -/

/-- The last patch of a list which counts at a time for a region and covers an
address. -/
def lastWriter?
    (regionStart regionEnd : UInt64)
    (patches : List CodePatch)
    (time : Nat)
    (address : Nat) : Option CodePatch :=
  (patches.filter fun patch =>
    patch.counts regionStart regionEnd time && patch.covers address).getLast?

variable {regionStart regionEnd : UInt64} {patches : List CodePatch} {time : Nat}

theorem covers_of_lastWriter?
    (last : lastWriter? regionStart regionEnd patches time address = some patch) :
    patch.covers address := by
  have chosen := (List.mem_filter.mp (List.mem_of_getLast? last)).2
  exact (Bool.and_eq_true_iff.mp chosen).2

theorem length_foldl_overlay (patches : List CodePatch) (code : Bytes) (address : Nat) :
    (patches.foldl (fun code patch => overlay code address patch) code).length = code.length := by
  induction patches generalizing code with
  | nil => rfl
  | cons patch patches inductionHypothesis =>
      rw [List.foldl_cons, inductionHypothesis, length_overlay]

/-- The byte at a position is that of the last patch over its address. -/
theorem getElem?_foldl_overlay (patches : List CodePatch) (inside : index < code.length) :
    (patches.foldl (fun code patch => overlay code address patch) code)[index]? =
      (((patches.filter fun patch => patch.covers (address + index)).getLast?).bind
        fun patch => patch.byteAt? (address + index)).or code[index]? := by
  -- a further patch is the last one or leaves the byte as it is
  induction patches using List.reverseRecOn with
  | nil => rfl
  | append_singleton patches patch inductionHypothesis =>
      have within : index <
          (patches.foldl (fun code patch => overlay code address patch) code).length := by
        rwa [length_foldl_overlay]
      rw [List.foldl_append, List.foldl_cons, List.foldl_nil, getElem?_overlay within,
        inductionHypothesis, List.filter_append]
      by_cases covered : patch.covers (address + index)
      · obtain ⟨byte, _, known⟩ := exists_byteAt? covered
        simp [covered, known]
      · simp [covered, byteAt?_of_not_covers covered]

/-- The byte of patched code at a position is that of the last patch which counts for
its address. -/
theorem getElem?_applyAll {address : UInt64} (inside : index < snippet.length) :
    (applyAll snippet address regionStart regionEnd patches time)[index]? =
      ((lastWriter? regionStart regionEnd patches time (address.toNat + index)).bind
        fun patch => patch.byteAt? (address.toNat + index)).or snippet[index]? := by
  unfold applyAll lastWriter?
  rw [getElem?_foldl_overlay _ inside, List.filter_filter]
  simp only [Bool.and_comm]

theorem length_applyAll
    (snippet : Bytes)
    (address regionStart regionEnd : UInt64)
    (patches : List CodePatch)
    (time : Nat) :
    (applyAll snippet address regionStart regionEnd patches time).length = snippet.length :=
  length_foldl_overlay _ _ _

/-- Patches which were applied already change nothing. -/
theorem applyAll_applyAll
    (snippet : Bytes)
    (address regionStart regionEnd : UInt64)
    (patches : List CodePatch)
    (time : Nat) :
    applyAll (applyAll snippet address regionStart regionEnd patches time) address regionStart
        regionEnd patches time =
      applyAll snippet address regionStart regionEnd patches time := by
  have same := length_applyAll snippet address regionStart regionEnd patches time
  apply List.ext_getElem?
  intro index
  by_cases inside : index < snippet.length
  · rw [getElem?_applyAll (same ▸ inside), getElem?_applyAll inside]
    cases (lastWriter? regionStart regionEnd patches time (address.toNat + index)).bind
      fun patch => patch.byteAt? (address.toNat + index) <;> rfl
  · rw [List.getElem?_eq_none (by rw [length_applyAll]; omega),
      List.getElem?_eq_none (by omega)]

/-! ## Bounds -/

/-- The bytes from a position up to another one, if they are within a string. -/
def slice? (bytes : Bytes) (start finish : Nat) : Option Bytes :=
  if start ≤ finish ∧ finish ≤ bytes.length then some ((bytes.take finish).drop start) else none

/-- Write bytes over those from a position up to another one, if these are within a
string and as many. -/
def write? (code : Bytes) (start finish : Nat) (bytes : Bytes) : Option Bytes :=
  if start ≤ finish ∧ finish ≤ code.length ∧ bytes.length = finish - start then
    some (code.take start ++ bytes ++ code.drop finish)
  else none

/-- Lay a patch over code at an address by copying the part which they have in
common.  Nothing is given if one of the positions is out of bounds. -/
def copyOver? (code : Bytes) (address : Nat) (patch : CodePatch) : Option Bytes :=
  let skipped := address - patch.address.toNat
  let start := patch.address.toNat - address
  if patch.bytes.length ≤ skipped ∨ code.length ≤ start then some code
  else
    (slice? patch.bytes skipped patch.bytes.length).bind fun rest =>
      let length := min rest.length (code.length - start)
      (slice? rest 0 length).bind fun copied => write? code start (start + length) copied

/-- Apply all patches by copying. -/
def copyAll?
    (snippet : Bytes)
    (address regionStart regionEnd : UInt64)
    (patches : List CodePatch)
    (time : Nat) : Option Bytes :=
  (patches.filter fun patch => patch.counts regionStart regionEnd time).foldlM
    (fun code patch => copyOver? code address.toNat patch) snippet

/-- A slice up to a bound is given. -/
theorem slice?_eq_some {bytes : Bytes} {start finish : Nat}
    (ordered : start ≤ finish)
    (within : finish ≤ bytes.length) :
    slice? bytes start finish = some ((bytes.take finish).drop start) :=
  if_pos ⟨ordered, within⟩

/-- Copying a patch is never out of bounds, and lays it over the code. -/
theorem copyOver?_eq (code : Bytes) (address : Nat) (patch : CodePatch) :
    copyOver? code address patch = some (overlay code address patch) := by
  rw [overlay_eq]
  simp only [copyOver?]
  generalize address - patch.address.toNat = skipped
  generalize patch.address.toNat - address = start
  split
  · rename_i apart
    -- there is nothing to copy or no place for it
    rcases apart with short | far
    · rw [List.drop_eq_nil_of_le short]
      simp [splice]
    · rw [splice, List.take_of_length_le far, Nat.sub_eq_zero_of_le far, List.take_zero,
        List.drop_eq_nil_of_le (by omega), List.append_nil, List.append_nil]
  · rename_i common
    rw [slice?_eq_some (by omega) (Nat.le_refl _), List.take_length, Option.bind_some,
      slice?_eq_some (Nat.zero_le _) (Nat.min_le_left _ _), Option.bind_some, List.drop_zero]
    generalize patch.bytes.drop skipped = rest
    unfold write? splice
    rw [if_pos (by rw [List.length_take]; omega)]
    -- the rest of the patch fits, or it is cut off at the end of the code
    rcases Nat.le_total rest.length (code.length - start) with fits | cut
    · rw [Nat.min_eq_left fits, List.take_length, List.take_of_length_le fits]
    · rw [Nat.min_eq_right cut, List.drop_eq_nil_of_le (i := start + (code.length - start)) (by omega),
        List.drop_eq_nil_of_le (i := start + rest.length) (by omega)]

/-- Copying all patches is never out of bounds, either. -/
theorem copyAll?_eq
    (snippet : Bytes)
    (address regionStart regionEnd : UInt64)
    (patches : List CodePatch)
    (time : Nat) :
    copyAll? snippet address regionStart regionEnd patches time =
      some (applyAll snippet address regionStart regionEnd patches time) := by
  unfold copyAll? applyAll
  simp only [copyOver?_eq]
  exact List.foldlM_pure

/-! ## Last writers -/

/-- Code in which every byte has the value of the last patch which counts and covers
its address, or the one of the snippet if there is no such patch. -/
structure HasLastWrites
    (snippet : Bytes)
    (address regionStart regionEnd : UInt64)
    (patches : List CodePatch)
    (time : Nat)
    (code : Bytes) : Prop where
  length : code.length = snippet.length
  written : ∀ index patch, index < snippet.length →
    lastWriter? regionStart regionEnd patches time (address.toNat + index) = some patch →
      ∃ byte, patch.bytes[address.toNat + index - patch.address.toNat]? = some byte ∧
        code[index]? = some byte
  kept : ∀ index, index < snippet.length →
    lastWriter? regionStart regionEnd patches time (address.toNat + index) = none →
      code[index]? = snippet[index]?

/-- Patched code has the last byte which was written to each address.  Patches which
were applied once change nothing when they are applied again.  Copying the part which
a patch and the code have in common stays within the bounds of both. -/
theorem hasLastWrites_applyAll
    (snippet : Bytes)
    (address regionStart regionEnd : UInt64)
    (patches : List CodePatch)
    (time : Nat) :
    HasLastWrites snippet address regionStart regionEnd patches time
        (applyAll snippet address regionStart regionEnd patches time) ∧
      applyAll (applyAll snippet address regionStart regionEnd patches time) address regionStart
          regionEnd patches time =
        applyAll snippet address regionStart regionEnd patches time ∧
      copyAll? snippet address regionStart regionEnd patches time =
        some (applyAll snippet address regionStart regionEnd patches time) := by
  refine ⟨?_, applyAll_applyAll _ _ _ _ _ _, copyAll?_eq _ _ _ _ _ _⟩
  constructor
  case length => exact length_applyAll _ _ _ _ _ _
  case written =>
    intro index patch inside last
    obtain ⟨byte, here, known⟩ := exists_byteAt? (covers_of_lastWriter? last)
    refine ⟨byte, here, ?_⟩
    rw [getElem?_applyAll inside, last, Option.bind_some, known, Option.some_or]
  case kept =>
    intro index inside last
    rw [getElem?_applyAll inside, last, Option.bind_none, Option.none_or]

/-- A patch from in front of the code, a longer one over it, one which was made before
that but comes later in the list, one of a later time and one outside the region. -/
example :
    applyAll [0, 0, 0, 0] 0x1000 0xf00 0x2000
        [⟨1, 0xffe, [7, 7, 7, 7]⟩, ⟨5, 0x1001, [2, 2, 2, 2, 2]⟩, ⟨2, 0x1002, [9]⟩,
          ⟨6, 0x1000, [8]⟩, ⟨1, 0x2000, [8]⟩] 5 =
      [7, 2, 9, 2] := by
  decide

end CodePatch
end RuntimeLog
