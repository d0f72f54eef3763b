import Mathlib.Algebra.Group.Nat.Defs
import Mathlib.Data.List.Forall2
import Mathlib.Data.List.Nodup
import RuntimeLog.Pprof.Build

/-!
# Text tables

A text table grows while a profile is exported.  A text keeps the index which it
got first, and no text gets two.
-/

namespace RuntimeLog
namespace Pprof

/-! ## Answers one after the other -/

section Each

variable {σ α β : Type}

/-- The answers to the entries of a list, of which each changes a state, and the
state behind them. -/
def each (step : σ → α → σ × β) (state : σ) : List α → σ × List β
  | [] => (state, [])
  | entry :: entries =>
      let (next, answer) := step state entry
      let (last, answers) := each step next entries
      (last, answer :: answers)

/-- Answers may be gathered in front of those which were given before. -/
theorem foldl_eq_each (step : σ → α → σ × β) (entries : List α) (state : σ) (gathered : List β) :
    entries.foldl
        (fun (known : σ × List β) entry =>
          ((step known.1 entry).1, (step known.1 entry).2 :: known.2)) (state, gathered) =
      ((each step state entries).1, (each step state entries).2.reverse ++ gathered) := by
  induction entries generalizing state gathered with
  | nil => rfl
  | cons entry entries inductionHypothesis =>
      rw [List.foldl_cons, inductionHypothesis, each]
      simp

/-- What every answer tells about the state behind it is told by all answers about
the state behind them, if it stays so while the state grows. -/
theorem each_spec
    {step : σ → α → σ × β}
    (grows : σ → σ → Prop)
    (tells : σ → α → β → Prop)
    (refl : ∀ state, grows state state)
    (trans : ∀ {first second third}, grows first second → grows second third → grows first third)
    (mono : ∀ {state later entry answer},
      tells state entry answer → grows state later → tells later entry answer)
    {entries : List α}
    {state : σ}
    (one : ∀ known, grows state known → ∀ entry ∈ entries,
      grows known (step known entry).1 ∧
        tells (step known entry).1 entry (step known entry).2) :
    grows state (each step state entries).1 ∧
      List.Forall₂ (tells (each step state entries).1) entries (each step state entries).2 := by
  induction entries generalizing state with
  | nil => exact ⟨refl state, .nil⟩
  | cons entry entries inductionHypothesis =>
      obtain ⟨grown, told⟩ := one state (refl state) entry List.mem_cons_self
      obtain ⟨grownOn, toldOn⟩ := inductionHypothesis fun known grew other member =>
        one known (trans grown grew) other (List.mem_cons_of_mem entry member)
      exact ⟨trans grown grownOn, .cons (mono told grownOn) toldOn⟩

end Each

/-! ## Texts -/

/-- An index of a text in a list of texts. -/
def LeadsTo (texts : List String) (index : Int64) (text : String) : Prop :=
  ∃ place, texts[place]? = some text ∧ index = Int64.ofNat place

variable {texts later : List String} {index : Int64} {text : String}

/-- The entries of a list stay at their places when others are appended. -/
theorem getElem?_of_prefix
    {α : Type}
    {entries more : List α}
    {place : Nat}
    {entry : α}
    (kept : entries <+: more)
    (found : entries[place]? = some entry) :
    more[place]? = some entry := by
  obtain ⟨behind, rfl⟩ := kept
  obtain ⟨bound, _⟩ := List.getElem?_eq_some_iff.mp found
  rw [List.getElem?_append_left bound, found]

/-- An index leads to the same text when texts are appended. -/
theorem LeadsTo.mono (leads : LeadsTo texts index text) (kept : texts <+: later) :
    LeadsTo later index text := by
  obtain ⟨place, found, same⟩ := leads
  exact ⟨place, getElem?_of_prefix kept found, same⟩

namespace TextTable

/-- A table which begins with the empty text and has no text twice. -/
structure Sound (table : TextTable) : Prop where
  first : table.texts.toList.head? = some ""
  distinct : table.texts.toList.Nodup

/-- A table to which texts were added. -/
structure Grows (table later : TextTable) : Prop where
  kept : table.texts.toList <+: later.texts.toList
  sound : table.Sound → later.Sound

variable {table middle last : TextTable}

theorem Grows.refl (table : TextTable) : table.Grows table where
  kept := List.prefix_rfl
  sound := id

theorem Grows.trans (first : table.Grows middle) (second : middle.Grows last) :
    table.Grows last where
  kept := first.kept.trans second.kept
  sound := second.sound ∘ first.sound

/-- The table which holds only the empty text is sound. -/
theorem sound_start : start.Sound where
  first := rfl
  distinct := List.nodup_singleton ""

/-- The first index leads to the empty text. -/
theorem leadsTo_empty (sound : table.Sound) : LeadsTo table.texts.toList 0 "" :=
  ⟨0, List.head?_eq_getElem? ▸ sound.first, rfl⟩

/-- Texts which are new may be added. -/
theorem grows_push (new : text ∉ table.texts.toList) :
    table.Grows ⟨table.texts.push text⟩ where
  kept := by
    rw [Journal.toList_push]
    exact List.prefix_append _ _
  sound := by
    rintro ⟨first, distinct⟩
    constructor
    case first =>
      rw [Journal.toList_push, List.head?_append, first, Option.some_or]
    case distinct =>
      rw [Journal.toList_push]
      refine List.nodup_append.mpr ⟨distinct, List.nodup_singleton text, ?_⟩
      intro old member other same equal
      exact new (List.mem_singleton.mp same ▸ equal ▸ member)

/-- Interning a text adds it unless it is there, and answers its index. -/
theorem intern_spec (table : TextTable) (text : String) :
    table.Grows (table.intern text).1 ∧
      LeadsTo (table.intern text).1.texts.toList (table.intern text).2 text := by
  unfold intern
  split
  · rename_i place found
    obtain ⟨bound, here, _⟩ := List.idxOf?_eq_some_iff.mp found
    exact ⟨.refl table, place, here ▸ List.getElem?_eq_getElem bound, rfl⟩
  · rename_i missing
    refine ⟨grows_push (List.idxOf?_eq_none_iff.mp missing), table.texts.size, ?_, rfl⟩
    rw [Journal.toList_push, ← Journal.length_toList]
    exact List.getElem?_concat_length

/-- Texts are interned one after the other. -/
theorem internAll_eq_each (texts : List String) (table : TextTable) :
    table.internAll texts = each intern table texts := by
  induction texts generalizing table with
  | nil => rfl
  | cons text texts inductionHypothesis =>
      exact congrArg
        (fun rest : TextTable × List Int64 => (rest.1, (table.intern text).2 :: rest.2))
        (inductionHypothesis (table.intern text).1)

/-- Interning texts answers their indexes. -/
theorem internAll_spec (texts : List String) (table : TextTable) :
    table.Grows (table.internAll texts).1 ∧
      List.Forall₂ (fun text index => LeadsTo (table.internAll texts).1.texts.toList index text)
        texts (table.internAll texts).2 := by
  rw [internAll_eq_each]
  exact each_spec Grows (fun table text index => LeadsTo table.texts.toList index text)
    Grows.refl Grows.trans (fun leads grows => leads.mono grows.kept)
    (fun table _ text _ => table.intern_spec text)

end TextTable

/-! ## Indexes in memory -/

/-- The place of an index in a list, if it is one. -/
def place? (index : Int64) : Option Nat :=
  if 0 ≤ index.toInt then some index.toInt.toNat else none

/-- The place of an index is the one which it was made from, as far as indexes
reach. -/
theorem place?_ofNat {place : Nat} (bound : place < 2 ^ 63) :
    place? (Int64.ofNat place) = some place := by
  unfold place?
  rw [Int64.toInt_ofNat_of_lt bound]
  simp

/-- A number is cut at the greatest signed one. -/
theorem toInt_clamp (number : UInt64) :
    (clamp number).toInt = (min number.toNat (2 ^ 63 - 1) : Nat) := by
  unfold clamp
  have greatest : Int64.maxValue.toUInt64.toNat = 2 ^ 63 - 1 := rfl
  split
  · rename_i small
    have bound : number.toNat ≤ 2 ^ 63 - 1 := greatest ▸ UInt64.le_iff_toNat_le.mp small
    rw [Nat.min_eq_left bound]
    calc
      number.toInt64.toInt = (UInt64.ofNat number.toNat).toInt64.toInt := by
        rw [UInt64.ofNat_toNat]
      _ = (Int64.ofNat number.toNat).toInt := by rw [UInt64.toInt64_ofNat']
      _ = number.toNat := Int64.toInt_ofNat_of_lt (by omega)
  · rename_i large
    have bound : 2 ^ 63 - 1 < number.toNat := by
      rw [← greatest]
      exact UInt64.lt_iff_toNat_lt.mp (UInt64.not_le.mp large)
    rw [Nat.min_eq_right (Nat.le_of_lt bound)]
    rfl

end Pprof
end RuntimeLog
