import RuntimeLog.Bytes

/-!
# Decompressors

A compressed stream is decompressed by a library, which keeps a state from call
to call.  A call has some input and room for some output.  It may leave input
behind, and it may hold output back for which there was no room; then the library
has to be called again.  Nothing is said here about which bytes a library accepts.
-/

namespace RuntimeLog
namespace Stream

/-- The first four bytes of every frame of a compressed stream. -/
def Zstd.magic : Bytes := [0x28, 0xb5, 0x2f, 0xfd]

/-- What a call of a decompressor comes to. -/
structure Portion where
  output : Bytes
  /-- The number of bytes of the input which were taken. -/
  used : Nat
deriving DecidableEq, Repr

/-- A library which decompresses streams. -/
class Decompressor where
  /-- What is kept from one call to the next. -/
  State : Type
  /-- The state in front of a stream. -/
  start : State
  /-- One call, with room for some bytes of output.  A call which fails gives the
  name of the problem. -/
  decompress : State → (room : Nat) → (input : Bytes) → Except String Portion × State
  /-- The number of bytes of output which are held back. -/
  held : State → Nat
  /-- No more than the input is taken. -/
  used_le : ∀ {state next room input portion},
    decompress state room input = (.ok portion, next) → portion.used ≤ input.length
  /-- A call with input and with room takes some input or writes some output. -/
  advances : ∀ {state next room input portion},
    decompress state room input = (.ok portion, next) → 0 < room → input ≠ [] →
      0 < portion.used ∨ portion.output ≠ []
  /-- A call which takes no input only writes what was held back. -/
  held_le : ∀ {state next room input portion},
    decompress state room input = (.ok portion, next) → portion.used = 0 →
      portion.output.length + held next ≤ held state

namespace Decompressor

variable [Decompressor]

/-- The room for the output of one call. -/
def room : Nat := 128 * 1024

/-- What a piece of input comes to. -/
structure Fed where
  /-- The state behind the piece. -/
  state : State
  /-- All output up to the call which failed, if any. -/
  output : Bytes
  /-- What was wrong with the piece, if anything was. -/
  problem : Option String

/-- What a piece comes to behind a call with some output. -/
def Fed.behind (fed : Fed) (output : Bytes) : Fed :=
  { fed with output := output ++ fed.output }

/-- A call which leaves input behind, or fills its room, gets nearer to the end of
the input or of what is held back. -/
theorem measure_of_decompress
    {state next : State}
    {input : Bytes}
    {portion : Portion}
    (called : decompress state room input = (.ok portion, next))
    (unfinished : ¬ (portion.output.length < room ∧ input.drop portion.used = [])) :
    Prod.Lex (· < ·) (· < ·)
      ((input.drop portion.used).length, held next) (input.length, held state) := by
  have used := used_le called
  by_cases taken : portion.used = 0
  · have wrote : 0 < portion.output.length := by
      by_cases empty : input = []
      · have full : room ≤ portion.output.length :=
          Nat.le_of_not_lt fun less => unfinished ⟨less, by rw [empty, List.drop_nil]⟩
        exact Nat.lt_of_lt_of_le (by decide) full
      · have advanced := advances called (by decide) empty
        exact List.length_pos_iff.mpr (advanced.resolve_left (by omega))
    have left := held_le called taken
    rw [taken, List.drop_zero]
    exact Prod.Lex.right _ (by omega)
  · apply Prod.Lex.left
    rw [List.length_drop]
    omega

/-- Decompress a piece of input.  A call which fills its room may hold output back, so
the library is called until it has taken the whole piece and left room. -/
def feed (state : State) (input : Bytes) : Fed :=
  match _called : decompress state room input with
  | (.error problem, next) => { state := next, output := [], problem := some problem }
  | (.ok portion, next) =>
      if _finished : portion.output.length < room ∧ input.drop portion.used = [] then
        { state := next, output := portion.output, problem := none }
      else (feed next (input.drop portion.used)).behind portion.output
termination_by (input.length, held state)
decreasing_by exact measure_of_decompress _called _finished

end Decompressor
end Stream
end RuntimeLog
