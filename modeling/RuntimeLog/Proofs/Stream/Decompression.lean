import RuntimeLog.Stream.Decompressor

/-!
# Decompression in pieces

What is asked of a library is said of its calls: it accepts an encoding in whatever
pieces, and a call which has taken the last of it and leaves room has written all of
the content.  That a piece is drained follows, however much output it has: the library
is called again for as long as it may hold something back.
-/

namespace RuntimeLog
namespace Stream
namespace Decompressor

variable [Decompressor]

/-- The states which calls with pieces of some bytes lead to, with the input which the
calls took, the output which they wrote, and whether the last one left room.  A call has
a piece which was not taken yet, or goes on behind a call which filled its room. -/
inductive Reaches (encoded : Bytes) : State → (taken written : Bytes) → (flushed : Bool) → Prop
  | start : Reaches encoded start [] [] true
  | call
      {state next : State}
      {taken written input : Bytes}
      {flushed : Bool}
      {portion : Portion}
      (reaches : Reaches encoded state taken written flushed)
      (inside : taken ++ input <+: encoded)
      (goesOn : input ≠ [] ∨ flushed = false)
      (called : decompress state room input = (.ok portion, next)) :
      Reaches encoded next (taken ++ input.take portion.used) (written ++ portion.output)
        (decide (portion.output.length < room))

/-- A library which decompresses some bytes to a content. -/
structure Decompresses (encoded content : Bytes) : Prop where
  /-- No call with a piece of the bytes fails. -/
  accepts : ∀ {state taken written flushed input},
    Reaches encoded state taken written flushed → taken ++ input <+: encoded →
      input ≠ [] ∨ flushed = false → ∃ portion next,
        decompress state room input = (.ok portion, next)
  /-- Calls which took all of the bytes, the last of which left room, wrote the
  content. -/
  flushes : ∀ {state written}, Reaches encoded state encoded written true → written = content

/-- A state behind a call which left room, with the bytes which are still to come and
with what they are decompressed to. -/
def Follows (state : State) (encoded content : Bytes) : Prop :=
  ∃ taken written, Reaches (taken ++ encoded) state taken written true ∧
    Decompresses (taken ++ encoded) (written ++ content)

variable {state : State} {encoded content taken written input piece rest : Bytes}
variable {flushed : Bool}

/-- In front of the stream, everything is still to come. -/
theorem Decompresses.follows (decompresses : Decompresses encoded content) :
    Follows start encoded content :=
  ⟨[], [], .start, decompresses⟩

/-- A piece is taken without a problem.  All of it is taken, and the last call leaves
room. -/
theorem Reaches.feed
    (reaches : Reaches encoded state taken written flushed)
    (decompresses : Decompresses encoded content)
    (inside : taken ++ input <+: encoded)
    (goesOn : input ≠ [] ∨ flushed = false) :
    (feed state input).problem = none ∧
      Reaches encoded (feed state input).state (taken ++ input)
        (written ++ (feed state input).output) true := by
  fun_induction Decompressor.feed state input generalizing taken written flushed with
  | case1 state input problem next failed =>
      obtain ⟨portion, other, called⟩ := decompresses.accepts reaches inside goesOn
      cases failed.symm.trans called
  | case2 state input portion next called finished =>
      have whole : input.take portion.used = input :=
        List.take_of_length_le (List.drop_eq_nil_iff.mp finished.2)
      have behind := reaches.call inside goesOn called
      rw [whole, decide_eq_true finished.1] at behind
      exact ⟨rfl, behind⟩
  | case3 state input portion next called unfinished inductionHypothesis =>
      have split : input.take portion.used ++ input.drop portion.used = input :=
        List.take_append_drop _ _
      have again : input.drop portion.used ≠ [] ∨
          decide (portion.output.length < room) = false := by
        rw [decide_eq_false_iff_not]
        exact (Classical.not_and_iff_not_or_not.mp unfinished).symm
      have behind := inductionHypothesis (reaches.call inside goesOn called)
        (by rwa [List.append_assoc, split]) again
      rw [List.append_assoc, split, List.append_assoc] at behind
      exact behind

/-- What was written is the start of the content. -/
theorem Reaches.written_le
    (reaches : Reaches (taken ++ rest) state taken written true)
    (decompresses : Decompresses (taken ++ rest) content) :
    written <+: content := by
  by_cases nothing : rest = []
  · rw [nothing, List.append_nil] at reaches decompresses
    exact decompresses.flushes reaches ▸ List.prefix_refl _
  · -- taking the rest completes the content
    have behind := (reaches.feed decompresses (List.prefix_refl _) (.inl nothing)).2
    exact decompresses.flushes behind ▸ List.prefix_append _ _

/-- Nothing is decompressed to nothing. -/
theorem Follows.content_eq_nil (follows : Follows state [] content) : content = [] := by
  obtain ⟨taken, written, reaches, decompresses⟩ := follows
  rw [List.append_nil] at reaches decompresses
  exact List.self_eq_append_right.mp (decompresses.flushes reaches)

/-- A piece of what a state follows is taken without a problem.  What comes out is the
next part of the content, and the rest is followed. -/
theorem Follows.feed (follows : Follows state (piece ++ rest) content) (nonempty : piece ≠ []) :
    (feed state piece).problem = none ∧
      ∃ more, content = (feed state piece).output ++ more ∧
        Follows (feed state piece).state rest more := by
  obtain ⟨taken, written, reaches, decompresses⟩ := follows
  rw [← List.append_assoc] at reaches decompresses
  obtain ⟨sound, behind⟩ :=
    reaches.feed decompresses (List.prefix_append _ _) (.inl nonempty)
  obtain ⟨more, content_eq⟩ := behind.written_le decompresses
  rw [List.append_assoc, List.append_cancel_left_eq] at content_eq
  refine ⟨sound, more, content_eq.symm, _, _, behind, ?_⟩
  rwa [List.append_assoc written, content_eq]

end Decompressor
end Stream
end RuntimeLog
