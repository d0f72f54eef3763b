import RuntimeLog.Stream.Zstd.Decoder

/-!
# Rooms for the content

The memory which is set aside for a frame is large enough: whatever sizes its blocks
have and however they are cut, the next piece of content fits in.  Either the whole
content does, or there is always room for one more block.
-/

namespace RuntimeLog
namespace Stream
namespace Zstd

/-- Memory provides at least what is needed. -/
theorem Memory.output_le_provide (memory : Memory) (needed : Rooms) :
    needed.output ≤ (memory.provide needed).rooms.output := by
  unfold provide
  dsimp only
  generalize (if 3 * needed.total ≤ memory.rooms.total then _ else _) = oversized
  split
  · exact Nat.le_refl _
  · rename_i kept
    simp only [Bool.or_eq_true, decide_eq_true_eq, not_or] at kept
    omega

namespace Frame

variable {frame : Frame} {size left : Nat}

/-- Whether the content of a frame might not fit into its memory as a whole. -/
def Circles (frame : Frame) : Prop :=
  frame.contentSize.all (frame.room < ·) = true

/-- A frame at hand which holds `left` more bytes of content. -/
structure Awaits (frame : Frame) (left : Nat) : Prop where
  checksum : frame.checksum = false
  blockLimit_le : frame.blockLimit ≤ greatestBlock
  /-- The size which the frame says it has is right. -/
  contentSize : ∀ size, frame.contentSize = some size → size = frame.produced + left
  circles : frame.Circles → frame.taken + frame.blockLimit ≤ frame.room
  fits : ¬ frame.Circles → frame.taken + left ≤ frame.room

/-- There is room for the next piece of content. -/
theorem Awaits.le_free
    (awaits : frame.Awaits (size + left))
    (short : size ≤ frame.blockLimit) :
    size ≤ frame.free := by
  unfold free
  by_cases circles : frame.Circles
  · have room := awaits.circles circles
    omega
  · have room := awaits.fits circles
    omega

/-- Content which is taken in is no longer awaited. -/
theorem Awaits.store (awaits : frame.Awaits (size + left)) : (frame.store size).Awaits left where
  checksum := awaits.checksum
  blockLimit_le := awaits.blockLimit_le
  contentSize said same := by
    have whole := awaits.contentSize said same
    simp only [Frame.store]
    omega
  circles circles := by
    have room := awaits.circles circles
    have restarts : frame.contentSize.all (frame.room < ·) = true := circles
    simp only [Frame.store, restarts, Bool.true_and, decide_eq_true_eq]
    split <;> omega
  fits fitting := by
    have room := awaits.fits fitting
    have stays : frame.contentSize.all (frame.room < ·) = false := by
      simpa [Circles, Frame.store] using fitting
    simp only [Frame.store, stays, Bool.false_and, Bool.false_eq_true, if_false]
    omega

/-- A frame of which everything was taken in has the size which it says. -/
theorem Awaits.isWrongSize_eq (awaits : frame.Awaits 0) : frame.isWrongSize = false := by
  unfold isWrongSize
  cases said : frame.contentSize with
  | none => rfl
  | some size => simp [awaits.contentSize size said]

end Frame

/-- The memory for a frame starts with everything still to come. -/
theorem Memory.awaits_of_start
    {memory : Memory}
    {header : Header}
    {length : Nat}
    (dictionary : header.dictionary = 0)
    (checksum : header.checksum = false)
    (narrow : header.window ≤ greatestWindow)
    (contentSize : ∀ size, header.contentSize = some size → size = length) :
    ∃ frame later,
      memory.start header = .ok (frame, later) ∧ frame.blockLimit = header.blockLimit ∧
      frame.Awaits length := by
  have wide : ¬ greatestWindow < max header.window leastWindow :=
    Nat.not_lt_of_le (Nat.max_le.mpr ⟨narrow, by decide⟩)
  let needed := Rooms.needed (max header.window leastWindow) header.contentSize header.blockLimit
  let later := memory.provide needed
  let frame : Frame :=
    { contentSize := header.contentSize
      blockLimit := header.blockLimit
      checksum := header.checksum
      room := later.rooms.output
      taken := 0
      produced := 0 }
  have room : needed.output ≤ frame.room := memory.output_le_provide needed
  have block : header.blockLimit ≤ header.window := Nat.min_le_left _ _
  have ring : frame.Circles → header.blockLimit ≤ frame.room := by
    intro circles
    unfold Frame.Circles at circles
    cases said : header.contentSize with
    | none =>
        simp only [needed, Rooms.needed, said] at room
        omega
    | some size =>
        have less : frame.room < size := by simpa [frame, said] using circles
        simp only [needed, Rooms.needed, said] at room
        omega
  refine ⟨frame, later, ?_, rfl,
    ⟨checksum, Nat.min_le_right _ _, ?_, fun circles => ?_, fun fitting => ?_⟩⟩
  · rw [start, if_neg (by simp [dictionary]), if_neg wide]
  · intro size said
    rw [contentSize size said]
    exact (Nat.zero_add _).symm
  · simpa [frame] using ring circles
  · unfold Frame.Circles at fitting
    cases said : header.contentSize with
    | none => simp [frame, said] at fitting
    | some size =>
        have enough : size ≤ frame.room := by simpa [frame, said] using fitting
        rw [contentSize size said] at enough
        simpa [frame] using enough

end Zstd
end Stream
end RuntimeLog
