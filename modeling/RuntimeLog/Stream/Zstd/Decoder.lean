import RuntimeLog.Stream.Zstd.Memory

/-!
# Decompression

A decompressor of its own: it decodes frames of plain blocks and of runs, frames to
skip and legacy frames.  Entropy coded blocks are refused and checksums are passed
over, so it can stand for a full library on such streams only.

Plain blocks are passed on as far as they are there; everything else waits until it
is complete.  A call ends with a frame, with its input, or where there is no room for
more output.  A problem loses what the call wrote, and every later call meets it again.
-/

namespace RuntimeLog
namespace Stream
namespace Zstd

/-- Where in the stream the next byte stands. -/
inductive Stage where
  /-- In a frame header, behind some bytes of it. -/
  | frameHeader (seen : Bytes)
  /-- In a block header, behind some bytes of it. -/
  | blockHeader (frame : Frame) (seen : Bytes)
  /-- In a block which holds its bytes as they are. -/
  | plainBlock (frame : Frame) (last : Bool) (left : Nat)
  /-- At the byte which a block repeats. -/
  | runBlock (frame : Frame) (last : Bool) (count : Nat)
  /-- In an entropy coded block, which is refused once it is complete. -/
  | codedBlock (left : Nat)
  /-- In a checksum, which is not verified. -/
  | checksum (left : Nat)
  | skipped (left : Nat)
  /-- In the header of a legacy frame, behind some bytes of it. -/
  | legacyHeader (format : LegacyFormat) (seen : Bytes)
  /-- In a block header of a legacy frame, behind some bytes of it. -/
  | legacyBlockHeader (frame : LegacyFrame) (seen : Bytes)
  /-- In a block of a legacy frame, behind some bytes of it, which are reversed. -/
  | legacyBlock (frame : LegacyFrame) (header : BlockHeader) (seen : Bytes) (left : Nat)
  /-- Behind a problem. -/
  | stuck (problem : Problem)
deriving DecidableEq, Repr

/-- The stage before the first frame and between two frames. -/
def Stage.start : Stage := .frameHeader []

/-- The stage of a decoder and its memory. -/
structure Decoder where
  stage : Stage
  memory : Memory
deriving DecidableEq, Repr

/-- The decoder in front of a stream. -/
def Decoder.start : Decoder :=
  { stage := .start, memory := .empty }

/-- What the next bytes of a piece lead to. -/
inductive Move where
  /-- The next stage, some output, and the number of bytes which were used
  behind the first one. -/
  | proceed (decoder : Decoder) (output : Bytes) (further : Nat)
  | refuse (problem : Problem)
deriving DecidableEq, Repr

namespace Decoder

/-- The decoder at another stage. -/
def atStage (decoder : Decoder) (stage : Stage) : Decoder :=
  { decoder with stage }

/-! ## Blocks -/

/-- The stage behind the last block of a frame. -/
def behindBlocks (frame : Frame) : Stage :=
  if frame.checksum then .checksum checksumWidth else .start

/-- The stage behind a block with content. -/
def behindBlock (frame : Frame) (last : Bool) : Except Problem Stage :=
  if !last then .ok (.blockHeader frame [])
  else if frame.isWrongSize then .error .corruptedData
  else .ok (behindBlocks frame)

/-- Hand over some content of the frame at hand, if there is room for it and no
block is that long, and go on at the stage `next`. -/
def deliver
    (decoder : Decoder)
    (frame : Frame)
    (content : Bytes)
    (further : Nat)
    (next : Frame → Except Problem Stage) : Move :=
  if frame.free < content.length then .refuse .destinationTooSmall
  else if frame.blockLimit < content.length then .refuse .corruptedData
  else
    match next (frame.store content.length) with
    | .error problem => .refuse problem
    | .ok stage => .proceed (decoder.atStage stage) content further

/-- The stage behind a block header.  A block without bytes ends at once. -/
def behindBlockHeader (frame : Frame) (header : BlockHeader) : Except Problem Stage :=
  if header.sort = .reserved || frame.blockLimit < header.bodyWidth then .error .corruptedData
  else if header.bodyWidth == 0 then
    .ok (if header.last then behindBlocks frame else .blockHeader frame [])
  else
    .ok <|
      match header.sort with
      | .plain => .plainBlock frame header.last header.size
      | .run => .runBlock frame header.last header.size
      | _ => .codedBlock header.size

/-- The move in a block header, behind some bytes of it. -/
def moveInBlockHeader
    (decoder : Decoder)
    (frame : Frame)
    (seen : Bytes)
    (first : UInt8)
    (rest : Bytes) : Move :=
  let further := BlockHeader.width - 1 - seen.length
  let bytes := seen ++ first :: rest.take further
  if bytes.length < BlockHeader.width then
    .proceed (decoder.atStage (.blockHeader frame bytes)) [] further
  else
    match behindBlockHeader frame (.ofNat (LittleEndian.decode bytes)) with
    | .error problem => .refuse problem
    | .ok stage => .proceed (decoder.atStage stage) [] further

/-- The move in a block which holds its bytes as they are. -/
def moveInPlainBlock
    (decoder : Decoder)
    (frame : Frame)
    (last : Bool)
    (left : Nat)
    (first : UInt8)
    (rest : Bytes) : Move :=
  let content := first :: rest.take (left - 1)
  decoder.deliver frame content (left - 1) fun frame =>
    if left ≤ content.length then behindBlock frame last
    else .ok (.plainBlock frame last (left - content.length))

/-! ## Legacy frames -/

/-- The move in the header of a legacy frame, behind some bytes of it. -/
def moveInLegacyHeader
    (decoder : Decoder)
    (format : LegacyFormat)
    (seen : Bytes)
    (first : UInt8)
    (rest : Bytes) : Move :=
  match format.inspect (seen ++ first :: rest) with
  | .error problem => .refuse problem
  | .ok none =>
      .proceed (decoder.atStage (.legacyHeader format (seen ++ first :: rest))) [] rest.length
  | .ok (some header) =>
      let (frame, memory) := decoder.memory.startLegacy header
      .proceed { stage := .legacyBlockHeader frame [], memory } [] (header.width - 1 - seen.length)

/-- The move in a block header of a legacy frame, behind some bytes of it. -/
def moveInLegacyBlockHeader
    (decoder : Decoder)
    (frame : LegacyFrame)
    (seen : Bytes)
    (first : UInt8)
    (rest : Bytes) : Move :=
  let further := BlockHeader.width - 1 - seen.length
  let stage :=
    match seen ++ first :: rest.take further with
    | [first, second, third] =>
        match LegacyFrame.blockHeader? first second third with
        | none => .start
        | some header =>
            if header.bodyWidth == 0 then .start
            else .legacyBlock frame header [] header.bodyWidth
    | bytes => .legacyBlockHeader frame bytes
  .proceed (decoder.atStage stage) [] further

/-- The move in a block of a legacy frame, behind some bytes of it.  A block
which is not wholly there is kept until it is, if it fits. -/
def moveInLegacyBlock
    (decoder : Decoder)
    (frame : LegacyFrame)
    (header : BlockHeader)
    (seen : Bytes)
    (left : Nat)
    (first : UInt8)
    (rest : Bytes) : Move :=
  let part := first :: rest.take (left - 1)
  let seen := part.reverse ++ seen
  if left ≤ part.length then
    match frame.expand header seen.reverse with
    | .error problem => .refuse problem
    | .ok content =>
        .proceed (decoder.atStage (.legacyBlockHeader (frame.store content.length) []))
          content (left - 1)
  else if frame.rooms.input < header.bodyWidth then .refuse .corruptedData
  else
    .proceed (decoder.atStage (.legacyBlock frame header seen (left - part.length))) [] (left - 1)

/-! ## Frames -/

/-- The move at the end of a frame header, whose last `further` bytes stand
behind the first one of the piece.  A frame which fits into a portion is decoded
at once if a whole frame stands at the start of the piece. -/
def openFrame (decoder : Decoder) (header : Header) (piece : Bytes) (further : Nat) : Move :=
  match if header.contentSize.any (· ≤ portion) then wholeFrame? piece else none with
  | some { content := .ok content, size } => .proceed (decoder.atStage .start) content (size - 1)
  | some { content := .error problem, .. } => .refuse problem
  | none =>
      match decoder.memory.start header with
      | .error problem => .refuse problem
      | .ok (frame, memory) => .proceed { stage := .blockHeader frame [], memory } [] further

/-- The move at bytes which cannot be accepted as a header.  If there are enough
of them for one, the piece may start with a legacy frame. -/
def moveBehindHeader
    (decoder : Decoder)
    (problem : Problem)
    (seen : Bytes)
    (first : UInt8)
    (rest : Bytes) : Move :=
  if Bytes.hasAtLeast (magic.length + 1) (seen ++ first :: rest) then
    match LegacyFormat.ofBytes problem (first :: rest) with
    | .error problem => .refuse problem
    | .ok format => decoder.moveInLegacyHeader format [] first rest
  else .refuse problem

/-- The move in a frame header, behind some bytes of it. -/
def moveInFrameHeader
    (decoder : Decoder)
    (seen : Bytes)
    (first : UInt8)
    (rest : Bytes) : Move :=
  match inspect (seen ++ first :: rest) with
  | .error problem => decoder.moveBehindHeader problem seen first rest
  | .ok none =>
      .proceed (decoder.atStage (.frameHeader (seen ++ first :: rest))) [] rest.length
  | .ok (some opening) =>
      let further := opening.width - 1 - seen.length
      match opening with
      | .frame header => decoder.openFrame header (first :: rest) further
      | .skipped length =>
          let stage := if length == 0 then .start else .skipped length
          .proceed { stage, memory := decoder.memory.startSkipped length } [] further

/-- Pass over bytes without content, of which `left` are left in front of the
move and the argument of `next` behind it. -/
def passOver
    (decoder : Decoder)
    (left : Nat)
    (rest : Bytes)
    (next : Nat → Stage) : Move :=
  let further := (rest.take (left - 1)).length
  .proceed (decoder.atStage (next (left - 1 - further))) [] further

/-- The move at the next bytes of a piece. -/
def move (decoder : Decoder) (first : UInt8) (rest : Bytes) : Move :=
  match decoder.stage with
  | .frameHeader seen => decoder.moveInFrameHeader seen first rest
  | .blockHeader frame seen => decoder.moveInBlockHeader frame seen first rest
  | .plainBlock frame last left => decoder.moveInPlainBlock frame last left first rest
  | .runBlock frame last count =>
      decoder.deliver frame (List.replicate count first) 0 (behindBlock · last)
  | .codedBlock left =>
      if Bytes.hasAtLeast (left - 1) rest then .refuse .corruptedData
      else decoder.passOver left rest .codedBlock
  | .checksum left =>
      decoder.passOver left rest fun left => if left == 0 then .start else .checksum left
  | .skipped left =>
      decoder.passOver left rest fun left => if left == 0 then .start else .skipped left
  | .legacyHeader format seen => decoder.moveInLegacyHeader format seen first rest
  | .legacyBlockHeader frame seen => decoder.moveInLegacyBlockHeader frame seen first rest
  | .legacyBlock frame header seen left =>
      decoder.moveInLegacyBlock frame header seen left first rest
  | .stuck problem => .refuse problem

end Decoder

/-! ## Calls -/

/-- A decoder between two calls. -/
structure Context where
  decoder : Decoder
  /-- Output for which there was no room. -/
  pending : Bytes
deriving DecidableEq, Repr

/-- Take input until a frame ends, there is no room for more output or no input is
left, behind some output in reversed order and some input. -/
def Decoder.run
    (decoder : Decoder)
    (free : Nat)
    (written : Bytes)
    (used : Nat) : Bytes → Except String Portion × Context
  | [] => (.ok { output := written.reverse, used }, { decoder, pending := [] })
  | first :: rest =>
      match decoder.move first rest with
      | .refuse problem =>
          (.error problem.message, { decoder := decoder.atStage (.stuck problem), pending := [] })
      | .proceed next output further =>
          if free < output.length ∨ next.stage = .start then
            (.ok
                { output := written.reverse ++ output.take free
                  used := used + (1 + (rest.take further).length) },
              { decoder := next, pending := output.drop free })
          else
            next.run (free - output.length) (output.reverse ++ written)
              (used + (1 + (rest.take further).length)) (rest.drop further)
termination_by input => input.length
decreasing_by simp only [List.length_drop, List.length_cons]; omega

namespace Context

/-- The context in front of a stream. -/
def start : Context :=
  { decoder := .start, pending := [] }

/-- One call, with room for some bytes of output.  What is pending is written first,
and a frame which ended with it ends the call. -/
def call (context : Context) (room : Nat) (input : Bytes) : Except String Portion × Context :=
  let pending := context.pending
  if room < pending.length ∨ pending ≠ [] ∧ context.decoder.stage = .start then
    (.ok { output := pending.take room, used := 0 },
      { context with pending := pending.drop room })
  else context.decoder.run (room - pending.length) pending.reverse 0 input

end Context

/-- A run takes no more than the input. -/
theorem Decoder.used_of_run
    {decoder : Decoder}
    {next : Context}
    {free used : Nat}
    {written input : Bytes}
    {portion : Portion}
    (ended : decoder.run free written used input = (.ok portion, next)) :
    used ≤ portion.used ∧ portion.used ≤ used + input.length ∧
      (input ≠ [] → used < portion.used) := by
  fun_induction run decoder free written used input with
  | case1 decoder free written used =>
      cases ended
      exact ⟨Nat.le_refl _, Nat.le_refl _, fun nonempty => absurd rfl nonempty⟩
  | case2 => cases ended
  | case3 decoder free written used first rest next output further moved stops =>
      cases ended
      simp only [List.length_cons, List.length_take]
      omega
  | case4 decoder free written used first rest next output further moved goesOn
      inductionHypothesis =>
      have later := inductionHypothesis ended
      simp only [List.length_cons, List.length_take, List.length_drop] at later ⊢
      omega

/-- A run without input writes what it starts with. -/
theorem Decoder.run_nil (decoder : Decoder) (free : Nat) (written : Bytes) (used : Nat) :
    decoder.run free written used [] =
      (.ok { output := written.reverse, used }, { decoder, pending := [] }) := by
  rw [run]

/-- A decoder of simple frames decompresses streams. -/
@[reducible] def decompressor : Decompressor where
  State := Context
  start := .start
  decompress := Context.call
  held context := context.pending.length
  used_le called := by
    unfold Context.call at called
    dsimp only at called
    split at called
    · cases called
      exact Nat.zero_le _
    · have bounds := Decoder.used_of_run called
      omega
  advances {context next room input portion} called positive nonempty := by
    unfold Context.call at called
    dsimp only at called
    split at called
    · rename_i flushes
      cases called
      have pending : context.pending ≠ [] := by
        rcases flushes with exceeds | ⟨pending, _⟩
        · exact List.length_pos_iff.mp (by omega)
        · exact pending
      refine .inr fun nothing => ?_
      rcases List.take_eq_nil_iff.mp nothing with closed | empty
      · omega
      · exact pending empty
    · exact .inl ((Decoder.used_of_run called).2.2 nonempty)
  held_le {context next room input portion} called unused := by
    unfold Context.call at called
    dsimp only at called
    split at called
    · cases called
      simp only [List.length_take, List.length_drop]
      omega
    · have nothing : input = [] := by
        by_cases nonempty : input = []
        · exact nonempty
        · have bounds := (Decoder.used_of_run called).2.2 nonempty
          omega
      rw [nothing, Decoder.run_nil] at called
      cases called
      simp

end Zstd
end Stream
end RuntimeLog
