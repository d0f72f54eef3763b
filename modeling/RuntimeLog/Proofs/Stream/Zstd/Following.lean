import RuntimeLog.Proofs.Stream.Conveyance
import RuntimeLog.Proofs.Stream.Zstd.Ambiguity
import RuntimeLog.Proofs.Stream.Zstd.Rooms

/-!
# Decoders of encodings

A decoder which takes an encoding in whatever pieces puts out its content: at every
cut it knows what is left of the frame and of the block at hand, and every move takes
it to the next cut.
-/

namespace RuntimeLog
namespace Stream
namespace Zstd

/-! ## Cuts -/

/-- The bytes of frames one after the other. -/
def encodeAll (items : List Item) : Bytes :=
  items.flatMap Item.encode

/-- The bytes which frames denote. -/
def contentAll (items : List Item) : Bytes :=
  items.flatMap Item.content

/-- A frame as the format has it, which a decoder takes without doubt. -/
structure Item.Clear (item : Item) : Prop where
  valid : item.Valid
  certain : ¬ item.Doubtful

/-- The number of bytes in front of the blocks, or of what is skipped. -/
def Item.headerWidth : Item → Nat
  | .frame packed => packed.header.length
  | .skipped _ _ => skippedHeaderWidth

/-- The window of a frame without doubt is accepted. -/
theorem Item.Clear.narrow
    {packed : PackedFrame}
    (clear : (Item.frame packed).Clear) :
    packed.windowSize ≤ greatestWindow :=
  Nat.le_of_not_lt (clear.certain ∘ Or.inl)

/-- A frame whose window is accepted is in doubt only if it holds 20010 bytes. -/
theorem Item.clear_of_length_ne
    {packed : PackedFrame}
    (valid : packed.Valid)
    (narrow : packed.windowSize ≤ greatestWindow)
    (other : packed.content.length ≠ 20010) :
    (Item.frame packed).Clear where
  valid := valid
  certain := by
    rintro (wide | ambiguous)
    · exact absurd wide (Nat.not_lt_of_le narrow)
    · exact other (valid.ambiguous_iff.mp ambiguous).2.1

/-- Every frame has a header. -/
theorem Item.headerWidth_pos (item : Item) : 0 < item.headerWidth := by
  cases item with
  | frame packed =>
      rw [headerWidth, PackedFrame.length_header]
      omega
  | skipped number payload => exact Nat.zero_lt_succ 7

theorem Item.headerWidth_le (item : Item) : item.headerWidth ≤ item.encode.length := by
  cases item with
  | frame packed => simp [headerWidth, encode, PackedFrame.encode]
  | skipped number payload => simp [headerWidth, encode, length_skippedHeader]

/-- The bytes of the blocks which are left of a frame, if any. -/
def encodeLeft (left : Option Blocks) : Bytes :=
  left.elim [] Blocks.encode

/-- The bytes which the blocks denote which are left of a frame. -/
def contentLeft (left : Option Blocks) : Bytes :=
  left.elim [] Blocks.content

/-- Blocks which are left of a frame, none of which is too large for it. -/
def Frame.Takes (frame : Frame) (left : Option Blocks) : Prop :=
  ∀ blocks ∈ left, blocks.Fit frame.blockLimit

/-- A cut of an encoding: the stage of a decoder there, the bytes behind the cut, and
the content which is still to come. -/
inductive Cut : Stage → (encoded content : Bytes) → Prop
  | ended : Cut .start [] []
  /-- In front of a frame, or in its header. -/
  | header
      {item : Item}
      {items : List Item}
      {seen encoded : Bytes}
      (clear : ∀ other ∈ item :: items, other.Clear)
      (inside : seen.length < item.headerWidth)
      (split : seen ++ encoded = item.encode ++ encodeAll items) :
      Cut (.frameHeader seen) encoded (item.content ++ contentAll items)
  /-- In front of a block, or in its header. -/
  | blockHeader
      {frame : Frame}
      {blocks : Blocks}
      {items : List Item}
      {seen encoded : Bytes}
      (clear : ∀ item ∈ items, item.Clear)
      (awaits : frame.Awaits blocks.content.length)
      (fit : blocks.Fit frame.blockLimit)
      (inside : seen.length < BlockHeader.width)
      (split : seen ++ encoded = blocks.encode ++ encodeAll items) :
      Cut (.blockHeader frame seen) encoded (blocks.content ++ contentAll items)
  /-- In a block which holds its bytes as they are. -/
  | plainBlock
      {frame : Frame}
      {content : Bytes}
      {left : Option Blocks}
      {items : List Item}
      (clear : ∀ item ∈ items, item.Clear)
      (awaits : frame.Awaits (content.length + (contentLeft left).length))
      (takes : frame.Takes left)
      (short : content.length ≤ frame.blockLimit)
      (nonempty : content ≠ []) :
      Cut (.plainBlock frame left.isNone content.length)
        (content ++ (encodeLeft left ++ encodeAll items))
        (content ++ (contentLeft left ++ contentAll items))
  /-- At the byte which a block repeats. -/
  | runBlock
      {frame : Frame}
      {byte : UInt8}
      {count : Nat}
      {left : Option Blocks}
      {items : List Item}
      (clear : ∀ item ∈ items, item.Clear)
      (awaits : frame.Awaits (count + (contentLeft left).length))
      (takes : frame.Takes left)
      (short : count ≤ frame.blockLimit) :
      Cut (.runBlock frame left.isNone count)
        (byte :: (encodeLeft left ++ encodeAll items))
        (List.replicate count byte ++ (contentLeft left ++ contentAll items))
  /-- In what is skipped. -/
  | skipped
      {payload : Bytes}
      {items : List Item}
      (clear : ∀ item ∈ items, item.Clear)
      (nonempty : payload ≠ []) :
      Cut (.skipped payload.length) (payload ++ encodeAll items) (contentAll items)

namespace Cut

variable {items : List Item} {stage : Stage} {encoded content : Bytes}

/-- Between two frames, all the later ones are still to come. -/
theorem start (clear : ∀ item ∈ items, item.Clear) :
    Cut .start (encodeAll items) (contentAll items) := by
  cases items with
  | nil => exact .ended
  | cons item items => exact .header clear item.headerWidth_pos rfl

/-- Behind the last byte, nothing is still to come. -/
theorem content_eq_nil (cut : Cut stage encoded content) (ended : encoded = []) :
    content = [] := by
  cases cut with
  | ended => rfl
  | @header item items seen _ clear inside split =>
      have lengths := congrArg List.length split
      have header := item.headerWidth_le
      simp only [ended, List.append_nil, List.length_append] at lengths
      omega
  | @blockHeader frame blocks items seen _ clear awaits fit inside split =>
      have lengths := congrArg List.length split
      have header := blocks.three_le_length_encode
      simp only [ended, List.append_nil, List.length_append] at lengths
      exact absurd inside (Nat.not_lt_of_le (by change 3 ≤ _; omega))
  | plainBlock clear awaits takes short nonempty =>
      exact absurd (List.append_eq_nil_iff.mp ended).1 nonempty
  | runBlock => cases ended
  | skipped clear nonempty => exact absurd (List.append_eq_nil_iff.mp ended).1 nonempty

end Cut

/-! ## Moves -/

/-- What a decoder does at a cut: it moves to a later cut, and puts out what is still
to come up to there. -/
def Advances (move : Move) (rest later content : Bytes) : Prop :=
  ∃ next output further more,
    move = .proceed next output further ∧ content = output ++ more ∧
    Cut next.stage (rest.drop further ++ later) more

/-- What a piece holds of a header of which some bytes were taken before. -/
theorem take_behind
    {seen rest later header tail : Bytes}
    {first : UInt8}
    (split : seen ++ (first :: rest ++ later) = header ++ tail)
    (inside : seen.length < header.length)
    (enough : header.length ≤ (seen ++ first :: rest).length) :
    seen ++ first :: rest.take (header.length - 1 - seen.length) = header := by
  have taken := congrArg (List.take header.length) split
  have further : header.length - seen.length = header.length - 1 - seen.length + 1 := by omega
  rw [List.length_append, List.length_cons] at enough
  rw [List.take_left, List.take_append, List.take_of_length_le (Nat.le_of_lt inside), further,
    List.cons_append, List.take_succ_cons, List.take_append_of_le_length (by omega)] at taken
  exact taken

/-- What is left of a piece behind a header of which some bytes were taken before. -/
theorem drop_behind
    {seen rest later header tail : Bytes}
    {first : UInt8}
    (split : seen ++ (first :: rest ++ later) = header ++ tail)
    (inside : seen.length < header.length)
    (enough : header.length ≤ (seen ++ first :: rest).length) :
    rest.drop (header.length - 1 - seen.length) ++ later = tail := by
  have dropped := congrArg (List.drop header.length) split
  have further : header.length = seen.length + (header.length - 1 - seen.length + 1) := by omega
  rw [List.length_append, List.length_cons] at enough
  rw [List.drop_left] at dropped
  rw [← dropped, further, ← List.drop_drop, List.drop_left, List.cons_append, List.drop_succ_cons,
    ← further, List.drop_append_of_le_length (by omega)]

namespace Decoder

variable {decoder : Decoder} {rest later : Bytes} {first : UInt8} {items : List Item}

/-- There is room for the content which a block delivers. -/
theorem advances_of_deliver
    {frame : Frame}
    {content more : Bytes}
    {left further : Nat}
    {stage : Stage}
    {next : Frame → Except Problem Stage}
    (awaits : frame.Awaits (content.length + left))
    (short : content.length ≤ frame.blockLimit)
    (follows : next (frame.store content.length) = .ok stage)
    (cut : Cut stage (rest.drop further ++ later) more) :
    Advances (decoder.deliver frame content further next) rest later (content ++ more) := by
  have room := awaits.le_free short
  refine ⟨decoder.atStage stage, content, further, more, ?_, rfl, cut⟩
  rw [deliver, if_neg (Nat.not_lt_of_le room), if_neg (Nat.not_lt_of_le short), follows]

/-- Behind a block, a frame goes on with the blocks which are left or has ended. -/
theorem cut_behindBlock
    {frame : Frame}
    {left : Option Blocks}
    (clear : ∀ item ∈ items, item.Clear)
    (awaits : frame.Awaits (contentLeft left).length)
    (takes : frame.Takes left) :
    ∃ stage, behindBlock frame left.isNone = .ok stage ∧
      Cut stage (encodeLeft left ++ encodeAll items) (contentLeft left ++ contentAll items) := by
  cases left with
  | none =>
      have right := Frame.Awaits.isWrongSize_eq awaits
      refine ⟨.start, ?_, .start clear⟩
      simp [behindBlock, right, behindBlocks, awaits.checksum]
  | some blocks =>
      exact ⟨_, rfl, .blockHeader clear awaits (takes blocks rfl) (Nat.zero_lt_succ 2) rfl⟩

/-- The move at the byte which a block repeats. -/
theorem advances_in_runBlock
    {frame : Frame}
    {count : Nat}
    {left : Option Blocks}
    (clear : ∀ item ∈ items, item.Clear)
    (awaits : frame.Awaits (count + (contentLeft left).length))
    (takes : frame.Takes left)
    (short : count ≤ frame.blockLimit)
    (split : rest ++ later = encodeLeft left ++ encodeAll items) :
    Advances
      (decoder.deliver frame (List.replicate count first) 0 (behindBlock · left.isNone)) rest later
      (List.replicate count first ++ (contentLeft left ++ contentAll items)) := by
  have whole : frame.Awaits
      ((List.replicate count first).length + (contentLeft left).length) := by
    rw [List.length_replicate]
    exact awaits
  have fits : (List.replicate count first).length ≤ frame.blockLimit := by
    rw [List.length_replicate]
    exact short
  obtain ⟨stage, follows, cut⟩ := cut_behindBlock clear whole.store takes
  exact advances_of_deliver whole fits follows (split ▸ cut)

/-- The move in a block which holds its bytes as they are. -/
theorem advances_in_plainBlock
    {frame : Frame}
    {content : Bytes}
    {left : Option Blocks}
    (clear : ∀ item ∈ items, item.Clear)
    (awaits : frame.Awaits (content.length + (contentLeft left).length))
    (takes : frame.Takes left)
    (short : content.length ≤ frame.blockLimit)
    (nonempty : content ≠ [])
    (split : first :: rest ++ later = content ++ (encodeLeft left ++ encodeAll items)) :
    Advances (decoder.moveInPlainBlock frame left.isNone content.length first rest) rest later
      (content ++ (contentLeft left ++ contentAll items)) := by
  unfold moveInPlainBlock
  have starts : first :: rest <+: content ++ (encodeLeft left ++ encodeAll items) :=
    ⟨later, split⟩
  rcases prefix_append_cases starts with ⟨cut, inside⟩ | ⟨behind, whole, _⟩
  · -- the piece ends inside the block
    obtain ⟨missing, rfl⟩ := inside
    rw [List.append_assoc, List.append_cancel_left_eq] at split
    have taken : first :: rest.take ((first :: rest ++ missing).length - 1) = first :: rest := by
      rw [List.take_of_length_le (by simp)]
    have nonempty : missing ≠ [] := by
      rintro rfl
      simp at cut
    rw [List.length_append, Nat.add_assoc] at awaits
    rw [List.length_append] at short
    have fits : (first :: rest).length ≤ frame.blockLimit := by omega
    have unfinished : ¬ (first :: rest ++ missing).length ≤ (first :: rest).length := by omega
    have behind : rest.drop ((first :: rest ++ missing).length - 1) ++ later =
        missing ++ (encodeLeft left ++ encodeAll items) := by
      rw [split, List.drop_of_length_le (by simp), List.nil_append]
    have rest_eq : (first :: rest ++ missing).length - (first :: rest).length = missing.length := by
      rw [List.length_append, Nat.add_sub_cancel_left]
    rw [taken, List.append_assoc]
    refine advances_of_deliver awaits fits (if_neg unfinished) ?_
    rw [behind, rest_eq]
    exact .plainBlock clear awaits.store takes (by change missing.length ≤ frame.blockLimit; omega)
      nonempty
  · -- the piece reaches beyond the block
    obtain ⟨byte, inner, rfl⟩ := List.exists_cons_of_ne_nil nonempty
    rw [List.cons_append] at whole
    obtain ⟨rfl, rfl⟩ := List.cons.inj whole
    have tail : behind ++ later = encodeLeft left ++ encodeAll items := by
      simpa using split
    obtain ⟨stage, follows, cut⟩ := cut_behindBlock clear awaits.store takes
    have taken : first :: (inner ++ behind).take ((first :: inner).length - 1) =
        first :: inner := by
      simp
    have dropped : (inner ++ behind).drop ((first :: inner).length - 1) = behind := by
      simp
    rw [taken]
    refine advances_of_deliver awaits short ((if_pos (Nat.le_refl _)).trans follows) ?_
    rw [dropped, tail]
    exact cut

/-- The stage behind a block header is in the block, or behind it if it has no bytes. -/
theorem cut_behindBlockHeader
    {frame : Frame}
    {block : SimpleBlock}
    {left : Option Blocks}
    (clear : ∀ item ∈ items, item.Clear)
    (awaits : frame.Awaits (block.content.length + (contentLeft left).length))
    (fits : block.Fits frame.blockLimit)
    (takes : frame.Takes left) :
    ∃ stage, behindBlockHeader frame (block.header left.isNone) = .ok stage ∧
      Cut stage (block.body ++ (encodeLeft left ++ encodeAll items))
        (block.content ++ (contentLeft left ++ contentAll items)) := by
  have accepted : ((block.header left.isNone).sort = .reserved ||
      frame.blockLimit < (block.header left.isNone).bodyWidth) = false := by
    have sort : (block.header left.isNone).sort ≠ .reserved := by
      cases block <;> simp [SimpleBlock.header]
    simpa [SimpleBlock.bodyWidth_header, sort] using fits.body_le
  rw [behindBlockHeader, accepted, if_neg Bool.false_ne_true]
  cases block with
  | run byte count =>
      have short : count ≤ frame.blockLimit := by
        simpa [SimpleBlock.content] using fits.content_le
      have awaited : frame.Awaits (count + (contentLeft left).length) := by
        simpa [SimpleBlock.content] using awaits
      refine ⟨.runBlock frame left.isNone count, ?_, .runBlock clear awaited takes short⟩
      simp [SimpleBlock.header, BlockHeader.bodyWidth, SimpleBlock.content]
  | plain content =>
      by_cases nonempty : content = []
      · subst nonempty
        have awaited : frame.Awaits (contentLeft left).length := by
          simpa [SimpleBlock.content] using awaits
        refine ⟨_, rfl, ?_⟩
        cases left with
        | none =>
            have ended : behindBlocks frame = .start := by simp [behindBlocks, awaits.checksum]
            change Cut (behindBlocks frame) (encodeAll items) (contentAll items)
            rw [ended]
            exact .start clear
        | some blocks =>
            exact .blockHeader clear awaited (takes blocks rfl) (Nat.zero_lt_succ 2) rfl
      · refine ⟨.plainBlock frame left.isNone content.length, ?_,
          .plainBlock clear awaits takes fits.content_le nonempty⟩
        simp [SimpleBlock.header, BlockHeader.bodyWidth, SimpleBlock.content, nonempty]

/-- The blocks of a frame begin with one of them, behind which others may be left. -/
theorem exists_first (blocks : Blocks) :
    ∃ (block : SimpleBlock) (left : Option Blocks),
      blocks.encode = block.encode left.isNone ++ encodeLeft left ∧
      blocks.content = block.content ++ contentLeft left ∧
      ∀ limit, blocks.Fit limit → block.Fits limit ∧ ∀ rest ∈ left, rest.Fit limit := by
  cases blocks with
  | last block =>
      refine ⟨block, none, (List.append_nil _).symm, (List.append_nil _).symm, fun limit fit => ?_⟩
      exact ⟨fit block (by simp [Blocks.toList]), by simp⟩
  | cons block rest =>
      refine ⟨block, some rest, rfl, rfl, fun limit fit => ?_⟩
      refine ⟨fit block (by simp [Blocks.toList]), ?_⟩
      rintro _ ⟨rfl⟩ other member
      exact fit other (List.mem_cons_of_mem _ member)

/-- The move in a block header. -/
theorem advances_in_blockHeader
    {frame : Frame}
    {blocks : Blocks}
    {seen : Bytes}
    (clear : ∀ item ∈ items, item.Clear)
    (awaits : frame.Awaits blocks.content.length)
    (fit : blocks.Fit frame.blockLimit)
    (inside : seen.length < BlockHeader.width)
    (split : seen ++ (first :: rest ++ later) = blocks.encode ++ encodeAll items) :
    Advances (decoder.moveInBlockHeader frame seen first rest) rest later
      (blocks.content ++ contentAll items) := by
  obtain ⟨block, left, encode_eq, content_eq, fits⟩ := exists_first blocks
  obtain ⟨fits, takes⟩ := fits frame.blockLimit fit
  unfold moveInBlockHeader
  dsimp only
  by_cases short : (seen ++ first :: rest).length < BlockHeader.width
  · -- the piece ends inside the header
    have all : rest.take (BlockHeader.width - 1 - seen.length) = rest := by
      rw [List.length_append, List.length_cons] at short
      exact List.take_of_length_le (by omega)
    have nothing : rest.drop (BlockHeader.width - 1 - seen.length) = [] := by
      rw [List.length_append, List.length_cons] at short
      exact List.drop_of_length_le (by omega)
    rw [all, if_pos short]
    refine ⟨_, _, _, _, rfl, rfl, ?_⟩
    rw [nothing]
    exact .blockHeader clear awaits fit short (by simpa using split)
  · have width := LittleEndian.length_encode 3 (block.headerNumber left.isNone)
    have enough := Nat.le_of_not_lt short
    rw [encode_eq, SimpleBlock.encode, List.append_assoc, List.append_assoc] at split
    have taken := take_behind split (by rw [width]; exact inside) (by rw [width]; exact enough)
    have behind := drop_behind split (by rw [width]; exact inside) (by rw [width]; exact enough)
    rw [width] at taken behind
    have small : block.Fits greatestBlock := fits.mono awaits.blockLimit_le
    have number := SimpleBlock.ofNat_decode_encode small left.isNone
    rw [content_eq, List.length_append] at awaits
    obtain ⟨stage, follows, cut⟩ := cut_behindBlockHeader clear awaits fits takes
    have whole : ¬ (LittleEndian.encode 3 (block.headerNumber left.isNone)).length < 3 := by
      rw [width]
      exact Nat.lt_irrefl 3
    rw [show BlockHeader.width = 3 from rfl, taken, if_neg whole, number, follows, content_eq,
      List.append_assoc]
    exact ⟨_, _, _, _, rfl, rfl, behind ▸ cut⟩

/-- The move in what is skipped. -/
theorem advances_in_skipped
    {payload : Bytes}
    (clear : ∀ item ∈ items, item.Clear)
    (nonempty : payload ≠ [])
    (split : first :: rest ++ later = payload ++ encodeAll items) :
    Advances
      (decoder.passOver payload.length rest fun left =>
        if left == 0 then .start else .skipped left)
      rest later (contentAll items) := by
  unfold passOver
  have starts : first :: rest <+: payload ++ encodeAll items := ⟨later, split⟩
  rcases prefix_append_cases starts with ⟨cut, inside⟩ | ⟨behind, whole, _⟩
  · obtain ⟨missing, rfl⟩ := inside
    rw [List.append_assoc, List.append_cancel_left_eq] at split
    have all : rest.take ((first :: rest ++ missing).length - 1) = rest :=
      List.take_of_length_le (by simp)
    have left : (first :: rest ++ missing).length - 1 - rest.length = missing.length := by
      simp only [List.cons_append, List.length_cons, List.length_append]
      omega
    have goesOn : missing ≠ [] := by
      rintro rfl
      simp at cut
    have positive : (missing.length == 0) = false := by simpa using goesOn
    rw [all]
    dsimp only
    rw [left, positive, if_neg Bool.false_ne_true]
    refine ⟨_, _, _, _, rfl, rfl, ?_⟩
    rw [List.drop_length, split]
    exact .skipped clear goesOn
  · obtain ⟨byte, inner, rfl⟩ := List.exists_cons_of_ne_nil nonempty
    rw [List.cons_append] at whole
    obtain ⟨rfl, rfl⟩ := List.cons.inj whole
    have tail : behind ++ later = encodeAll items := by simpa using split
    have all : ((inner ++ behind).take ((first :: inner).length - 1)).length = inner.length := by
      simp
    have last : (first :: inner).length - 1 - inner.length = 0 := by simp
    rw [all]
    dsimp only
    rw [last, if_pos (by rfl)]
    refine ⟨_, _, _, _, rfl, rfl, ?_⟩
    rw [List.drop_left, tail]
    exact .start clear

/-- A whole frame is found in a piece only where the piece starts with the frame at
hand. -/
theorem wholeFrame?_cases
    {packed : PackedFrame}
    {seen piece more : Bytes}
    (clear : (Item.frame packed).Clear)
    (inside : seen.length < packed.header.length)
    (starts : seen ++ piece <+: packed.encode ++ more) :
    (if packed.parsed.contentSize.any (· ≤ portion) then wholeFrame? piece else none) = none ∨
      seen = [] ∧ packed.encode.length ≤ piece.length ∧
        (if packed.parsed.contentSize.any (· ≤ portion) then wholeFrame? piece else none) =
          some { content := .ok packed.content, size := packed.encode.length } := by
  have valid : packed.Valid := clear.valid
  have narrow := clear.narrow
  by_cases known : packed.parsed.contentSize.any (· ≤ portion) = true
  · have sized : packed.sizeWidth ≠ 0 ∧ packed.content.length ≤ portion := by
      simp only [PackedFrame.parsed] at known
      split at known
      · cases known
      · rename_i written
        exact ⟨fun unsized => written (Or.inl unsized), by simpa using known⟩
    rw [if_pos known]
    cases seen with
    | nil =>
        rw [List.nil_append] at starts
        rw [PackedFrame.wholeFrame?_of_prefix valid narrow sized.2 starts]
        by_cases whole : packed.encode.length ≤ piece.length
        · exact Or.inr ⟨rfl, whole, if_pos whole⟩
        · exact Or.inl (if_neg whole)
    | cons byte seen =>
        exact Or.inl
          (wholeFrame?_of_not_ambiguous (clear.certain ∘ Or.inr) sized (by simp) inside starts)
  · exact Or.inl (if_neg known)

/-- The move at the end of a frame header. -/
theorem advances_of_openFrame
    {packed : PackedFrame}
    {seen : Bytes}
    (clear : ∀ other ∈ Item.frame packed :: items, other.Clear)
    (inside : seen.length < packed.header.length)
    (enough : packed.header.length ≤ (seen ++ first :: rest).length)
    (split : seen ++ (first :: rest ++ later) = packed.encode ++ encodeAll items) :
    Advances
      (decoder.openFrame packed.parsed (first :: rest) (packed.header.length - 1 - seen.length))
      rest later (packed.content ++ contentAll items) := by
  obtain ⟨here, others⟩ := List.forall_mem_cons.mp clear
  have starts : seen ++ first :: rest <+: packed.encode ++ encodeAll items :=
    ⟨later, by rw [← split, List.append_assoc]⟩
  unfold openFrame
  rcases wholeFrame?_cases here inside starts with unfound | ⟨rfl, whole, found⟩
  · have sizes : ∀ size, packed.parsed.contentSize = some size →
        size = packed.content.length := by
      intro size said
      simp only [PackedFrame.parsed] at said
      split at said
      · cases said
      · exact (Option.some.inj said).symm
    have dictionary : packed.parsed.dictionary = 0 := rfl
    obtain ⟨frame, memory, started, limit, awaits⟩ :=
      decoder.memory.awaits_of_start dictionary rfl here.narrow sizes
    rw [unfound]
    dsimp only
    rw [started]
    refine ⟨_, _, _, _, rfl, rfl, .blockHeader others awaits ?_ (Nat.zero_lt_succ 2) ?_⟩
    · rw [limit]
      exact PackedFrame.Valid.fit here.valid
    · rw [PackedFrame.encode, List.append_assoc] at split
      exact drop_behind split inside enough
  · rw [found]
    refine ⟨_, _, _, _, rfl, rfl, ?_⟩
    have behind := drop_behind split (Nat.lt_of_lt_of_le inside ?_) whole
    · rw [List.length_nil, Nat.sub_zero] at behind
      rw [behind]
      exact .start others
    · simp [PackedFrame.encode]

/-- The move in the header of a frame, or of a frame to skip. -/
theorem advances_in_frameHeader
    {item : Item}
    {seen : Bytes}
    (clear : ∀ other ∈ item :: items, other.Clear)
    (inside : seen.length < item.headerWidth)
    (split : seen ++ (first :: rest ++ later) = item.encode ++ encodeAll items) :
    Advances (decoder.moveInFrameHeader seen first rest) rest later
      (item.content ++ contentAll items) := by
  obtain ⟨here, others⟩ := List.forall_mem_cons.mp clear
  have unfinished (short : (seen ++ first :: rest).length < item.headerWidth) :
      Advances
        (.proceed (decoder.atStage (.frameHeader (seen ++ first :: rest))) [] rest.length)
        rest later (item.content ++ contentAll items) := by
    refine ⟨_, _, _, _, rfl, rfl, ?_⟩
    rw [List.drop_length]
    exact .header clear short (by simpa using split)
  unfold moveInFrameHeader
  cases item with
  | frame packed =>
      have starts : seen ++ first :: rest <+:
          packed.header ++ (packed.blocks.encode ++ encodeAll items) := by
        refine ⟨later, ?_⟩
        rw [List.append_assoc, split, Item.encode, PackedFrame.encode, List.append_assoc]
      rw [PackedFrame.inspect_of_prefix here.valid here.narrow starts]
      by_cases enough : packed.header.length ≤ (seen ++ first :: rest).length
      · rw [if_pos enough]
        exact advances_of_openFrame clear inside enough split
      · rw [if_neg enough]
        exact unfinished (Nat.lt_of_not_le enough)
  | skipped number payload =>
      rw [Item.encode, List.append_assoc] at split
      rw [Item.inspect_of_skippedHeader here.valid ⟨later, by rw [List.append_assoc]; exact split⟩]
      by_cases enough : skippedHeaderWidth ≤ (seen ++ first :: rest).length
      · rw [if_pos enough]
        have width := Item.length_skippedHeader number payload.length
        have behind := drop_behind split (by rw [width]; exact inside) (by rw [width]; exact enough)
        rw [width] at behind
        refine ⟨_, _, _, _, rfl, rfl, ?_⟩
        change Cut _ (rest.drop (skippedHeaderWidth - 1 - seen.length) ++ later) (contentAll items)
        rw [behind]
        cases payload with
        | nil => exact .start others
        | cons byte payload => exact .skipped others (List.cons_ne_nil byte payload)
      · rw [if_neg enough]
        exact unfinished (Nat.lt_of_not_le enough)

/-- A decoder at a cut moves to a later one. -/
theorem advances_of_cut
    {encoded content : Bytes}
    (cut : Cut decoder.stage encoded content)
    (split : first :: rest ++ later = encoded) :
    Advances (decoder.move first rest) rest later content := by
  obtain ⟨stage, memory⟩ := decoder
  dsimp only at cut
  unfold move
  cases cut with
  | ended => cases split
  | header clear inside whole => exact advances_in_frameHeader clear inside (split ▸ whole)
  | blockHeader clear awaits fit inside whole =>
      exact advances_in_blockHeader clear awaits fit inside (split ▸ whole)
  | plainBlock clear awaits takes short nonempty =>
      exact advances_in_plainBlock clear awaits takes short nonempty split
  | runBlock clear awaits takes short =>
      obtain ⟨rfl, tail⟩ := List.cons.inj split
      exact advances_in_runBlock clear awaits takes short tail
  | skipped clear nonempty => exact advances_in_skipped clear nonempty split

end Decoder

/-! ## Calls -/

attribute [local instance] decompressor

/-- What is left of a piece behind its first byte and some more of it. -/
theorem drop_further (first : UInt8) (rest : Bytes) (further : Nat) :
    (first :: rest).drop (1 + (rest.take further).length) = rest.drop further := by
  rw [Nat.add_comm, List.drop_succ_cons, List.length_take]
  rcases Nat.le_total further rest.length with inside | beyond
  · rw [Nat.min_eq_left inside]
  · rw [Nat.min_eq_right beyond, List.drop_length, List.drop_of_length_le beyond]

/-- A run from a cut leads to a cut.  It puts out what is still to come up to there, and
holds back only what there is no room for. -/
theorem Decoder.run_of_cut
    {decoder : Decoder}
    {input later content : Bytes}
    (cut : Cut decoder.stage (input ++ later) content)
    (free : Nat)
    (written : Bytes)
    (used : Nat) :
    ∃ output taken next more,
      decoder.run free written used input =
        (.ok { output := written.reverse ++ output, used := used + taken }, next) ∧
      content = output ++ (next.pending ++ more) ∧
      Cut next.decoder.stage (input.drop taken ++ later) more ∧
      (next.pending ≠ [] → output.length = free) := by
  fun_induction Decoder.run decoder free written used input generalizing content with
  | case1 decoder free written used =>
      exact ⟨[], 0, _, content, by rw [List.append_nil, Nat.add_zero], rfl, cut,
        fun held => absurd rfl held⟩
  | case2 decoder free written used first rest problem refused =>
      obtain ⟨_, _, _, _, moved, _⟩ := Decoder.advances_of_cut cut rfl
      cases refused.symm.trans moved
  | case3 decoder free written used first rest next output further moved stops =>
      obtain ⟨_, _, _, more, same, content_eq, behind⟩ := Decoder.advances_of_cut cut rfl
      cases moved.symm.trans same
      refine ⟨output.take free, 1 + (rest.take further).length, _, more, rfl, ?_, ?_, ?_⟩
      · rw [← List.append_assoc, List.take_append_drop, content_eq]
      · rw [drop_further]
        exact behind
      · intro held
        have exceeds : free < output.length :=
          Nat.lt_of_not_le fun fits => held (List.drop_of_length_le fits)
        rw [List.length_take, Nat.min_eq_left (Nat.le_of_lt exceeds)]
  | case4 decoder free written used first rest next output further moved goesOn
      inductionHypothesis =>
      obtain ⟨_, _, _, more, same, content_eq, behind⟩ := Decoder.advances_of_cut cut rfl
      cases moved.symm.trans same
      obtain ⟨others, taken, context, last, ran, more_eq, cut, full⟩ := inductionHypothesis behind
      have fits : output.length ≤ free := Nat.le_of_not_lt (goesOn ∘ Or.inl)
      refine ⟨output ++ others, 1 + (rest.take further).length + taken, context, last,
        ?_, ?_, ?_, ?_⟩
      · rw [ran, List.reverse_append, List.reverse_reverse, List.append_assoc, Nat.add_assoc]
      · rw [content_eq, more_eq, List.append_assoc]
      · rw [← List.drop_drop, drop_further]
        exact cut
      · intro held
        rw [List.length_append, full held, Nat.add_sub_cancel' fits]

namespace Context

/-- A call at a cut leads to a cut.  It puts out what was held back and then what is still
to come, and a call which leaves room holds nothing back. -/
theorem call_of_cut
    {context : Context}
    {input later content : Bytes}
    (cut : Cut context.decoder.stage (input ++ later) content)
    (room : Nat) :
    ∃ portion next more,
      context.call room input = (.ok portion, next) ∧
      context.pending ++ content = portion.output ++ (next.pending ++ more) ∧
      Cut next.decoder.stage (input.drop portion.used ++ later) more ∧
      (portion.output.length < room → next.pending = []) := by
  unfold call
  dsimp only
  split
  · refine ⟨_, _, content, rfl, ?_, cut, fun room_left => ?_⟩
    · rw [← List.append_assoc, List.take_append_drop]
    · rw [List.length_take] at room_left
      exact List.drop_of_length_le (by omega)
  · rename_i goesOn
    obtain ⟨output, taken, next, more, ran, content_eq, behind, full⟩ :=
      Decoder.run_of_cut cut (room - context.pending.length) context.pending.reverse 0
    refine ⟨_, next, more, ran, ?_, ?_, fun room_left => ?_⟩
    · rw [content_eq, List.reverse_reverse, List.append_assoc]
    · rw [Nat.zero_add]
      exact behind
    · refine Decidable.byContradiction fun held => ?_
      simp only [List.length_append, List.length_reverse, full held] at room_left
      omega

/-- Calls with pieces of an encoding lead to a cut of it. -/
theorem cut_of_reaches
    {context : Context}
    {encoded content taken written : Bytes}
    {flushed : Bool}
    (start : Cut .start encoded content)
    (reaches : Decompressor.Reaches encoded context taken written flushed) :
    ∃ later more,
      encoded = taken ++ later ∧ content = written ++ (context.pending ++ more) ∧
      Cut context.decoder.stage later more ∧ (flushed = true → context.pending = []) := by
  induction reaches with
  | start => exact ⟨encoded, content, rfl, rfl, start, fun _ => rfl⟩
  | @call context next taken written input flushed portion reaches inside goesOn called
      inductionHypothesis =>
      obtain ⟨later, more, encoded_eq, content_eq, cut, _⟩ := inductionHypothesis
      obtain ⟨rest, rfl⟩ : input <+: later := by
        rw [encoded_eq] at inside
        exact (List.prefix_append_right_inj taken).mp inside
      obtain ⟨other, behind, last, same, more_eq, further, empty⟩ :=
        call_of_cut cut Decompressor.room
      cases called.symm.trans same
      refine ⟨input.drop portion.used ++ rest, last, ?_, ?_, further, ?_⟩
      · rw [encoded_eq, List.append_assoc, ← List.append_assoc (input.take _),
          List.take_append_drop]
      · rw [content_eq, more_eq, List.append_assoc]
      · exact fun room_left => empty (of_decide_eq_true room_left)

end Context

/-- Frames within the limits of a decoder, none of which can be mistaken, are decompressed
to their content. -/
theorem decompresses_of_clear
    {items : List Item}
    (clear : ∀ item ∈ items, item.Clear) :
    Decompressor.Decompresses (encodeAll items) (contentAll items) where
  accepts {_ taken written flushed input} reaches inside _ := by
    obtain ⟨later, more, encoded_eq, _, cut, _⟩ := Context.cut_of_reaches (.start clear) reaches
    obtain ⟨rest, rfl⟩ : input <+: later := by
      rw [encoded_eq] at inside
      exact (List.prefix_append_right_inj taken).mp inside
    obtain ⟨portion, next, _, called, _⟩ := Context.call_of_cut cut Decompressor.room
    exact ⟨portion, next, called⟩
  flushes {_ written} reaches := by
    obtain ⟨later, more, encoded_eq, content_eq, cut, empty⟩ :=
      Context.cut_of_reaches (.start clear) reaches
    have ended : later = [] := List.self_eq_append_right.mp encoded_eq
    rw [content_eq, empty rfl, cut.content_eq_nil ended, List.append_nil, List.append_nil]

/-- Frames the first of which is not skipped start like a compressed stream. -/
theorem magic_le_encodeAll
    {items : List Item}
    (begins : ∃ packed rest, items = .frame packed :: rest) :
    magic <+: encodeAll items := by
  obtain ⟨packed, rest, rfl⟩ := begins
  rw [encodeAll, List.flatMap_cons, Item.encode, PackedFrame.encode, PackedFrame.header,
    List.append_assoc, List.append_assoc]
  exact List.prefix_append _ _

end Zstd
end Stream
end RuntimeLog
