import RuntimeLog.Proofs.Stream.Zstd.Encoding

/-!
# Ambiguous frames

A decoder which takes a piece up behind some bytes of a frame header looks for a whole
frame at the start of the piece, and not at the start of the header.  It may find one
there which is none.
-/

namespace RuntimeLog
namespace Stream
namespace Zstd

/-- Whether a frame or a frame to skip seems to start somewhere. -/
def seemsToStart (bytes : Bytes) : Bool :=
  startsFrame bytes || startsSkipped bytes

/-- A frame which fits into a portion, and behind some header bytes of which another
frame seems to start.  A decoder which takes it up there may mistake it for that frame. -/
def PackedFrame.Ambiguous (frame : PackedFrame) : Prop :=
  frame.sizeWidth ≠ 0 ∧ frame.content.length ≤ portion ∧
    ∃ count, 0 < count ∧ count < frame.header.length ∧
      seemsToStart (frame.encode.drop count) = true

/-- A frame with a wider window than a decoder accepts, or which it may mistake. -/
def Item.Doubtful : Item → Prop
  | .frame packed => greatestWindow < packed.windowSize ∨ packed.Ambiguous
  | .skipped _ _ => False

/-- Whether a frame seems to start is told by the first four bytes. -/
theorem seemsToStart_take (bytes : Bytes) :
    seemsToStart (bytes.take 4) = seemsToStart bytes := by
  match bytes with
  | [] => rfl
  | [_] => rfl
  | [_, _] => rfl
  | [_, _, _] => rfl
  | _ :: _ :: _ :: _ :: rest => simp [seemsToStart, startsFrame, startsSkipped, magic]

/-- Nothing is found where no frame seems to start. -/
theorem wholeFrame?_of_not_seems
    {bytes : Bytes}
    (foreign : 4 ≤ bytes.length → seemsToStart bytes = false) :
    wholeFrame? bytes = none := by
  by_cases long : 4 ≤ bytes.length
  · have starts := foreign long
    rw [seemsToStart, Bool.or_eq_false_iff] at starts
    simp [wholeFrame?, inspect, starts.1, starts.2]
  · have dropped : bytes.drop magic.length = [] :=
      List.drop_of_length_le (by change bytes.length ≤ 4; omega)
    have missing : Bytes.splitExactly skippedHeaderWidth bytes = none := by
      rw [Bytes.splitExactly_eq, if_neg (by unfold skippedHeaderWidth; omega)]
    rw [wholeFrame?, inspect, dropped, missing]
    by_cases frame : startsFrame bytes = true
    · rw [if_pos frame]
    · by_cases skipped : startsSkipped bytes = true
      · rw [if_neg frame, if_pos skipped]
      · rw [if_neg frame, if_neg skipped]

/-- Behind some header bytes of a frame which cannot be mistaken, nothing is found. -/
theorem wholeFrame?_of_not_ambiguous
    {frame : PackedFrame}
    {seen piece more : Bytes}
    (clear : ¬ frame.Ambiguous)
    (sized : frame.sizeWidth ≠ 0 ∧ frame.content.length ≤ portion)
    (started : seen ≠ [])
    (inside : seen.length < frame.header.length)
    (starts : seen ++ piece <+: frame.encode ++ more) :
    wholeFrame? piece = none := by
  apply wholeFrame?_of_not_seems
  intro long
  rw [← Bool.not_eq_true]
  intro seems
  refine clear ⟨sized.1, sized.2, seen.length, List.length_pos_iff.mpr started, inside, ?_⟩
  have blocks := frame.blocks.three_le_length_encode
  have length_eq : frame.encode.length = frame.header.length + frame.blocks.encode.length :=
    List.length_append
  have first : piece.take 4 = (frame.encode.drop seen.length).take 4 := by
    obtain ⟨later, whole⟩ := starts
    have behind := congrArg (List.drop seen.length) whole
    rw [List.append_assoc, List.drop_left, List.drop_append_of_le_length (by omega)] at behind
    have cut : (piece ++ later).take 4 = piece.take 4 := List.take_append_of_le_length long
    rw [← cut, behind, List.take_append_of_le_length (by rw [List.length_drop]; omega)]
  rw [← seemsToStart_take, ← first, seemsToStart_take, seems]

/-! ## Which frames are ambiguous -/

/-- A frame or a frame to skip seems to start where four bytes say so. -/
theorem seemsToStart_iff (first second third fourth : UInt8) (rest : Bytes) :
    seemsToStart (first :: second :: third :: fourth :: rest) = true ↔
      first = 0x28 ∧ second = 0xb5 ∧ third = 0x2f ∧ fourth = 0xfd ∨
        first.toNat / 16 = 5 ∧ second = 0x2a ∧ third = 0x4d ∧ fourth = 0x18 := by
  simp [seemsToStart, startsFrame, startsSkipped, magic]

/-- What the low byte of a number is. -/
theorem ofNat_eq_iff {number : Nat} {byte : UInt8} :
    UInt8.ofNat number = byte ↔ number % 256 = byte.toNat := by
  rw [← UInt8.toNat_inj, UInt8.toNat_ofNat']

/-- A number which the header of a simple block can write. -/
structure WritesBlock (number : Nat) : Prop where
  simple : number / 2 % 4 < 2
  short : number / 8 ≤ 131072

theorem SimpleBlock.writesBlock
    {block : SimpleBlock}
    (fits : block.Fits greatestBlock)
    (last : Bool) :
    WritesBlock (block.headerNumber last) := by
  have low : last.toNat < 2 := by cases last <;> decide
  have code := block.sortCode_lt
  have bound : block.content.length ≤ 131072 := fits.content_le
  constructor <;> (unfold SimpleBlock.headerNumber; omega)

section

variable {width size number : Nat} {byte : UInt8} {more : Bytes}

/-- No frame seems to start in a content size which is no more than a portion. -/
theorem not_seemsToStart_in_size
    (writes : WritesBlock number)
    (positive : 0 < width)
    (small : size ≤ 131072)
    (smaller : width = 3 → size ≤ 512) :
    ¬ seemsToStart
      (LittleEndian.encode width size ++ (LittleEndian.encode 3 number ++ more)) = true := by
  obtain ⟨simple, short⟩ := writes
  match width, positive with
  | 1, _ =>
      simp only [LittleEndian.encode, List.cons_append, List.nil_append, seemsToStart_iff]
      rintro (⟨_, low, middle, high⟩ | ⟨_, low, middle, high⟩)
      · have high : number / 256 / 256 % 256 = 0xfd := ofNat_eq_iff.mp high
        omega
      · have high : number / 256 / 256 % 256 = 0x18 := ofNat_eq_iff.mp high
        omega
  | 2, _ =>
      simp only [LittleEndian.encode, List.cons_append, List.nil_append, seemsToStart_iff]
      rintro (⟨_, _, low, _⟩ | ⟨_, _, low, _⟩)
      · have low : number % 256 = 0x2f := ofNat_eq_iff.mp low
        omega
      · have low : number % 256 = 0x4d := ofNat_eq_iff.mp low
        omega
  | 3, _ =>
      simp only [LittleEndian.encode, List.cons_append, List.nil_append, seemsToStart_iff]
      rintro (⟨_, _, third, _⟩ | ⟨_, _, third, _⟩)
      · have third : size / 256 / 256 % 256 = 0x2f := ofNat_eq_iff.mp third
        omega
      · have third : size / 256 / 256 % 256 = 0x4d := ofNat_eq_iff.mp third
        omega
  | width + 4, _ =>
      simp only [LittleEndian.encode, List.cons_append, seemsToStart_iff]
      rintro (⟨_, _, _, fourth⟩ | ⟨_, _, _, fourth⟩)
      · have fourth : size / 256 / 256 / 256 % 256 = 0xfd := ofNat_eq_iff.mp fourth
        omega
      · have fourth : size / 256 / 256 / 256 % 256 = 0x18 := ofNat_eq_iff.mp fourth
        omega

/-- A frame seems to start at the byte of the window only in one way: as a frame to skip
in front of a plain block which is not the last one. -/
theorem seemsToStart_at_window_iff
    (writes : WritesBlock number)
    (positive : 0 < width)
    (small : size ≤ 131072) :
    seemsToStart
        (byte :: (LittleEndian.encode width size ++ (LittleEndian.encode 3 number ++ more))) =
        true ↔
      width = 2 ∧ byte.toNat / 16 = 5 ∧ size % 65536 = 0x4d2a ∧ number % 256 = 0x18 := by
  obtain ⟨simple, short⟩ := writes
  match width, positive with
  | 1, _ =>
      simp only [LittleEndian.encode, List.cons_append, List.nil_append, seemsToStart_iff,
        ofNat_eq_iff]
      constructor
      · rintro (⟨_, _, low, _⟩ | ⟨_, _, low, _⟩)
        · have low : number % 256 = 0x2f := low
          omega
        · have low : number % 256 = 0x4d := low
          omega
      · rintro ⟨other, _⟩
        cases other
  | 2, _ =>
      simp only [LittleEndian.encode, List.cons_append, List.nil_append, seemsToStart_iff,
        ofNat_eq_iff]
      constructor
      · rintro (⟨_, _, _, low⟩ | ⟨sort, second, third, low⟩)
        · have low : number % 256 = 0xfd := low
          omega
        · have second : size % 256 = 0x2a := second
          have third : size / 256 % 256 = 0x4d := third
          exact ⟨trivial, sort, by omega, low⟩
      · rintro ⟨_, sort, field, low⟩
        have second : size % 256 = 0x2a := by omega
        have third : size / 256 % 256 = 0x4d := by omega
        exact Or.inr ⟨sort, second, third, low⟩
  | width + 3, _ =>
      simp only [LittleEndian.encode, List.cons_append, seemsToStart_iff, ofNat_eq_iff]
      constructor
      · rintro (⟨_, _, _, fourth⟩ | ⟨_, _, _, fourth⟩)
        · have fourth : size / 256 / 256 % 256 = 0xfd := fourth
          omega
        · have fourth : size / 256 / 256 % 256 = 0x18 := fourth
          omega
      · rintro ⟨other, _⟩
        omega

end

/-- The bytes of the content size behind some of its bytes write a smaller number. -/
theorem drop_encode (count width number : Nat) :
    (LittleEndian.encode width number).drop count =
      LittleEndian.encode (width - count) (number / 256 ^ count) := by
  induction count generalizing width number with
  | zero => simp
  | succ count inductionHypothesis =>
      cases width with
      | zero => simp [LittleEndian.encode]
      | succ width =>
          rw [LittleEndian.encode, List.drop_succ_cons, inductionHypothesis,
            Nat.div_div_eq_div_mul, Nat.pow_succ, Nat.mul_comm, Nat.add_sub_add_right]

/-- What a frame can seem to start with. -/
theorem first_of_seemsToStart
    {first : UInt8}
    {rest : Bytes}
    (seems : seemsToStart (first :: rest) = true) :
    first = 0x28 ∨ first.toNat / 16 = 5 := by
  simp only [seemsToStart, startsFrame, startsSkipped, magic, List.zip_cons_cons, List.all_cons,
    Bool.or_eq_true, Bool.and_eq_true, beq_iff_eq] at seems
  exact seems.imp And.left And.left

namespace PackedFrame

variable {frame : PackedFrame}

/-- The bytes of a frame behind its descriptor. -/
def behindDescriptor (frame : PackedFrame) : Bytes :=
  frame.fields ++ frame.blocks.encode

/-- No frame seems to start in the magic bytes behind the first one, or at the
descriptor. -/
theorem exists_count_of_seemsToStart
    {count : Nat}
    (positive : 0 < count)
    (seems : seemsToStart (frame.encode.drop count) = true) :
    ∃ further, count = 5 + further ∧
      seemsToStart (frame.behindDescriptor.drop further) = true := by
  have descriptor : frame.descriptor ≠ 0x28 ∧ frame.descriptor.toNat / 16 ≠ 5 := by
    have all : ∀ (code : Fin 4) (single : Bool),
        UInt8.ofNat (64 * code + (if single then 32 else 0)) ≠ 0x28 ∧
          (UInt8.ofNat (64 * code + (if single then 32 else 0))).toNat / 16 ≠ 5 := by
      decide
    exact all _ _
  match count, positive with
  | 1, _ => exact absurd (first_of_seemsToStart seems) (by decide)
  | 2, _ => exact absurd (first_of_seemsToStart seems) (by decide)
  | 3, _ => exact absurd (first_of_seemsToStart seems) (by decide)
  | 4, _ =>
      rcases first_of_seemsToStart seems with same | sort
      · exact absurd same descriptor.1
      · exact absurd sort descriptor.2
  | further + 5, _ => exact ⟨further, Nat.add_comm _ _, seems⟩

/-- The number in front of the blocks of a frame. -/
theorem exists_number
    {blocks : Blocks}
    (fit : blocks.Fit greatestBlock) :
    ∃ number more,
      blocks.encode = LittleEndian.encode 3 number ++ more ∧ WritesBlock number ∧
      (number % 256 = 0x18 ↔
        ∃ first rest, blocks = .cons (.plain first) rest ∧ first.length % 32 = 3) := by
  cases blocks with
  | last block =>
      refine ⟨block.headerNumber true, block.body, rfl,
        block.writesBlock (fit block (by simp [Blocks.toList])) true, ?_⟩
      constructor
      · intro low
        simp only [SimpleBlock.headerNumber, Bool.toNat_true] at low
        omega
      · rintro ⟨first, rest, same, _⟩
        cases same
  | cons block rest =>
      refine ⟨block.headerNumber false, block.body ++ rest.encode, List.append_assoc _ _ _,
        block.writesBlock (fit block (by simp [Blocks.toList])) false, ?_⟩
      constructor
      · intro low
        have code := block.sortCode_lt
        simp only [SimpleBlock.headerNumber, Bool.toNat_false] at low
        cases block with
        | plain content =>
            simp only [SimpleBlock.sortCode, SimpleBlock.content] at low
            exact ⟨content, rest, rfl, by omega⟩
        | run byte count =>
            simp only [SimpleBlock.sortCode] at low
            omega
      · rintro ⟨first, others, same, size⟩
        cases same
        simp only [SimpleBlock.headerNumber, Bool.toNat_false, SimpleBlock.sortCode,
          SimpleBlock.content]
        omega

/-- How wide the content size is, if it is there. -/
theorem sizeWidth_cases (written : frame.sizeWidth ≠ 0) :
    frame.sizeWidth = 1 ∨ frame.sizeWidth = 2 ∨ frame.sizeWidth = 4 ∨ frame.sizeWidth = 8 := by
  unfold sizeWidth at *
  split at written <;> simp_all

theorem sizeCode_eq (width : frame.sizeWidth = 2) : frame.sizeCode = 1 := by
  unfold sizeWidth at width
  split at width <;> simp_all

/-- No frame seems to start in the content size of a frame. -/
theorem not_seemsToStart_behind
    {count size number : Nat}
    {more : Bytes}
    (writes : WritesBlock number)
    (small : size ≤ 131072)
    (inside : count < frame.sizeWidth) :
    ¬ seemsToStart ((LittleEndian.encode frame.sizeWidth size ++
      (LittleEndian.encode 3 number ++ more)).drop count) = true := by
  have width := sizeWidth_cases (Nat.ne_of_gt (Nat.zero_lt_of_lt inside))
  rw [List.drop_append_of_le_length (by rw [LittleEndian.length_encode]; omega), drop_encode]
  refine not_seemsToStart_in_size writes (Nat.sub_pos_of_lt inside)
    (Nat.le_trans (Nat.div_le_self _ _) small) fun three => ?_
  obtain ⟨before, rfl⟩ : ∃ before, count = before + 1 := ⟨count - 1, by omega⟩
  rw [Nat.pow_succ, Nat.mul_comm, ← Nat.div_div_eq_div_mul]
  exact Nat.le_trans (Nat.div_le_self _ _) (by omega)

/-- Behind the descriptor, a frame seems to start only at the byte of the window. -/
theorem seemsToStart_behindDescriptor_iff
    {further number : Nat}
    {more : Bytes}
    (encode_eq : frame.blocks.encode = LittleEndian.encode 3 number ++ more)
    (writes : WritesBlock number)
    (written : frame.sizeWidth ≠ 0)
    (small : frame.content.length - frame.sizeBase ≤ 131072)
    (inside : further < frame.fields.length) :
    seemsToStart (frame.behindDescriptor.drop further) = true ↔
      further = 0 ∧ (∃ byte, frame.window = some byte ∧ byte.toNat / 16 = 5) ∧
        frame.sizeWidth = 2 ∧ (frame.content.length - frame.sizeBase) % 65536 = 0x4d2a ∧
          number % 256 = 0x18 := by
  rw [behindDescriptor, encode_eq]
  unfold fields at inside ⊢
  cases window : frame.window with
  | none =>
      rw [window] at inside
      have inside : further < frame.sizeWidth := by simpa using inside
      simpa using @not_seemsToStart_behind frame _ _ _ more writes small inside
  | some byte =>
      rw [window] at inside
      cases further with
      | zero =>
          have start := @seemsToStart_at_window_iff _ _ _ byte more writes
            (Nat.pos_of_ne_zero written) small
          simpa [and_left_comm] using start
      | succ further =>
          have inside : further < frame.sizeWidth := by
            simp at inside
            omega
          simpa using @not_seemsToStart_behind frame _ _ _ more writes small inside

/-- The ambiguous frames: they hold 20010 bytes, name that size by two bytes behind a
window of at least one and less than four MiB, and start with a plain block which is not
the last one. -/
theorem Valid.ambiguous_iff (valid : frame.Valid) :
    frame.Ambiguous ↔
      frame.sizeCode = 1 ∧ frame.content.length = 20010 ∧
        (∃ byte, frame.window = some byte ∧ byte.toNat / 16 = 5) ∧
        ∃ first rest, frame.blocks = .cons (.plain first) rest ∧ first.length % 32 = 3 := by
  obtain ⟨number, more, encode_eq, writes, plain_iff⟩ :=
    exists_number (valid.fit.mono (Nat.min_le_right _ _))
  have header : frame.header.length = 5 + frame.fields.length := frame.length_header
  rw [← plain_iff]
  constructor
  · rintro ⟨written, short, count, positive, inside, found⟩
    obtain ⟨further, rfl, seems⟩ := exists_count_of_seemsToStart positive found
    have small : frame.content.length - frame.sizeBase ≤ 131072 :=
      Nat.le_trans (Nat.sub_le _ _) short
    obtain ⟨_, window, width, field, low⟩ :=
      (seemsToStart_behindDescriptor_iff encode_eq writes written small (by omega)).mp seems
    have code := sizeCode_eq width
    have base : frame.sizeBase = 256 := if_pos code
    have fits := valid.size_lt written
    have counted := valid.sizeBase_le
    rw [width] at fits
    exact ⟨code, by omega, window, low⟩
  · rintro ⟨code, length_eq, window, low⟩
    have width : frame.sizeWidth = 2 := by simp [sizeWidth, code]
    have base : frame.sizeBase = 256 := if_pos code
    have short : frame.content.length ≤ portion := by rw [length_eq]; decide
    have inside : 0 < frame.fields.length := by
      rw [fields, List.length_append, LittleEndian.length_encode]
      omega
    refine ⟨by omega, short, 5, by decide, by omega, ?_⟩
    exact (seemsToStart_behindDescriptor_iff encode_eq writes (by omega) (by omega) inside).mpr
      ⟨rfl, window, width, by omega, low⟩

end PackedFrame

end Zstd
end Stream
end RuntimeLog
