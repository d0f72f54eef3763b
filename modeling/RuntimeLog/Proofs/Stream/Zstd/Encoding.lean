import RuntimeLog.Proofs.Reading.Exactness
import RuntimeLog.Proofs.Stream.Buffering
import RuntimeLog.Stream.Zstd.Memory

/-!
# Encodings

A content can be written as frames of simple blocks, which hold their bytes as they
are or one byte to repeat, with frames to skip anywhere between them.  The headers
of frames and blocks are read back as they were written, as soon as they are there.
-/

namespace RuntimeLog
namespace Stream
namespace Zstd

/-- A start of two strings one behind the other ends in the first one, or is the
first one and a start of the second one. -/
theorem prefix_append_cases
    {bytes first second : Bytes}
    (starts : bytes <+: first ++ second) :
    bytes.length < first.length ∧ bytes <+: first ∨
      ∃ rest, bytes = first ++ rest ∧ rest <+: second := by
  by_cases short : bytes.length < first.length
  · exact Or.inl ⟨short,
      List.prefix_of_prefix_length_le starts (List.prefix_append _ _) (Nat.le_of_lt short)⟩
  · obtain ⟨rest, rfl⟩ :=
      List.prefix_of_prefix_length_le (List.prefix_append _ _) starts (Nat.le_of_not_lt short)
    exact Or.inr ⟨rest, rfl, (List.prefix_append_right_inj first).mp starts⟩

/-! ## Blocks -/

/-- A block which is not entropy coded. -/
inductive SimpleBlock where
  | plain (content : Bytes)
  | run (byte : UInt8) (count : Nat)
deriving DecidableEq, Repr

namespace SimpleBlock

/-- The block as a decoder tells it. -/
def toBlock : SimpleBlock → Block
  | plain content => .plain content
  | run byte count => .run byte count

/-- The bytes which a block denotes. -/
def content : SimpleBlock → Bytes
  | plain content => content
  | run byte count => List.replicate count byte

/-- The bytes of a block behind its header. -/
def body : SimpleBlock → Bytes
  | plain content => content
  | run byte _ => [byte]

/-- The number which denotes the sort of a block. -/
def sortCode : SimpleBlock → Nat
  | plain _ => 0
  | run _ _ => 1

theorem sortCode_lt (block : SimpleBlock) : block.sortCode < 2 := by
  cases block <;> simp [sortCode]

/-- The number which the header of a block writes. -/
def headerNumber (block : SimpleBlock) (last : Bool) : Nat :=
  last.toNat + 2 * block.sortCode + 8 * block.content.length

/-- The bytes of a block. -/
def encode (block : SimpleBlock) (last : Bool) : Bytes :=
  LittleEndian.encode 3 (block.headerNumber last) ++ block.body

/-- A block which neither takes up nor denotes more than some number of bytes. -/
structure Fits (block : SimpleBlock) (limit : Nat) : Prop where
  content_le : block.content.length ≤ limit
  body_le : block.body.length ≤ limit

instance (block : SimpleBlock) (limit : Nat) : Decidable (block.Fits limit) :=
  decidable_of_iff (block.content.length ≤ limit ∧ block.body.length ≤ limit)
    ⟨fun fits => ⟨fits.1, fits.2⟩, fun fits => ⟨fits.content_le, fits.body_le⟩⟩

theorem Fits.mono
    {block : SimpleBlock}
    {limit wider : Nat}
    (fits : block.Fits limit)
    (le : limit ≤ wider) :
    block.Fits wider where
  content_le := Nat.le_trans fits.content_le le
  body_le := Nat.le_trans fits.body_le le

/-- What a decoder reads in front of a block. -/
def header (block : SimpleBlock) (last : Bool) : BlockHeader :=
  { last
    sort :=
      match block with
      | plain _ => .plain
      | run _ _ => .run
    size := block.content.length }

theorem bodyWidth_header (block : SimpleBlock) (last : Bool) :
    (block.header last).bodyWidth = block.body.length := by
  cases block <;> rfl

/-- A block header is read back as it was written. -/
theorem ofNat_headerNumber (block : SimpleBlock) (last : Bool) :
    BlockHeader.ofNat (block.headerNumber last) = block.header last := by
  have low : last.toNat < 2 := by cases last <;> decide
  have flag : (last.toNat == 1) = last := by cases last <;> rfl
  have code := block.sortCode_lt
  have first : block.headerNumber last % 2 = last.toNat := by
    unfold headerNumber
    omega
  have second : block.headerNumber last / 2 % 4 = block.sortCode := by
    unfold headerNumber
    omega
  have third : block.headerNumber last / 8 = block.content.length := by
    unfold headerNumber
    omega
  unfold BlockHeader.ofNat header
  rw [first, second, third, flag]
  cases block <;> rfl

/-- So it is from its bytes, if the block is not too large. -/
theorem ofNat_decode_encode
    {block : SimpleBlock}
    (fits : block.Fits greatestBlock)
    (last : Bool) :
    BlockHeader.ofNat (LittleEndian.decode (LittleEndian.encode 3 (block.headerNumber last))) =
      block.header last := by
  have bound : block.content.length ≤ 131072 := fits.content_le
  have code := block.sortCode_lt
  have low : last.toNat < 2 := by cases last <;> decide
  have small : block.headerNumber last < 256 ^ 3 := by
    unfold headerNumber
    omega
  rw [LittleEndian.decode_encode, Nat.mod_eq_of_lt small, ofNat_headerNumber]

/-- A block is found behind its header as soon as it is wholly there. -/
theorem block?_header
    {block : SimpleBlock}
    {bytes more : Bytes}
    (starts : bytes <+: block.body ++ more)
    (last : Bool) :
    (block.header last).block? bytes =
      if block.body.length ≤ bytes.length then some block.toBlock else none := by
  rcases prefix_append_cases starts with ⟨short, _⟩ | ⟨rest, rfl, _⟩
  · rw [if_neg (Nat.not_le_of_lt short)]
    cases block with
    | plain content =>
        have missing : ¬ content.length ≤ bytes.length := Nat.not_le_of_lt short
        simp [BlockHeader.block?, header, SimpleBlock.content, Bytes.splitExactly_eq, missing]
    | run byte count =>
        have nothing : bytes = [] := List.length_eq_zero_iff.mp (Nat.lt_one_iff.mp short)
        rw [nothing]
        rfl
  · rw [if_pos (by simp)]
    cases block with
    | plain content =>
        simp [BlockHeader.block?, header, SimpleBlock.content, body, toBlock]
    | run byte count =>
        simp [BlockHeader.block?, header, SimpleBlock.content, body, toBlock]

end SimpleBlock

/-- The blocks of a frame, of which the last one is marked. -/
inductive Blocks where
  | last (block : SimpleBlock)
  | cons (block : SimpleBlock) (rest : Blocks)
deriving DecidableEq, Repr

namespace Blocks

/-- The blocks in order. -/
def toList : Blocks → List SimpleBlock
  | last block => [block]
  | cons block rest => block :: rest.toList

/-- The bytes which some blocks denote. -/
def content : Blocks → Bytes
  | last block => block.content
  | cons block rest => block.content ++ rest.content

/-- The bytes of some blocks. -/
def encode : Blocks → Bytes
  | last block => block.encode true
  | cons block rest => block.encode false ++ rest.encode

/-- There is a block, which has a header. -/
theorem three_le_length_encode (blocks : Blocks) : 3 ≤ blocks.encode.length := by
  cases blocks <;> simp [encode, SimpleBlock.encode]

/-- Blocks none of which takes up or denotes more than some number of bytes. -/
def Fit (blocks : Blocks) (limit : Nat) : Prop :=
  ∀ block ∈ blocks.toList, block.Fits limit

instance (blocks : Blocks) (limit : Nat) : Decidable (blocks.Fit limit) :=
  inferInstanceAs (Decidable (∀ block ∈ blocks.toList, block.Fits limit))

theorem Fit.mono
    {blocks : Blocks}
    {limit wider : Nat}
    (fit : blocks.Fit limit)
    (le : limit ≤ wider) :
    blocks.Fit wider := fun block member => (fit block member).mono le

/-- The blocks of a frame denote its content, if there is room for it. -/
theorem expandBlocks_toList
    {blocks : Blocks}
    {room : Nat}
    (fits : blocks.content.length ≤ room) :
    expandBlocks room (blocks.toList.map SimpleBlock.toBlock) = .ok blocks.content := by
  have expand_eq {block : SimpleBlock} {room : Nat} (fits : block.content.length ≤ room) :
      block.toBlock.expand room = .ok block.content := by
    cases block with
    | plain content => exact if_neg (Nat.not_lt_of_le fits)
    | run byte count =>
        rw [SimpleBlock.content, List.length_replicate] at fits
        exact if_neg (Nat.not_lt_of_le fits)
  induction blocks generalizing room with
  | last block =>
      simp only [toList, List.map_cons, List.map_nil, expandBlocks, expand_eq fits]
      exact congrArg Except.ok (List.append_nil _)
  | cons block rest inductionHypothesis =>
      rw [content, List.length_append] at fits
      have here : block.content.length ≤ room := by omega
      have later : rest.content.length ≤ room - block.content.length := by omega
      simp only [toList, List.map_cons, expandBlocks, expand_eq here, bind, Except.bind,
        inductionHypothesis later]
      rfl

/-- The first block is found as soon as it is wholly there, and the others are looked
for behind it. -/
theorem blocks?_of_block
    {block : SimpleBlock}
    {last : Bool}
    {bytes more : Bytes}
    (fits : block.Fits greatestBlock)
    (starts : bytes <+: block.encode last ++ more) :
    blocks? bytes =
      if (block.encode last).length ≤ bytes.length then
        if last then some ([block.toBlock], (block.encode last).length)
        else
          (blocks? (bytes.drop (block.encode last).length)).map fun found =>
            (block.toBlock :: found.1, (block.encode last).length + found.2)
      else none := by
  have width : (block.encode last).length = 3 + block.body.length := by
    simp [SimpleBlock.encode]
  rw [SimpleBlock.encode, List.append_assoc] at starts
  rcases prefix_append_cases starts with ⟨short, _⟩ | ⟨rest, rfl, behind⟩
  · rw [LittleEndian.length_encode] at short
    rw [if_neg (by omega)]
    match bytes with
    | [] => rw [blocks?]; simp
    | [_] => rw [blocks?]; simp
    | [_, _] => rw [blocks?]; simp
    | _ :: _ :: _ :: _ => simp at short; omega
  · have found := SimpleBlock.block?_header behind last
    have number := SimpleBlock.ofNat_decode_encode fits last
    rw [width]
    simp only [LittleEndian.encode, List.cons_append, List.nil_append] at number ⊢
    rw [blocks?]
    simp only [number, found, SimpleBlock.bodyWidth_header]
    have enough (first second third : UInt8) :
        3 + block.body.length ≤ (first :: second :: third :: rest).length ↔
          block.body.length ≤ rest.length := by
      simp only [List.length_cons]
      omega
    have dropped (first second third : UInt8) :
        (first :: second :: third :: rest).drop (3 + block.body.length) =
          rest.drop block.body.length := by
      rw [Nat.add_comm]
      rfl
    simp only [enough, dropped]
    by_cases whole : block.body.length ≤ rest.length
    · simp only [if_pos whole, SimpleBlock.header]
      cases last with
      | true => rfl
      | false => cases blocks? (rest.drop block.body.length) <;> rfl
    · simp only [if_neg whole]
      rfl

/-- Blocks are found as soon as all of them are wholly there. -/
theorem blocks?_of_prefix
    {blocks : Blocks}
    {bytes more : Bytes}
    (fit : blocks.Fit greatestBlock)
    (starts : bytes <+: blocks.encode ++ more) :
    blocks? bytes =
      if blocks.encode.length ≤ bytes.length then
        some (blocks.toList.map SimpleBlock.toBlock, blocks.encode.length)
      else none := by
  induction blocks generalizing bytes with
  | last block =>
      rw [blocks?_of_block (fit block (by simp [toList])) starts]
      rfl
  | cons block rest inductionHypothesis =>
      have later : rest.Fit greatestBlock := fun block member =>
        fit block (List.mem_cons_of_mem _ member)
      rw [encode, List.append_assoc] at starts
      rw [blocks?_of_block (fit block (by simp [toList])) starts, encode, List.length_append]
      rcases prefix_append_cases starts with ⟨short, _⟩ | ⟨left, rfl, behind⟩
      · rw [if_neg (by omega), if_neg (by omega)]
      · rw [List.drop_left, inductionHypothesis later behind, if_pos (by simp)]
        simp only [List.length_append, Nat.add_le_add_iff_left, Bool.false_eq_true, if_false]
        split <;> simp [toList]

end Blocks

/-! ## Frame headers -/

/-- A frame of simple blocks, without a checksum and without a dictionary. -/
structure PackedFrame where
  /-- The byte which denotes the window, or none if the window is the content. -/
  window : Option UInt8
  /-- The number which denotes how wide the content size is. -/
  sizeCode : Fin 4
  blocks : Blocks
deriving DecidableEq, Repr

namespace PackedFrame

/-- The bytes which a frame denotes. -/
def content (frame : PackedFrame) : Bytes :=
  frame.blocks.content

/-- The window of a frame. -/
def windowSize (frame : PackedFrame) : Nat :=
  frame.window.elim frame.content.length Zstd.windowSize

/-- The most bytes which a block of a frame holds. -/
def blockLimit (frame : PackedFrame) : Nat :=
  min frame.windowSize greatestBlock

/-- The number of bytes of the content size. -/
def sizeWidth (frame : PackedFrame) : Nat :=
  match frame.sizeCode, frame.window with
  | 0, none => 1
  | 0, some _ => 0
  | 1, _ => 2
  | 2, _ => 4
  | 3, _ => 8

/-- The number which the shorter of the wide content sizes is counted from. -/
def sizeBase (frame : PackedFrame) : Nat :=
  if frame.sizeCode = 1 then 256 else 0

/-- The byte behind the magic bytes. -/
def descriptor (frame : PackedFrame) : UInt8 :=
  UInt8.ofNat (64 * frame.sizeCode + (if frame.window.isNone then 32 else 0))

/-- The bytes of the window and of the content size. -/
def fields (frame : PackedFrame) : Bytes :=
  frame.window.toList ++
    LittleEndian.encode frame.sizeWidth (frame.content.length - frame.sizeBase)

/-- The bytes in front of the blocks. -/
def header (frame : PackedFrame) : Bytes :=
  magic ++ frame.descriptor :: frame.fields

/-- The bytes of a frame. -/
def encode (frame : PackedFrame) : Bytes :=
  frame.header ++ frame.blocks.encode

/-- A frame as the format has it: the size of its content can be written, unless it
is left out, and no block is larger than the window and a block may be. -/
structure Valid (frame : PackedFrame) : Prop where
  sizeBase_le : frame.sizeBase ≤ frame.content.length
  size_lt : frame.sizeWidth ≠ 0 →
    frame.content.length < 256 ^ frame.sizeWidth + frame.sizeBase
  fit : frame.blocks.Fit frame.blockLimit

instance (frame : PackedFrame) : Decidable frame.Valid :=
  decidable_of_iff
    (frame.sizeBase ≤ frame.content.length ∧
      (frame.sizeWidth ≠ 0 → frame.content.length < 256 ^ frame.sizeWidth + frame.sizeBase) ∧
      frame.blocks.Fit frame.blockLimit)
    ⟨fun valid => ⟨valid.1, valid.2.1, valid.2.2⟩,
      fun valid => ⟨valid.sizeBase_le, valid.size_lt, valid.fit⟩⟩

/-- What a decoder reads in the header of a frame. -/
def parsed (frame : PackedFrame) : Header :=
  { width := frame.header.length
    contentSize :=
      if frame.sizeWidth = 0 ∨ frame.content.length + 1 = UInt64.size then none
      else some frame.content.length
    window := frame.windowSize
    dictionary := 0
    checksum := false }

theorem ofByte_descriptor (frame : PackedFrame) :
    Descriptor.ofByte frame.descriptor =
      { contentSizeCode := frame.sizeCode
        single := frame.window.isNone
        reserved := false
        checksum := false
        dictionaryCode := 0 } := by
  have all : ∀ (code : Fin 4) (single : Bool),
      Descriptor.ofByte (UInt8.ofNat (64 * code + (if single then 32 else 0))) =
        { contentSizeCode := code
          single
          reserved := false
          checksum := false
          dictionaryCode := 0 } := by
    decide
  exact all _ _

theorem contentSizeWidth_eq (frame : PackedFrame) :
    contentSizeWidth frame.sizeCode frame.window.isNone = frame.sizeWidth := by
  obtain ⟨window, code, blocks⟩ := frame
  have codes : code = 0 ∨ code = 1 ∨ code = 2 ∨ code = 3 := by omega
  rcases codes with rfl | rfl | rfl | rfl <;> cases window <;> rfl

theorem fieldsWidth_descriptor (frame : PackedFrame) :
    (Descriptor.ofByte frame.descriptor).fieldsWidth = frame.fields.length := by
  rw [ofByte_descriptor, Descriptor.fieldsWidth, contentSizeWidth_eq, fields, List.length_append,
    LittleEndian.length_encode]
  cases frame.window <;> rfl

variable {frame : PackedFrame}

/-- A window which is not too wide is denoted by a byte below all limits. -/
theorem lt_leastWindowBeyondLimits
    {byte : UInt8}
    (narrow : Zstd.windowSize byte ≤ greatestWindow) :
    byte < leastWindowBeyondLimits := by
  apply UInt8.not_le.mp
  intro beyond
  have exponent : 22 ≤ byte.toNat / 8 := by
    have : 176 ≤ byte.toNat := UInt8.le_iff_toNat_le.mp beyond
    omega
  have wide : 1024 * 2 ^ 22 ≤ 1024 <<< (byte.toNat / 8) := by
    rw [Nat.shiftLeft_eq]
    exact Nat.mul_le_mul_left 1024 (Nat.pow_le_pow_right (by decide) exponent)
  have bounded : 1024 <<< (byte.toNat / 8) ≤ 128 * 1024 * 1024 + 1 :=
    Nat.le_trans (Nat.le_add_right _ _) narrow
  omega

/-- The content size is read back as it was written. -/
theorem sizeOfField_eq (valid : frame.Valid) (written : frame.sizeWidth ≠ 0) :
    (Descriptor.ofByte frame.descriptor).sizeOfField
        (LittleEndian.encode frame.sizeWidth (frame.content.length - frame.sizeBase)) =
      frame.content.length := by
  have base : (if (frame.sizeCode : Nat) == 1 then 256 else 0) = frame.sizeBase := by
    unfold sizeBase
    obtain ⟨window, code, blocks⟩ := frame
    have codes : code = 0 ∨ code = 1 ∨ code = 2 ∨ code = 3 := by omega
    rcases codes with rfl | rfl | rfl | rfl <;> rfl
  have counted := valid.sizeBase_le
  have fits := valid.size_lt written
  rw [Descriptor.sizeOfField, ofByte_descriptor, LittleEndian.decode_encode, base,
    Nat.mod_eq_of_lt (by omega)]
  omega

theorem length_header (frame : PackedFrame) :
    frame.header.length = magic.length + 1 + frame.fields.length := by
  simp only [header, List.length_append, List.length_cons]
  omega

theorem sizeWidth_ne_zero (single : frame.window = none) : frame.sizeWidth ≠ 0 := by
  unfold sizeWidth
  split <;> simp_all

/-- The fields behind the descriptor are read back as they were written. -/
theorem header_fields
    (valid : frame.Valid)
    (narrow : frame.windowSize ≤ greatestWindow) :
    (Descriptor.ofByte frame.descriptor).header frame.fields = .ok frame.parsed := by
  have width : magic.length + 1 + (Descriptor.ofByte frame.descriptor).fieldsWidth =
      frame.header.length := by
    rw [fieldsWidth_descriptor, length_header]
  have size_eq := @sizeOfField_eq frame valid
  rw [Descriptor.header, width]
  rw [ofByte_descriptor] at size_eq ⊢
  unfold parsed fields
  generalize frame.header.length = width
  cases window : frame.window with
  | none =>
      have written := sizeWidth_ne_zero window
      have sizeWidth_eq : contentSizeWidth frame.sizeCode true = frame.sizeWidth := by
        simpa [window] using frame.contentSizeWidth_eq
      replace size_eq := size_eq written
      simp only [window, Option.isNone_none] at size_eq
      simp [windowSize, window, Descriptor.windowWidth, dictionaryWidth, LittleEndian.decode,
        sizeWidth_eq, written, size_eq]
  | some byte =>
      have below : ¬ leastWindowBeyondLimits ≤ byte := by
        apply UInt8.not_le.mpr
        apply lt_leastWindowBeyondLimits
        simpa [windowSize, window] using narrow
      have sizeWidth_eq : contentSizeWidth frame.sizeCode false = frame.sizeWidth := by
        simpa [window] using frame.contentSizeWidth_eq
      simp only [window, Option.isNone_some] at size_eq
      by_cases written : frame.sizeWidth = 0
      · simp [windowSize, window, Descriptor.windowWidth, dictionaryWidth, LittleEndian.decode,
          sizeWidth_eq, below, written]
      · simp [windowSize, window, Descriptor.windowWidth, dictionaryWidth, LittleEndian.decode,
          sizeWidth_eq, below, written, size_eq]

/-- A frame header is read back as soon as it is there. -/
theorem inspect_of_prefix
    {bytes more : Bytes}
    (valid : frame.Valid)
    (narrow : frame.windowSize ≤ greatestWindow)
    (starts : bytes <+: frame.header ++ more) :
    inspect bytes =
      if frame.header.length ≤ bytes.length then .ok (some (.frame frame.parsed))
      else .ok none := by
  have magical : startsFrame bytes = true :=
    zip_all_of_prefix starts ((List.prefix_append _ _).trans (List.prefix_append _ _))
  rw [inspect, if_pos magical, length_header]
  rw [header, List.append_assoc] at starts
  rcases prefix_append_cases starts with ⟨short, _⟩ | ⟨rest, rfl, behind⟩
  · rw [List.drop_of_length_le (Nat.le_of_lt short), if_neg (by omega)]
  · rw [List.drop_left, List.length_append]
    cases rest with
    | nil => rw [if_neg (by rw [List.length_nil]; omega)]
    | cons byte rest =>
        rw [List.cons_append, List.cons_prefix_cons] at behind
        obtain ⟨rfl, behind⟩ := behind
        simp only [Bytes.splitExactly_eq, fieldsWidth_descriptor, List.length_cons]
        rcases prefix_append_cases behind with ⟨short, _⟩ | ⟨rest, rfl, _⟩
        · rw [if_neg (by omega), if_neg (by omega)]
        · rw [if_pos (by simp), if_pos (by simp; omega), List.take_left]
          simp only [header_fields valid narrow]
          rfl

/-- The blocks of a frame which is no longer than a portion denote its content. -/
theorem expand_parsed (short : frame.content.length ≤ portion) :
    frame.parsed.expand (frame.blocks.toList.map SimpleBlock.toBlock) = .ok frame.content := by
  have right : (frame.parsed.contentSize.any (· != frame.blocks.content.length)) = false := by
    simp only [parsed]
    split <;> simp [content]
  simp only [Header.expand, Blocks.expandBlocks_toList short, bind, Except.bind, right]
  rfl

/-- A frame which is there from its first byte to its last is found, if its content is
no longer than a portion. -/
theorem wholeFrame?_of_prefix
    {bytes more : Bytes}
    (valid : frame.Valid)
    (narrow : frame.windowSize ≤ greatestWindow)
    (short : frame.content.length ≤ portion)
    (starts : bytes <+: frame.encode ++ more) :
    wholeFrame? bytes =
      if frame.encode.length ≤ bytes.length then
        some { content := .ok frame.content, size := frame.encode.length }
      else none := by
  rw [encode, List.append_assoc] at starts
  rw [wholeFrame?, inspect_of_prefix valid narrow starts, encode, List.length_append]
  rcases prefix_append_cases starts with ⟨cut, _⟩ | ⟨rest, rfl, behind⟩
  · rw [if_neg (by omega), if_neg (by omega)]
  · have fit : frame.blocks.Fit greatestBlock := valid.fit.mono (Nat.min_le_right _ _)
    have dropped : (frame.header ++ rest).drop frame.parsed.width = rest := List.drop_left
    rw [if_pos (by simp)]
    simp only [dropped, Blocks.blocks?_of_prefix fit behind, List.length_append,
      Nat.add_le_add_iff_left]
    by_cases whole : frame.blocks.encode.length ≤ rest.length
    · have size_eq : frame.parsed.width + frame.blocks.encode.length +
          (if frame.parsed.checksum then checksumWidth else 0) =
            frame.header.length + frame.blocks.encode.length := rfl
      have enough : Bytes.hasAtLeast (frame.header.length + frame.blocks.encode.length)
          (frame.header ++ rest) = true := by
        rw [Bytes.hasAtLeast_iff, List.length_append]
        omega
      simp only [if_pos whole, bind, Option.bind, size_eq, if_pos enough, expand_parsed short]
      rfl
    · simp only [if_neg whole]
      rfl

end PackedFrame

/-! ## Streams -/

/-- A frame of a stream, with a content or to be skipped. -/
inductive Item where
  | frame (packed : PackedFrame)
  | skipped (number : Fin 16) (payload : Bytes)
deriving DecidableEq, Repr

namespace Item

/-- The bytes in front of what is skipped. -/
def skippedHeader (number : Fin 16) (length : Nat) : Bytes :=
  UInt8.ofNat (0x50 + number) :: [0x2a, 0x4d, 0x18] ++ LittleEndian.encode 4 length

/-- The bytes of a frame. -/
def encode : Item → Bytes
  | frame packed => packed.encode
  | skipped number payload => skippedHeader number payload.length ++ payload

/-- The bytes which a frame denotes. -/
def content : Item → Bytes
  | frame packed => packed.content
  | skipped _ _ => []

/-- A frame as the format has it. -/
def Valid : Item → Prop
  | frame packed => packed.Valid
  | skipped _ payload => payload.length < 256 ^ 4

instance (item : Item) : Decidable item.Valid :=
  match item with
  | frame packed => inferInstanceAs (Decidable packed.Valid)
  | skipped _ payload => inferInstanceAs (Decidable (payload.length < 256 ^ 4))

theorem length_skippedHeader (number : Fin 16) (length : Nat) :
    (skippedHeader number length).length = skippedHeaderWidth := by
  simp [skippedHeader, skippedHeaderWidth]

/-- The header of a frame to skip is read back as soon as it is there. -/
theorem inspect_of_skippedHeader
    {number : Fin 16}
    {length : Nat}
    {bytes more : Bytes}
    (fits : length < 256 ^ 4)
    (starts : bytes <+: skippedHeader number length ++ more) :
    inspect bytes =
      if skippedHeaderWidth ≤ bytes.length then .ok (some (.skipped length)) else .ok none := by
  cases bytes with
  | nil => rfl
  | cons byte rest =>
      have behind := starts
      rw [skippedHeader, List.cons_append, List.cons_append, List.cons_prefix_cons] at behind
      obtain ⟨same, behind⟩ := behind
      have first : ∀ number : Fin 16, UInt8.ofNat (0x50 + number) ≠ 0x28 ∧
          (UInt8.ofNat (0x50 + number)).toNat / 16 = 5 := by
        decide
      obtain ⟨other, sort⟩ := first number
      rw [← same] at other sort
      have foreign : ¬ startsFrame (byte :: rest) = true := by
        simp [startsFrame, magic, other]
      have known : startsSkipped (byte :: rest) = true := by
        have agree := zip_all_of_prefix behind
          ((List.prefix_append [0x2a, 0x4d, 0x18] _).trans (List.prefix_append _ more))
        simp only [startsSkipped, sort, agree, beq_self_eq_true, Bool.and_self]
      rw [inspect, if_neg foreign, if_pos known, Bytes.splitExactly_eq]
      rcases prefix_append_cases starts with ⟨short, _⟩ | ⟨left, whole, _⟩
      · rw [length_skippedHeader] at short
        rw [if_neg (Nat.not_le_of_lt short), if_neg (Nat.not_le_of_lt short)]
      · have number_eq : LittleEndian.decode (((byte :: rest).take 8).drop 4) = length := by
          have eight : 8 = (skippedHeader number length).length :=
            (length_skippedHeader number length).symm
          rw [whole, eight, List.take_left]
          change LittleEndian.decode (LittleEndian.encode 4 length) = length
          rw [LittleEndian.decode_encode, Nat.mod_eq_of_lt fits]
        have enough : skippedHeaderWidth ≤ (byte :: rest).length := by
          rw [whole, List.length_append, length_skippedHeader]
          omega
        rw [if_pos enough, if_pos enough]
        exact congrArg (fun length => Except.ok (some (Opening.skipped length))) number_eq

end Item

end Zstd
end Stream
end RuntimeLog
