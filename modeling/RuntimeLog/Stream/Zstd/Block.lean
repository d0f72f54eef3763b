import RuntimeLog.Stream.Zstd.Header

/-!
# Blocks of a frame

The content of a frame is cut into blocks.  A block holds its bytes as they are,
or one byte to repeat.  A frame which is there from its first byte to its last
is decoded at once: then neither the window nor the greatest size of a block
matters, only that the content fits into one portion of output.
-/

namespace RuntimeLog
namespace Stream
namespace Zstd

/-- The number of bytes of a portion of output. -/
def portion : Nat := 128 * 1024

/-- How a block holds its content. -/
inductive BlockSort where
  /-- As it is. -/
  | plain
  /-- As one byte and the number of its repetitions. -/
  | run
  /-- Entropy coded, which is not supported. -/
  | coded
  | reserved
deriving DecidableEq, Repr

/-- What stands in front of a block. -/
structure BlockHeader where
  last : Bool
  sort : BlockSort
  /-- The number of bytes of the block, or of repetitions. -/
  size : Nat
deriving DecidableEq, Repr

namespace BlockHeader

/-- The number of bytes of a block header. -/
def width : Nat := 3

/-- The parts of a block header: a bit for the last block, two bits for the sort
of the block, and its size. -/
def ofNat (number : Nat) : BlockHeader :=
  { last := number % 2 == 1
    sort :=
      match number / 2 % 4 with
      | 0 => .plain
      | 1 => .run
      | 2 => .coded
      | _ => .reserved
    size := number / 8 }

/-- The number of bytes of the block behind its header. -/
def bodyWidth (header : BlockHeader) : Nat :=
  match header.sort with
  | .run => 1
  | _ => header.size

end BlockHeader

/-- A block of a frame. -/
inductive Block where
  | plain (content : Bytes)
  | run (byte : UInt8) (count : Nat)
  | coded
deriving DecidableEq, Repr

/-- The content of a block which may be `room` bytes long. -/
def Block.expand (room : Nat) : Block → Except Problem Bytes
  | plain content => if room < content.length then .error .destinationTooSmall else .ok content
  | run byte count =>
      if room < count then .error .destinationTooSmall else .ok (List.replicate count byte)
  | coded => .error .corruptedData

/-- The content of some blocks which may be `room` bytes long together. -/
def expandBlocks (room : Nat) : List Block → Except Problem Bytes
  | [] => .ok []
  | block :: rest => do
      let content ← block.expand room
      return content ++ (← expandBlocks (room - content.length) rest)

/-- The block at the start of some bytes, if it is wholly there. -/
def BlockHeader.block? (header : BlockHeader) (bytes : Bytes) : Option Block :=
  match header.sort, bytes with
  | .plain, _ => (Bytes.splitExactly header.size bytes).map fun parts => .plain parts.1
  | .run, byte :: _ => some (.run byte header.size)
  | .run, [] => none
  | .coded, _ => if Bytes.hasAtLeast header.size bytes then some .coded else none
  | .reserved, _ => none

/-- The blocks up to the last one and the number of their bytes, if they are
wholly there. -/
def blocks? : Bytes → Option (List Block × Nat)
  | first :: second :: third :: rest => do
      let header := BlockHeader.ofNat (LittleEndian.decode [first, second, third])
      let block ← header.block? rest
      let size := BlockHeader.width + header.bodyWidth
      if header.last then return ([block], size)
      let (blocks, further) ← blocks? (rest.drop header.bodyWidth)
      return (block :: blocks, size + further)
  | _ => none
termination_by bytes => bytes.length

/-- The number of bytes of a checksum. -/
def checksumWidth : Nat := 4

/-- The content of a whole frame. -/
def Header.expand (header : Header) (blocks : List Block) : Except Problem Bytes := do
  if header.dictionary != 0 then throw .wrongDictionary
  let content ← expandBlocks portion blocks
  if header.contentSize.any (· != content.length) then throw .corruptedData
  return content

/-- A frame which is wholly there. -/
structure WholeFrame where
  content : Except Problem Bytes
  /-- The number of bytes of the frame. -/
  size : Nat

/-- The frame at the start of some bytes, if it is wholly there. -/
def wholeFrame? (bytes : Bytes) : Option WholeFrame :=
  match inspect bytes with
  | .ok (some (.frame header)) => do
      let (blocks, blocksSize) ← blocks? (bytes.drop header.width)
      let size := header.width + blocksSize + (if header.checksum then checksumWidth else 0)
      if Bytes.hasAtLeast size bytes then return { content := header.expand blocks, size }
      none
  | .ok (some (.skipped length)) =>
      let size := skippedHeaderWidth + length
      if Bytes.hasAtLeast size bytes then some { content := .ok [], size } else none
  | _ => none

end Zstd
end Stream
end RuntimeLog
