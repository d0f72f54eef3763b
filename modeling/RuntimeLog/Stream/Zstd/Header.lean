import RuntimeLog.Stream.Decompressor

/-!
# Frame headers

A Zstandard stream is a sequence of frames.  The header of a frame names the
size of its content, if that is known, and the window of content which a decoder
has to remember.  Frames of another sort carry no content and are skipped.
-/

namespace RuntimeLog
namespace Stream
namespace Zstd

/-- What can be wrong with a compressed stream. -/
inductive Problem where
  /-- The bytes start no frame. -/
  | unknownFrame
  /-- A reserved bit of a header is set. -/
  | unsupportedParameter
  | corruptedData
  | windowTooLarge
  | wrongDictionary
  /-- A block needs more room than there is for its content. -/
  | destinationTooSmall
  /-- The frame has a format which is known but not read. -/
  | unsupportedVersion
  /-- A sort of block which a format names but does not read. -/
  | unsupportedBlock
deriving DecidableEq, Repr

/-- The text of a problem. -/
def Problem.message : Problem → String
  | unknownFrame => "Unknown frame descriptor"
  | unsupportedParameter => "Unsupported frame parameter"
  | corruptedData => "Data corruption detected"
  | windowTooLarge => "Frame requires too much memory for decoding"
  | wrongDictionary => "Dictionary mismatch"
  | destinationTooSmall => "Destination buffer is too small"
  | unsupportedVersion => "Version not supported"
  | unsupportedBlock => "Error (generic)"

/-- What the header of a frame says. -/
structure Header where
  /-- The number of bytes of the header. -/
  width : Nat
  /-- The number of bytes which the frame holds, if that is known. -/
  contentSize : Option Nat
  /-- The number of bytes of content which later blocks may refer to. -/
  window : Nat
  /-- The number of the dictionary, or zero if there is none. -/
  dictionary : Nat
  /-- Whether a checksum follows the last block. -/
  checksum : Bool
deriving DecidableEq, Repr

/-- What some bytes of a stream open. -/
inductive Opening where
  | frame (header : Header)
  /-- A frame of `length` bytes to skip behind its header. -/
  | skipped (length : Nat)
deriving DecidableEq, Repr

/-- The most bytes which a block holds. -/
def greatestBlock : Nat := 128 * 1024

/-- The most bytes which a block of a frame holds. -/
def Header.blockLimit (header : Header) : Nat :=
  min header.window greatestBlock

/-- The number of bytes of the header of a frame to skip. -/
def skippedHeaderWidth : Nat := 8

/-- The number of bytes of an opening. -/
def Opening.width : Opening → Nat
  | frame header => header.width
  | skipped _ => skippedHeaderWidth

/-- Whether some bytes can be the start of a frame. -/
def startsFrame (bytes : Bytes) : Bool :=
  (bytes.zip magic).all fun pair => pair.1 == pair.2

/-- Whether some bytes can be the start of a frame to skip. -/
def startsSkipped : Bytes → Bool
  | [] => true
  | first :: rest =>
      first.toNat / 16 == 5 && (rest.zip [0x2a, 0x4d, 0x18]).all fun pair => pair.1 == pair.2

/-- The number of bytes of a content size, by its code and whether the frame is
a single segment. -/
def contentSizeWidth (code : Nat) (single : Bool) : Nat :=
  if code == 0 then (if single then 1 else 0) else 1 <<< code

/-- The number of bytes of a dictionary number, by its code. -/
def dictionaryWidth (code : Nat) : Nat :=
  if code == 0 then 0 else 1 <<< (code - 1)

/-- The window size which a byte of the header denotes. -/
def windowSize (byte : UInt8) : Nat :=
  let base := 1024 <<< (byte.toNat / 8)
  base + base / 8 * (byte.toNat % 8)

/-- The first byte of a header which denotes a window beyond every limit. -/
def leastWindowBeyondLimits : UInt8 := 0xb0

/-- The parts of the byte behind the magic bytes. -/
structure Descriptor where
  contentSizeCode : Nat
  /-- Whether the window is the whole content. -/
  single : Bool
  reserved : Bool
  checksum : Bool
  dictionaryCode : Nat
deriving DecidableEq, Repr

namespace Descriptor

/-- The parts of a descriptor byte, from its highest bits to its lowest ones. -/
def ofByte (byte : UInt8) : Descriptor :=
  { contentSizeCode := byte.toNat / 64
    single := byte.toNat / 32 % 2 == 1
    reserved := byte.toNat / 8 % 2 == 1
    checksum := byte.toNat / 4 % 2 == 1
    dictionaryCode := byte.toNat % 4 }

/-- The number of bytes which name the window. -/
def windowWidth (descriptor : Descriptor) : Nat :=
  if descriptor.single then 0 else 1

/-- The number of bytes of the header behind the descriptor: the window, the
number of the dictionary and the content size. -/
def fieldsWidth (descriptor : Descriptor) : Nat :=
  descriptor.windowWidth + dictionaryWidth descriptor.dictionaryCode +
    contentSizeWidth descriptor.contentSizeCode descriptor.single

/-- The number which the bytes of a content size denote. -/
def sizeOfField (descriptor : Descriptor) (field : Bytes) : Nat :=
  LittleEndian.decode field + (if descriptor.contentSizeCode == 1 then 256 else 0)

/-- The header with a descriptor and the bytes behind it.  The greatest 64-bit
number stands for an unknown size of the content. -/
def header (descriptor : Descriptor) (fields : Bytes) : Except Problem Header :=
  let window := fields.headD 0
  let fields := fields.drop descriptor.windowWidth
  let dictionary := fields.take (dictionaryWidth descriptor.dictionaryCode)
  let size := descriptor.sizeOfField (fields.drop dictionary.length)
  if descriptor.reserved then .error .unsupportedParameter
  else if !descriptor.single && leastWindowBeyondLimits ≤ window then .error .windowTooLarge
  else
    .ok {
      width := magic.length + 1 + descriptor.fieldsWidth
      contentSize :=
        if contentSizeWidth descriptor.contentSizeCode descriptor.single == 0 then none
        else if size + 1 == UInt64.size then none
        else some size
      window := if descriptor.single then size else windowSize window
      dictionary := LittleEndian.decode dictionary
      checksum := descriptor.checksum }

end Descriptor

/-- What the bytes open, or nothing if more of them are needed to tell.  Bytes
behind the header do not matter. -/
def inspect (bytes : Bytes) : Except Problem (Option Opening) :=
  if startsFrame bytes then
    match bytes.drop magic.length with
    | [] => .ok none
    | byte :: rest =>
        let descriptor := Descriptor.ofByte byte
        match Bytes.splitExactly descriptor.fieldsWidth rest with
        | none => .ok none
        | some (fields, _) => (descriptor.header fields).map fun header => some (.frame header)
  else if startsSkipped bytes then
    match Bytes.splitExactly skippedHeaderWidth bytes with
    | none => .ok none
    | some (header, _) => .ok (some (.skipped (LittleEndian.decode (header.drop magic.length))))
  else .error .unknownFrame

end Zstd
end Stream
end RuntimeLog
