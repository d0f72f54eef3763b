import RuntimeLog.Stream.Zstd.Legacy

/-!
# Memory of a decoder

The content of a frame goes through memory which the decoder sets aside at the
start of the frame: the window and room for two more blocks, but never more than
the content needs.  The memory is kept for later frames, and is replaced if a
frame needs more of it, or after many frames in a row which needed far less.
-/

namespace RuntimeLog
namespace Stream
namespace Zstd

/-- The widest window which is accepted. -/
def greatestWindow : Nat := 128 * 1024 * 1024 + 1

/-- The narrowest window which is set aside. -/
def leastWindow : Nat := 1024

/-- The bytes beyond a window and two blocks which are set aside. -/
def reserve : Nat := 64

/-- The rooms for a frame with some window, content size and block limit. -/
def Rooms.needed (window : Nat) (contentSize : Option Nat) (blockLimit : Nat) : Rooms :=
  let ring := window + 2 * min (min window greatestBlock) blockLimit + reserve
  { input := max blockLimit checksumWidth
    output :=
      match contentSize with
      | none => ring
      | some size => min size ring }

/-- The memory of a decoder. -/
structure Memory where
  rooms : Rooms
  /-- The number of frames in a row which needed at most a third of the memory. -/
  oversized : Nat
  /-- The format of the last legacy frame, and the rooms for such frames. -/
  legacy : Option (LegacyFormat × Rooms)
deriving DecidableEq, Repr

namespace Memory

/-- The memory before the first frame. -/
def empty : Memory :=
  { rooms := .nothing, oversized := 0, legacy := none }

/-- How often memory may be far too large before it is replaced. -/
def patience : Nat := 128

/-- The memory for a frame which needs some rooms. -/
def provide (memory : Memory) (needed : Rooms) : Memory :=
  let rooms := memory.rooms
  let oversized := if 3 * needed.total ≤ rooms.total then memory.oversized + 1 else 0
  let tooSmall := rooms.input < needed.input || rooms.output < needed.output
  { memory with
    rooms := if tooSmall || patience ≤ oversized then needed else rooms
    oversized }

end Memory

/-- What is known about the frame at hand. -/
structure Frame where
  /-- The number of bytes which the frame says it holds. -/
  contentSize : Option Nat
  /-- The most bytes which a block of this frame holds. -/
  blockLimit : Nat
  /-- Whether a checksum follows the last block. -/
  checksum : Bool
  /-- The number of bytes of memory for the content. -/
  room : Nat
  /-- The number of bytes of the memory which are taken. -/
  taken : Nat
  /-- The number of bytes which the blocks so far held. -/
  produced : Nat
deriving DecidableEq, Repr

namespace Frame

/-- The number of bytes of memory which are free. -/
def free (frame : Frame) : Nat :=
  frame.room - frame.taken

/-- Take some content in, behind the taken bytes.  The memory is used from its
start again once the next block might not fit, unless the whole content fits. -/
def store (frame : Frame) (size : Nat) : Frame :=
  let taken := frame.taken + size
  let restarts := frame.contentSize.all (frame.room < ·) && frame.room < taken + frame.blockLimit
  { frame with taken := if restarts then 0 else taken, produced := frame.produced + size }

/-- Whether the content so far has another size than the frame says. -/
def isWrongSize (frame : Frame) : Bool :=
  frame.contentSize.any (· != frame.produced)

end Frame

/-- Start a frame behind its header. -/
def Memory.start (memory : Memory) (header : Header) : Except Problem (Frame × Memory) :=
  let window := max header.window leastWindow
  if header.dictionary != 0 then .error .wrongDictionary
  else if greatestWindow < window then .error .windowTooLarge
  else
    let memory := memory.provide (.needed window header.contentSize header.blockLimit)
    .ok (
      { contentSize := header.contentSize
        blockLimit := header.blockLimit
        checksum := header.checksum
        room := memory.rooms.output
        taken := 0
        produced := 0 },
      memory)

/-- Start a legacy frame behind its header.  Its memory is kept for frames of the
same format. -/
def Memory.startLegacy (memory : Memory) (header : LegacyHeader) : LegacyFrame × Memory :=
  let kept :=
    match memory.legacy with
    | some (format, rooms) => if format = header.format then rooms else .nothing
    | none => .nothing
  let rooms := kept.union header.rooms
  (.start header rooms, { memory with legacy := some (header.format, rooms) })

/-- Start a frame of `length` bytes to skip. -/
def Memory.startSkipped (memory : Memory) (length : Nat) : Memory :=
  memory.provide (.needed leastWindow (some length) 0)

end Zstd
end Stream
end RuntimeLog
