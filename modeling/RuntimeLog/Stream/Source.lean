import RuntimeLog.Bytes

/-!
# Byte sources

A source hands out the bytes of a stream piece by piece.  It may have no bytes
for now and more of them later, and a read may be interrupted or fail.  All of
this is laid down in advance as a queue of arrivals.
-/

namespace RuntimeLog
namespace Stream

/-- Something which a read of the stream meets. -/
inductive Arrival where
  /-- Bytes which one or more reads hand out; none at all end one read. -/
  | bytes (content : Bytes)
  /-- A read is interrupted and has to be tried again. -/
  | interruption
  /-- A read fails. -/
  | failure (reason : String)
deriving DecidableEq, Repr

/-- A stream with everything which is still to arrive. -/
structure Source where
  /-- What reads will meet, first things first. -/
  queue : List Arrival
  /-- The most bytes which one read hands out. -/
  limit : Option Nat
deriving DecidableEq, Repr

/-- The answer to one read. -/
inductive Answer where
  /-- Some bytes; none mean that there are no more for now. -/
  | bytes (content : Bytes)
  | interrupted
  | failed (reason : String)
deriving DecidableEq, Repr

namespace Source

/-- The number of reads which can make progress on an arrival. -/
def weight : Arrival → Nat
  | .bytes content => content.length + 1
  | .interruption => 1
  | .failure _ => 1

/-- A bound on the number of reads which can make progress. -/
def size (source : Source) : Nat :=
  source.queue.foldr (fun arrival total => weight arrival + total) 0

/-- A source which has all bytes at hand. -/
def ofBytes (content : Bytes) : Source :=
  { queue := [.bytes content], limit := none }

/-- Put an arrival at the end of the queue. -/
def push (source : Source) (arrival : Arrival) : Source :=
  { source with queue := source.queue ++ [arrival] }

/-- Read at most `capacity` bytes.  A read meets the first arrival only. -/
def read (source : Source) (capacity : Nat) : Answer × Source :=
  match source.queue with
  | [] => (.bytes [], source)
  | .bytes content :: rest =>
      let count := min capacity (source.limit.getD capacity)
      let left := content.drop count
      (.bytes (content.take count),
        { source with queue := if left.isEmpty then rest else .bytes left :: rest })
  | .interruption :: rest => (.interrupted, { source with queue := rest })
  | .failure reason :: rest => (.failed reason, { source with queue := rest })

/-- A read which hands out bytes makes the source smaller by as many. -/
theorem size_of_read_bytes
    {source rest : Source}
    {capacity : Nat}
    {content : Bytes}
    (answered : source.read capacity = (.bytes content, rest)) :
    rest.size + content.length ≤ source.size := by
  unfold read at answered
  split at answered
  · cases answered
    simp
  · rename_i whole tail queue
    simp only [Prod.mk.injEq, Answer.bytes.injEq] at answered
    obtain ⟨rfl, rfl⟩ := answered
    simp only [size, queue, List.foldr_cons, weight]
    split
    · simp only [List.length_take]
      omega
    · simp only [List.foldr_cons, List.length_drop, List.length_take]
      omega
  · cases answered
  · cases answered

/-- An interrupted read makes the source smaller. -/
theorem size_of_read_interrupted
    {source rest : Source}
    {capacity : Nat}
    (answered : source.read capacity = (.interrupted, rest)) :
    rest.size < source.size := by
  unfold read at answered
  split at answered <;> cases answered
  rename_i queue
  simp [size, queue, weight]

/-- Read until `capacity` bytes are there or the source has none for now, behind
the bytes in the reversed list.  Interrupted reads are tried again; a failure
drops the bytes received before it. -/
def collectFrom (source : Source) (capacity : Nat) (received : Bytes) :
    Except String Bytes × Source :=
  if capacity = 0 then (.ok received.reverse, source)
  else
    match _answered : source.read capacity with
    | (.bytes [], rest) => (.ok received.reverse, rest)
    | (.bytes (byte :: content), rest) =>
        collectFrom rest (capacity - (content.length + 1))
          ((byte :: content).reverse ++ received)
    | (.interrupted, rest) => collectFrom rest capacity received
    | (.failed reason, rest) => (.error reason, rest)
termination_by source.size
decreasing_by
  · have shrinks := size_of_read_bytes _answered
    simp only [List.length_cons] at shrinks
    omega
  · exact size_of_read_interrupted _answered

/-- Read until `capacity` bytes are there or the source has none for now. -/
def collect (source : Source) (capacity : Nat) : Except String Bytes × Source :=
  source.collectFrom capacity []

/-- What is collected leaves the source. -/
theorem size_of_collectFrom
    {source rest : Source}
    {capacity : Nat}
    {received content : Bytes}
    (collected : source.collectFrom capacity received = (.ok content, rest)) :
    rest.size + content.length ≤ source.size + received.length := by
  fun_induction collectFrom source capacity received with
  | case1 source received =>
      cases collected
      simp
  | case2 source capacity received _ left answered =>
      cases collected
      have shrinks := size_of_read_bytes answered
      simp only [List.length_nil] at shrinks
      simp only [List.length_reverse]
      omega
  | case3 source capacity received _ byte more left answered inductionHypothesis =>
      have shrinks := size_of_read_bytes answered
      have later := inductionHypothesis collected
      simp only [List.length_append, List.length_reverse, List.length_cons] at shrinks later
      omega
  | case4 source capacity received _ left answered inductionHypothesis =>
      have shrinks := size_of_read_interrupted answered
      have later := inductionHypothesis collected
      omega
  | case5 => cases collected

/-- Collecting anything makes the source smaller. -/
theorem size_of_collect
    {source rest : Source}
    {capacity : Nat}
    {byte : UInt8}
    {content : Bytes}
    (collected : source.collect capacity = (.ok (byte :: content), rest)) :
    rest.size < source.size := by
  have shrinks := size_of_collectFrom collected
  simp only [List.length_cons, List.length_nil] at shrinks
  omega

end Source
end Stream
end RuntimeLog
