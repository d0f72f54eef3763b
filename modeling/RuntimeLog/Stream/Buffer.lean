import RuntimeLog.Reading
import RuntimeLog.Stream.Decompressor
import RuntimeLog.Stream.Source

/-!
# Stream buffers

A buffer holds the bytes of a stream which were read but not consumed yet, and
reads more of them in chunks.  The first bytes of the stream decide whether it
is compressed; all offsets count bytes of the content.
-/

namespace RuntimeLog
namespace Stream

variable [Decompressor]

/-- How the bytes of the source relate to the content of the stream. -/
inductive Encoding where
  /-- Not enough bytes were seen to tell. -/
  | undecided
  | plain
  | compressed (state : Decompressor.State)

/-- The bytes of a stream which wait to be consumed. -/
structure Buffer where
  source : Source
  /-- The number of bytes which are read at once. -/
  chunk : Nat
  /-- The bytes which were read but not consumed. -/
  unread : Bytes
  /-- The offset of the first unread byte. -/
  offset : Nat
  encoding : Encoding

namespace Buffer

/-- The smallest chunk. -/
def leastChunk : Nat := 16

/-- The chunk of a buffer for which none is chosen. -/
def usualChunk : Nat := 4 * 1024

/-- A buffer in front of a stream of which nothing was read. -/
def start (source : Source) (chunk : Nat) : Buffer :=
  { source
    chunk := max leastChunk chunk
    unread := []
    offset := 0
    encoding := .undecided }

/-- Move past unread bytes. -/
def consume (buffer : Buffer) (count : Nat) : Buffer :=
  { buffer with unread := buffer.unread.drop count, offset := buffer.offset + count }

/-- Let something arrive at the end of the source. -/
def push (buffer : Buffer) (arrival : Arrival) : Buffer :=
  { buffer with source := buffer.source.push arrival }

/-- The reason of a failed read, for a problem of a compressed stream. -/
def compressionFailure (problem : String) : String :=
  "Zstd decompression failed: " ++ problem

/-- Take the first bytes of the stream into the buffer, and decide the encoding
once enough of them are there. -/
def absorbUndecided (buffer : Buffer) (content : Bytes) : Except String Bool × Buffer :=
  let seen := buffer.unread ++ content
  if (seen.zip Zstd.magic).any fun pair => pair.1 != pair.2 then
    (.ok !content.isEmpty, { buffer with unread := seen, encoding := .plain })
  else if (seen.take Zstd.magic.length).length < Zstd.magic.length then
    (.ok !content.isEmpty, { buffer with unread := seen })
  else
    let fed := Decompressor.feed Decompressor.start seen
    match fed.problem with
    | none =>
        (.ok (buffer.unread.length < fed.output.length),
          { buffer with unread := fed.output, encoding := .compressed fed.state })
    | some problem => (.error (compressionFailure problem), { buffer with unread := fed.output })

/-- Take a chunk of the source into the buffer.  The result says whether the
unread bytes became more, or what was wrong with the chunk. -/
def absorb (buffer : Buffer) (content : Bytes) : Except String Bool × Buffer :=
  match buffer.encoding with
  | .plain => (.ok !content.isEmpty, { buffer with unread := buffer.unread ++ content })
  | .undecided => buffer.absorbUndecided content
  | .compressed state =>
      let fed := Decompressor.feed state content
      let next :=
        { buffer with unread := buffer.unread ++ fed.output, encoding := .compressed fed.state }
      match fed.problem with
      | none => (.ok !fed.output.isEmpty, next)
      | some problem => (.error (compressionFailure problem), next)

@[simp] theorem source_absorb (buffer : Buffer) (content : Bytes) :
    (buffer.absorb content).2.source = buffer.source := by
  unfold absorb
  split
  · rfl
  · unfold absorbUndecided
    dsimp only
    split
    · rfl
    · split
      · rfl
      · split <;> rfl
  · dsimp only
    split <;> rfl

/-- A buffer which became longer holds unread bytes. -/
theorem unread_ne_nil_of_absorb
    {buffer next : Buffer}
    {content : Bytes}
    (absorbed : buffer.absorb content = (.ok true, next)) :
    next.unread ≠ [] := by
  unfold absorb at absorbed
  split at absorbed
  · simp only [Prod.mk.injEq, Except.ok.injEq] at absorbed
    obtain ⟨grown, rfl⟩ := absorbed
    simp_all
  · unfold absorbUndecided at absorbed
    dsimp only at absorbed
    split at absorbed
    · simp only [Prod.mk.injEq, Except.ok.injEq] at absorbed
      obtain ⟨grown, rfl⟩ := absorbed
      simp_all
    · split at absorbed
      · simp only [Prod.mk.injEq, Except.ok.injEq] at absorbed
        obtain ⟨grown, rfl⟩ := absorbed
        simp_all
      · split at absorbed
        · simp only [Prod.mk.injEq, Except.ok.injEq, decide_eq_true_eq] at absorbed
          obtain ⟨grown, rfl⟩ := absorbed
          exact List.length_pos_iff.mp (by simp only; omega)
        · cases absorbed
  · dsimp only at absorbed
    split at absorbed
    · simp only [Prod.mk.injEq, Except.ok.injEq] at absorbed
      obtain ⟨grown, rfl⟩ := absorbed
      simp_all
    · cases absorbed

/-- Read chunks until the unread bytes become more or the source has no bytes
for now.  The result says whether they became more. -/
def fill (buffer : Buffer) : Except String Bool × Buffer :=
  match _collected : buffer.source.collect buffer.chunk with
  | (.error reason, source) => (.error reason, { buffer with source })
  | (.ok [], source) => (.ok false, { buffer with source })
  | (.ok (byte :: content), source) =>
      match _absorbed : absorb { buffer with source } (byte :: content) with
      | (.ok false, next) => fill next
      | (answer, next) => (answer, next)
termination_by buffer.source.size
decreasing_by
  have kept := source_absorb { buffer with source } (byte :: content)
  rw [_absorbed] at kept
  exact kept ▸ Source.size_of_collect _collected

/-- A buffer which grew has read from its source, and holds unread bytes. -/
theorem size_of_fill
    {buffer next : Buffer}
    (filled : buffer.fill = (.ok true, next)) :
    next.source.size < buffer.source.size ∧ next.unread ≠ [] := by
  fun_induction fill buffer with
  | case1 => cases filled
  | case2 => cases filled
  | case3 buffer byte content source collected grown absorbed inductionHypothesis =>
      have kept := source_absorb { buffer with source } (byte :: content)
      rw [absorbed] at kept
      have shrinks : grown.source.size < buffer.source.size :=
        kept ▸ Source.size_of_collect collected
      have later := inductionHypothesis filled
      exact ⟨by omega, later.2⟩
  | case4 buffer byte content source collected answer grown _ absorbed =>
      cases filled
      have kept := source_absorb { buffer with source } (byte :: content)
      rw [absorbed] at kept
      exact ⟨kept ▸ Source.size_of_collect collected, unread_ne_nil_of_absorb absorbed⟩

/-- Go on with a reading which starts `skip` bytes behind the offset of the
buffer, and fill the buffer for as long as the reading needs more.  No bytes are
consumed. -/
def readFrom {ε α : Type}
    (buffer : Buffer)
    (skip : Nat)
    (progress : Reading.Progress ε α) : Except String (Outcome ε α) × Buffer :=
  let further := progress.advance (buffer.offset + skip)
    (buffer.unread.drop (skip + progress.used))
  match further.outcome with
  | .incomplete =>
      match _filled : buffer.fill with
      | (.error reason, next) => (.error reason, next)
      | (.ok false, next) => (.ok .incomplete, next)
      | (.ok true, next) => next.readFrom skip further
  | outcome => (.ok outcome, buffer)
termination_by buffer.source.size
decreasing_by exact (size_of_fill _filled).1

/-- Run a reading which starts `skip` bytes behind the offset of the buffer. -/
def read {ε α : Type}
    (buffer : Buffer)
    (skip : Nat)
    (reading : Reading ε α) : Except String (Outcome ε α) × Buffer :=
  buffer.readFrom skip (.start reading)

/-- A buffer from which a whole value was read is as it was, or grew. -/
theorem size_of_readFrom {ε α : Type}
    {buffer next : Buffer}
    {skip used : Nat}
    {progress : Reading.Progress ε α}
    {value : α}
    (found : buffer.readFrom skip progress = (.ok (.complete value used), next)) :
    next = buffer ∨ next.source.size < buffer.source.size ∧ next.unread ≠ [] := by
  fun_induction readFrom buffer skip progress with
  | case1 => cases found
  | case2 => cases found
  | case3 buffer progress further _ grown filled inductionHypothesis =>
      have larger := size_of_fill filled
      rcases inductionHypothesis found with rfl | later
      · exact Or.inr larger
      · exact Or.inr ⟨by omega, later.2⟩
  | case4 =>
      simp only [Prod.mk.injEq] at found
      exact Or.inl found.2.symm

end Buffer
end Stream
end RuntimeLog
