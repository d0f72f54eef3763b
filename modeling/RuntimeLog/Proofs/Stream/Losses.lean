import RuntimeLog.Proofs.Stream.Reception

/-!
# Losses of a stream

A buffer which is filled and consumed in any order holds exactly the bytes which its
fills received and which were not consumed, except for those of fills that failed.
What a failed fill received before the failure is lost.
-/

namespace RuntimeLog
namespace Stream

/-- What a fill of a buffer came to. -/
structure Fill where
  answer : Except String Bool
  /-- The bytes which the source handed out for it. -/
  received : Bytes

namespace Fill

/-- The bytes which a fill puts into the buffer: all which it received, or none if it
fails. -/
def kept (fill : Fill) : Bytes :=
  match fill.answer with
  | .ok _ => fill.received
  | .error _ => []

/-- A fill which loses nothing: it does not fail, or received nothing before. -/
def Lossless (fill : Fill) : Prop :=
  ∀ reason, fill.answer = .error reason → fill.received = []

/-- A fill keeps no more than it received. -/
theorem length_kept_le (fill : Fill) : fill.kept.length ≤ fill.received.length := by
  unfold kept
  split
  · exact Nat.le_refl _
  · exact Nat.zero_le _

/-- A fill which keeps as many bytes as it received loses nothing. -/
theorem lossless_iff (fill : Fill) :
    fill.Lossless ↔ fill.kept = fill.received := by
  unfold Lossless kept
  cases fill.answer with
  | ok grown => simp
  | error reason => simp [eq_comm]

end Fill

/-- The bytes which a source handed out for some fills. -/
def handedOut (fills : List Fill) : Bytes :=
  fills.flatMap Fill.received

/-- The bytes which some fills put into the buffer. -/
def kept (fills : List Fill) : Bytes :=
  fills.flatMap Fill.kept

/-- Fills keep no more than was handed out for them. -/
theorem length_kept_le_handedOut (fills : List Fill) :
    (kept fills).length ≤ (handedOut fills).length := by
  induction fills with
  | nil => exact Nat.le_refl _
  | cons fill fills inductionHypothesis =>
      have here := fill.length_kept_le
      simp only [kept, handedOut, List.flatMap_cons, List.length_append] at inductionHypothesis ⊢
      omega

/-- Fills keep all that was handed out for them if none of them loses anything, and only
then. -/
theorem kept_eq_handedOut_iff (fills : List Fill) :
    kept fills = handedOut fills ↔ ∀ fill ∈ fills, fill.Lossless := by
  induction fills with
  | nil => simp [kept, handedOut]
  | cons fill fills inductionHypothesis =>
      have shorter := fill.length_kept_le
      have others := length_kept_le_handedOut fills
      rw [List.forall_mem_cons, ← inductionHypothesis, Fill.lossless_iff]
      simp only [kept, handedOut, List.flatMap_cons] at others ⊢
      constructor
      · intro same
        have lengths := congrArg List.length same
        simp only [List.length_append] at lengths
        exact List.append_inj same (by omega)
      · rintro ⟨here, rest⟩
        rw [here, rest]

namespace Buffer

variable [Decompressor]

/-- A chunk which a buffer absorbs comes from the front of its source. -/
theorem content_of_absorb
    {buffer next : Buffer}
    {rest : Source}
    {chunk : Bytes}
    {answer : Except String Bool}
    (collected : buffer.source.collect buffer.chunk = (.ok chunk, rest))
    (absorbed : absorb { buffer with source := rest } chunk = (answer, next)) :
    chunk ++ next.source.content = buffer.source.content := by
  obtain ⟨taken, whole, gathered⟩ := Source.received_of_collectFrom collected
  obtain rfl : chunk = taken := gathered _ rfl
  have same := source_absorb { buffer with source := rest } chunk
  rw [absorbed] at same
  rw [same, whole]

/-- A fill receives bytes from the front of the source. -/
theorem received_of_fill
    {buffer later : Buffer}
    {answer : Except String Bool}
    (filled : buffer.fill = (answer, later)) :
    ∃ received, received ++ later.source.content = buffer.source.content := by
  fun_induction fill buffer with
  | case1 buffer reason rest collected =>
      cases filled
      obtain ⟨taken, whole, _⟩ := Source.received_of_collectFrom collected
      exact ⟨taken, whole⟩
  | case2 buffer rest collected =>
      cases filled
      obtain ⟨taken, whole, _⟩ := Source.received_of_collectFrom collected
      exact ⟨taken, whole⟩
  | case3 buffer byte more rest collected next absorbed inductionHypothesis =>
      obtain ⟨further, whole⟩ := inductionHypothesis filled
      exact ⟨byte :: more ++ further, by
        rw [List.append_assoc, whole, content_of_absorb collected absorbed]⟩
  | case4 buffer byte more rest collected answer next other absorbed =>
      cases filled
      exact ⟨byte :: more, content_of_absorb collected absorbed⟩

/-- A buffer which takes some bytes for uncompressed ones: it has decided so, or they do
not make what it holds look like the start of a compressed stream. -/
def TakesPlainly (buffer : Buffer) (received : Bytes) : Prop :=
  buffer.encoding = .plain ∨
    buffer.encoding = .undecided ∧ ¬ Zstd.magic <+: buffer.unread ++ received

/-- A chunk at the front of bytes which are taken for uncompressed ones gets behind the
unread bytes as it is. -/
theorem TakesPlainly.absorb_eq
    {buffer : Buffer}
    {chunk further : Bytes}
    (plainly : buffer.TakesPlainly (chunk ++ further))
    (some : chunk ≠ [])
    (rest : Source) :
    ∃ encoding,
      absorb { buffer with source := rest } chunk =
        (.ok true, { buffer with source := rest, unread := buffer.unread ++ chunk, encoding }) ∧
      (encoding = .plain ∨ encoding = .undecided) := by
  have foreign : buffer.encoding = .plain ∨
      buffer.encoding = .undecided ∧ ¬ Zstd.magic <+: buffer.unread ++ chunk :=
    plainly.imp id fun ⟨undecided, foreign⟩ => ⟨undecided, fun compressed => foreign <| by
      rw [← List.append_assoc]
      exact compressed.trans (List.prefix_append _ _)⟩
  obtain ⟨encoding, absorbed, settled⟩ :=
    @absorb_uncompressed _ { buffer with source := rest } chunk some foreign
  exact ⟨encoding, absorbed, settled.imp id fun undecided => undecided.2.1⟩

/-- A fill of uncompressed bytes puts what it received behind the unread bytes, or
nothing if it fails. -/
theorem fill_of_takesPlainly
    {buffer later : Buffer}
    {answer : Except String Bool}
    {received : Bytes}
    (filled : buffer.fill = (answer, later))
    (whole : received ++ later.source.content = buffer.source.content)
    (plainly : buffer.TakesPlainly received) :
    later.unread = buffer.unread ++ Fill.kept ⟨answer, received⟩ ∧
      (later.encoding = .plain ∨ later.encoding = .undecided) := by
  have untouched : buffer.encoding = .plain ∨ buffer.encoding = .undecided :=
    plainly.imp id And.left
  revert filled
  fun_cases fill buffer with
  | case1 reason rest collected =>
      intro filled
      cases filled
      exact ⟨(List.append_nil _).symm, untouched⟩
  | case2 rest collected =>
      intro filled
      cases filled
      obtain ⟨taken, all, gathered⟩ := Source.received_of_collectFrom collected
      obtain rfl : [] = taken := gathered [] rfl
      obtain rfl : received = [] := List.append_cancel_right (whole.trans all.symm)
      exact ⟨(List.append_nil _).symm, untouched⟩
  | case3 byte more rest collected next absorbed =>
      -- a chunk of uncompressed bytes always makes the buffer longer, so that one is enough
      intro filled
      obtain ⟨further, wholeLater⟩ := received_of_fill filled
      rw [← content_of_absorb collected absorbed, ← wholeLater, ← List.append_assoc] at whole
      obtain rfl := List.append_cancel_right whole
      obtain ⟨encoding, known, _⟩ := plainly.absorb_eq (List.cons_ne_nil byte more) rest
      cases absorbed.symm.trans known
  | case4 byte more rest collected answer next other absorbed =>
      intro filled
      cases filled
      rw [← content_of_absorb collected absorbed] at whole
      obtain rfl := List.append_cancel_right whole
      rw [← List.append_nil (byte :: more)] at plainly
      obtain ⟨encoding, known, settled⟩ := plainly.absorb_eq (List.cons_ne_nil byte more) rest
      cases absorbed.symm.trans known
      exact ⟨rfl, settled⟩

/-- The use of a buffer in front of uncompressed bytes, from its start on: it is filled
and consumed in any order, and used on where a fill fails. -/
inductive Use (source : Source) (chunk : Nat) : List Fill → Bytes → Buffer → Prop
  | started : Use source chunk [] [] (start source chunk)
  | filled
      {fills : List Fill}
      {consumed received : Bytes}
      {buffer later : Buffer}
      {answer : Except String Bool}
      (before : Use source chunk fills consumed buffer)
      (filled : buffer.fill = (answer, later))
      (whole : received ++ later.source.content = buffer.source.content)
      (plainly : buffer.TakesPlainly received) :
      Use source chunk (fills ++ [⟨answer, received⟩]) consumed later
  | consumed
      {fills : List Fill}
      {consumed : Bytes}
      {buffer : Buffer}
      (before : Use source chunk fills consumed buffer)
      (count : Nat)
      (within : count ≤ buffer.unread.length) :
      Use source chunk fills (consumed ++ buffer.unread.take count) (buffer.consume count)

/-- What was consumed and what is held are the bytes which the fills kept, and what was
handed out and what is still to arrive are the bytes of the source. -/
theorem Use.accounts
    {source : Source}
    {chunk : Nat}
    {fills : List Fill}
    {consumed : Bytes}
    {buffer : Buffer}
    (use : Use source chunk fills consumed buffer) :
    consumed ++ buffer.unread = kept fills ∧
      handedOut fills ++ buffer.source.content = source.content ∧
      (buffer.encoding = .plain ∨ buffer.encoding = .undecided) := by
  induction use with
  | started => exact ⟨rfl, rfl, Or.inr rfl⟩
  | @filled fills consumed received buffer later answer before filled whole plainly
      inductionHypothesis =>
      obtain ⟨keptBefore, handedBefore, _⟩ := inductionHypothesis
      obtain ⟨grown, encoding⟩ := fill_of_takesPlainly filled whole plainly
      refine ⟨?_, ?_, encoding⟩
      · rw [grown, ← List.append_assoc, keptBefore]
        simp [kept]
      · rw [← handedBefore, ← whole]
        simp [handedOut]
  | @consumed fills consumed buffer before count within inductionHypothesis =>
      obtain ⟨keptBefore, handedBefore, encoding⟩ := inductionHypothesis
      refine ⟨?_, handedBefore, encoding⟩
      rw [List.append_assoc, Buffer.consume, List.take_append_drop, keptBefore]

/-- As long as nothing was lost, and nothing consumed before the encoding was decided,
what a fill receives of an uncompressed stream is taken plainly. -/
theorem Use.takesPlainly
    {source : Source}
    {chunk : Nat}
    {fills : List Fill}
    {consumed received : Bytes}
    {buffer : Buffer}
    (use : Use source chunk fills consumed buffer)
    (plain : ¬ Zstd.magic <+: source.content)
    (lossless : ∀ fill ∈ fills, fill.Lossless)
    (patient : buffer.encoding = .undecided → consumed = [])
    (received_le : received <+: buffer.source.content) :
    buffer.TakesPlainly received := by
  obtain ⟨keptAll, handedAll, encoding⟩ := use.accounts
  refine encoding.imp id fun undecided => ⟨undecided, fun compressed => plain ?_⟩
  rw [(kept_eq_handedOut_iff fills).mpr lossless, patient undecided, List.nil_append] at keptAll
  rw [← handedAll, ← keptAll]
  exact compressed.trans ((List.prefix_append_right_inj _).mpr received_le)

end Buffer
end Stream
end RuntimeLog
