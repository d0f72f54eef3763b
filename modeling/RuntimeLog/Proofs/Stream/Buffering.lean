import RuntimeLog.Proofs.Reading.Resumption
import RuntimeLog.Proofs.Stream.Delivery

/-!
# Buffers of uncompressed streams

A buffer in front of an uncompressed stream holds the bytes of the stream as they
are.  Filling it moves bytes from the source behind the unread ones, and a
reading sees the same bytes however often the buffer had to be filled for it.
-/

namespace RuntimeLog
namespace Stream

/-- A string which agrees with a shorter one at all places starts with it. -/
theorem prefix_of_agree
    {whole start : Bytes}
    (agree : ((whole.zip start).any fun pair => pair.1 != pair.2) = false)
    (longer : start.length ≤ whole.length) :
    start <+: whole := by
  induction start generalizing whole with
  | nil => exact List.nil_prefix
  | cons byte start inductionHypothesis =>
      cases whole with
      | nil => simp at longer
      | cons first whole =>
          simp only [List.zip_cons_cons, List.any_cons, Bool.or_eq_false_iff, bne_eq_false_iff_eq]
            at agree
          rw [agree.1, List.cons_prefix_cons]
          exact ⟨rfl, inductionHypothesis agree.2 (by simpa using longer)⟩

/-- Two starts of one string agree as far as both go. -/
theorem zip_all_of_prefix
    {first second whole : Bytes}
    (starts : first <+: whole)
    (alike : second <+: whole) :
    ((first.zip second).all fun pair => pair.1 == pair.2) = true := by
  induction first generalizing second whole with
  | nil => rfl
  | cons byte first inductionHypothesis =>
      cases second with
      | nil => rfl
      | cons other second =>
          obtain ⟨more, rfl⟩ := starts
          rw [List.cons_append, List.cons_prefix_cons] at alike
          obtain ⟨rfl, alike⟩ := alike
          simpa using inductionHypothesis (List.prefix_append _ _) alike

namespace Buffer

variable [Decompressor]

/-- All bytes from the offset of the buffer on, whether they arrived or not. -/
def ahead (buffer : Buffer) : Bytes :=
  buffer.unread ++ buffer.source.content

/-- A buffer in front of a flawless source whose bytes do not start like a
compressed stream. -/
structure Uncompressed (buffer : Buffer) : Prop where
  flawless : buffer.source.Flawless
  chunk_ne_zero : buffer.chunk ≠ 0
  encoding : buffer.encoding = .plain ∨
    buffer.encoding = .undecided ∧ buffer.unread.length < Zstd.magic.length ∧
      ¬ Zstd.magic <+: buffer.ahead

/-- A buffer starts in front of a stream which does not start like a compressed
one. -/
theorem uncompressed_start
    {source : Source}
    (flawless : source.Flawless)
    (plain : ¬ Zstd.magic <+: source.content)
    (chunk : Nat) :
    (start source chunk).Uncompressed where
  flawless := flawless
  chunk_ne_zero := by
    have least := Nat.le_max_left leastChunk chunk
    exact Nat.ne_of_gt (Nat.lt_of_lt_of_le (by decide) least)
  encoding := Or.inr ⟨rfl, Nat.zero_lt_succ 3, plain⟩

/-- A later state of a buffer from which nothing was consumed, and which took
some bytes from its source. -/
structure Grows (buffer : Buffer) (content : Bytes) (later : Buffer) : Prop where
  uncompressed : later.Uncompressed
  unread_eq : later.unread = buffer.unread ++ content
  ahead_eq : later.ahead = buffer.ahead
  offset_eq : later.offset = buffer.offset
  plain : buffer.encoding = .plain → later.encoding = .plain
  /-- What was at hand before the first pause still is. -/
  unpaused_le : buffer.unread ++ unpaused buffer.source.queue <+:
    later.unread ++ unpaused later.source.queue

/-- A later state of a buffer in front of the same bytes. -/
structure SameAhead (buffer later : Buffer) : Prop where
  ahead_eq : later.ahead = buffer.ahead
  offset_eq : later.offset = buffer.offset

/-- A buffer which grew is in front of the same bytes. -/
theorem Grows.sameAhead
    {buffer later : Buffer}
    {content : Bytes}
    (grows : buffer.Grows content later) :
    buffer.SameAhead later :=
  ⟨grows.ahead_eq, grows.offset_eq⟩

/-- A buffer which took nothing is as it was. -/
theorem Grows.refl {buffer : Buffer} (uncompressed : buffer.Uncompressed) :
    buffer.Grows [] buffer where
  uncompressed := uncompressed
  unread_eq := (List.append_nil _).symm
  ahead_eq := rfl
  offset_eq := rfl
  plain := id
  unpaused_le := List.prefix_rfl

/-- Growing twice is growing. -/
theorem Grows.trans
    {buffer middle later : Buffer}
    {first second : Bytes}
    (earlier : buffer.Grows first middle)
    (further : middle.Grows second later) :
    buffer.Grows (first ++ second) later where
  uncompressed := further.uncompressed
  unread_eq := by rw [further.unread_eq, earlier.unread_eq, List.append_assoc]
  ahead_eq := further.ahead_eq.trans earlier.ahead_eq
  offset_eq := further.offset_eq.trans earlier.offset_eq
  plain := further.plain ∘ earlier.plain
  unpaused_le := earlier.unpaused_le.trans further.unpaused_le

/-- A later state of a buffer whose source was found to have no bytes for now.
What was at hand before the first pause was taken. -/
structure Paused (buffer later : Buffer) : Prop where
  taken_le : buffer.unread ++ unpaused buffer.source.queue <+: later.unread
  smaller : later.source.queue = [] ∨ later.source.size < buffer.source.size

/-- A buffer which grew first pauses where it would have without that. -/
theorem Paused.of_grows
    {buffer middle later : Buffer}
    {content : Bytes}
    (paused : middle.Paused later)
    (grows : buffer.Grows content middle)
    (shrinks : middle.source.size < buffer.source.size) :
    buffer.Paused later where
  taken_le := grows.unpaused_le.trans paused.taken_le
  smaller := paused.smaller.imp id fun less => Nat.lt_trans less shrinks

/-- A chunk of an uncompressed stream is taken as it is. -/
theorem absorb_uncompressed
    {buffer : Buffer}
    {content : Bytes}
    (nonempty : content ≠ [])
    (encoding : buffer.encoding = .plain ∨
      buffer.encoding = .undecided ∧ ¬ Zstd.magic <+: buffer.unread ++ content) :
    ∃ encoding,
      buffer.absorb content =
        (.ok true, { buffer with unread := buffer.unread ++ content, encoding }) ∧
      (encoding = .plain ∨
        buffer.encoding = .undecided ∧ encoding = .undecided ∧
          (buffer.unread ++ content).length < Zstd.magic.length) := by
  have grows : (!content.isEmpty) = true := by simpa using nonempty
  rcases encoding with plain | ⟨undecided, foreign⟩
  · refine ⟨.plain, ?_, Or.inl rfl⟩
    simp [absorb, plain, grows]
  · simp only [absorb, undecided, absorbUndecided]
    cases agree : ((buffer.unread ++ content).zip Zstd.magic).any fun pair => pair.1 != pair.2 with
    | true =>
        refine ⟨.plain, ?_, Or.inl rfl⟩
        simp [grows]
    | false =>
        have short : (buffer.unread ++ content).length < Zstd.magic.length := by
          apply Nat.lt_of_not_le
          intro long
          exact foreign (prefix_of_agree agree long)
        refine ⟨.undecided, ?_, Or.inr ⟨trivial, rfl, short⟩⟩
        rw [if_neg (by simp), if_pos (by rw [List.length_take]; omega), grows]

/-- A buffer does not become longer where its source has nothing. -/
theorem fill_of_nothing
    {buffer : Buffer}
    {rest : Source}
    (collected : buffer.source.collect buffer.chunk = (.ok [], rest)) :
    buffer.fill = (.ok false, { buffer with source := rest }) := by
  unfold fill
  split <;> simp_all

/-- A fill fails where collecting does. -/
theorem fill_of_failure
    {buffer : Buffer}
    {rest : Source}
    {reason : String}
    (collected : buffer.source.collect buffer.chunk = (.error reason, rest)) :
    buffer.fill = (.error reason, { buffer with source := rest }) := by
  unfold fill
  split <;> simp_all

/-- A buffer takes a chunk which makes it longer. -/
theorem fill_of_absorb
    {buffer drained later : Buffer}
    {rest : Source}
    {byte : UInt8}
    {more : Bytes}
    (collected : buffer.source.collect buffer.chunk = (.ok (byte :: more), rest))
    (drained_eq : drained = { buffer with source := rest })
    (absorbed : drained.absorb (byte :: more) = (.ok true, later)) :
    buffer.fill = (.ok true, later) := by
  subst drained_eq
  unfold fill
  split
  · simp_all
  · simp_all
  · rename_i found
    cases collected.symm.trans found
    split <;> simp_all

/-- Filling a buffer takes the next bytes of the stream, and finds none only
where the stream pauses or ends. -/
theorem grows_of_fill {buffer : Buffer} (uncompressed : buffer.Uncompressed) :
    ∃ content later,
      buffer.fill = (.ok !content.isEmpty, later) ∧
      buffer.Grows content later ∧
      (content = [] → unpaused buffer.source.queue = [] ∧
        (later.source.queue = [] ∨ later.source.size < buffer.source.size)) := by
  obtain ⟨content, rest, collected, delivers, nothing⟩ :=
    Source.delivers_of_collectFrom uncompressed.flawless buffer.chunk []
  have nothing := nothing uncompressed.chunk_ne_zero
  have ahead_eq : buffer.unread ++ content ++ rest.content = buffer.ahead := by
    rw [List.append_assoc, delivers.content_eq, ahead]
  have unpaused_le : buffer.unread ++ unpaused buffer.source.queue <+:
      buffer.unread ++ content ++ unpaused rest.queue := by
    rw [List.append_assoc]
    exact (List.prefix_append_right_inj _).mpr delivers.unpaused_le
  rw [List.reverse_nil, List.nil_append] at collected
  cases content with
  | nil =>
      simp only [List.append_nil] at ahead_eq unpaused_le
      refine ⟨[], { buffer with source := rest }, ?_, ⟨?_, ?_, ahead_eq, rfl, id, unpaused_le⟩,
        nothing⟩
      · exact fill_of_nothing collected
      · refine ⟨delivers.flawless, uncompressed.chunk_ne_zero, ?_⟩
        rw [show ahead { buffer with source := rest } = buffer.ahead from ahead_eq]
        exact uncompressed.encoding
      · exact (List.append_nil _).symm
  | cons byte more =>
      have seen : buffer.unread ++ byte :: more <+: buffer.ahead :=
        ahead_eq ▸ List.prefix_append _ _
      let drained : Buffer := { buffer with source := rest }
      have untouched : drained.encoding = .plain ∨
          drained.encoding = .undecided ∧ ¬ Zstd.magic <+: drained.unread ++ byte :: more :=
        uncompressed.encoding.imp id fun ⟨undecided, _, foreign⟩ =>
          ⟨undecided, fun compressed => foreign (compressed.trans seen)⟩
      obtain ⟨encoding, absorbed, kept⟩ :=
        absorb_uncompressed (List.cons_ne_nil byte more) untouched
      refine ⟨byte :: more, { drained with unread := buffer.unread ++ byte :: more, encoding }, ?_,
        ⟨⟨delivers.flawless, uncompressed.chunk_ne_zero, ?_⟩, rfl, ahead_eq, rfl, ?_, unpaused_le⟩,
        nothing⟩
      · exact fill_of_absorb collected rfl absorbed
      · rcases kept with plain | ⟨undecided, still, short⟩
        · exact Or.inl plain
        · refine Or.inr ⟨still, short, ?_⟩
          rcases uncompressed.encoding with plain | ⟨_, _, foreign⟩
          · rw [plain] at undecided
            cases undecided
          · unfold ahead
            rw [ahead_eq]
            exact foreign
      · intro plain
        rcases kept with settled | ⟨undecided, _⟩
        · exact settled
        · rw [plain] at undecided
          cases undecided

/-- Filling a buffer of an uncompressed stream does not fail. -/
theorem fill_ne_error
    {buffer later : Buffer}
    {reason : String}
    (uncompressed : buffer.Uncompressed) :
    buffer.fill ≠ (.error reason, later) := by
  intro filled
  obtain ⟨content, next, answered, _⟩ := grows_of_fill uncompressed
  rw [filled] at answered
  cases answered

/-- A buffer which became longer took the next bytes of the stream. -/
theorem grows_of_fill_true
    {buffer later : Buffer}
    (uncompressed : buffer.Uncompressed)
    (filled : buffer.fill = (.ok true, later)) :
    ∃ content, buffer.Grows content later := by
  obtain ⟨content, next, answered, grows, _⟩ := grows_of_fill uncompressed
  rw [filled] at answered
  obtain rfl := (Prod.mk.inj answered).2
  exact ⟨content, grows⟩

/-- A buffer did not become longer because the stream pauses or ended. -/
theorem paused_of_fill_false
    {buffer later : Buffer}
    (uncompressed : buffer.Uncompressed)
    (filled : buffer.fill = (.ok false, later)) :
    buffer.Grows [] later ∧ unpaused buffer.source.queue = [] ∧ buffer.Paused later := by
  obtain ⟨content, next, answered, grows, nothing⟩ := grows_of_fill uncompressed
  rw [filled] at answered
  simp only [Prod.mk.injEq, Except.ok.injEq, Bool.false_eq, Bool.not_eq_false',
    List.isEmpty_iff] at answered
  obtain ⟨rfl, rfl⟩ := answered
  obtain ⟨none, smaller⟩ := nothing rfl
  refine ⟨grows, none, ⟨⟨[], ?_⟩, smaller⟩⟩
  rw [none, grows.unread_eq, List.append_nil]

/-- A source which does not pause still does not after some of its bytes were
taken. -/
theorem Grows.prompt
    {buffer later : Buffer}
    {content : Bytes}
    (grows : buffer.Grows content later)
    (prompt : buffer.source.Prompt) :
    later.source.Prompt := by
  have held := grows.unpaused_le
  rw [prompt, ← ahead, ← grows.ahead_eq, ahead, List.prefix_append_right_inj] at held
  exact (unpaused_le_contentOf _).eq_of_length_le held.length_le

/-- Where a source does not pause, a buffer finds no more bytes only in the end. -/
theorem Paused.content_eq_nil
    {buffer later : Buffer}
    {content : Bytes}
    (paused : buffer.Paused later)
    (grows : buffer.Grows content later)
    (prompt : buffer.source.Prompt) :
    later.source.content = [] := by
  have taken := paused.taken_le.length_le
  rw [prompt, ← ahead, ← grows.ahead_eq, ahead, List.length_append] at taken
  exact List.length_eq_zero_iff.mp (by omega)

/-- What a buffer says about a reading: it ran on the unread bytes of a later
state of the buffer, and only asked for more where there are none for now. -/
structure Reads {ε α : Type} (buffer : Buffer) (skip : Nat) (reading : Reading ε α)
    (outcome : Outcome ε α) (later : Buffer) : Prop where
  grows : ∃ content, buffer.Grows content later
  outcome_eq : reading.run (buffer.offset + skip) (later.unread.drop skip) = outcome
  paused : outcome = .incomplete → buffer.Paused later

/-- A reading sees the unread bytes as if all of them had been there from the
start. -/
theorem reads_of_readFrom {ε α : Type}
    {buffer : Buffer}
    {skip : Nat}
    {reading : Reading ε α}
    {progress : Reading.Progress ε α}
    (uncompressed : buffer.Uncompressed)
    (behind : skip ≤ buffer.unread.length)
    (resumes : reading.Resumes (buffer.offset + skip) (buffer.unread.drop skip) progress) :
    ∃ outcome later,
      buffer.readFrom skip progress = (.ok outcome, later) ∧
      buffer.Reads skip reading outcome later := by
  fun_induction readFrom buffer skip progress with
  | case1 buffer progress further unfinished reason next filled =>
      exact absurd filled (fill_ne_error uncompressed)
  | case2 buffer progress further unfinished next filled =>
      obtain ⟨grows, _, paused⟩ := paused_of_fill_false uncompressed filled
      refine ⟨.incomplete, next, rfl, ⟨⟨[], grows⟩, ?_, fun _ => paused⟩⟩
      rw [grows.unread_eq, List.append_nil, ← resumes.outcome_eq, List.drop_drop]
      exact unfinished
  | case3 buffer progress further unfinished next filled inductionHypothesis =>
      obtain ⟨content, grows⟩ := grows_of_fill_true uncompressed filled
      have resumed := resumes.advance.append content
      rw [List.drop_drop, ← List.drop_append_of_le_length behind, ← grows.unread_eq] at resumed
      have stillBehind : skip ≤ next.unread.length := by
        rw [grows.unread_eq, List.length_append]
        omega
      obtain ⟨outcome, later, answered, reads⟩ :=
        inductionHypothesis grows.uncompressed stillBehind (by rw [grows.offset_eq]; exact resumed)
      obtain ⟨more, further⟩ := reads.grows
      refine ⟨outcome, later, answered, ⟨content ++ more, grows.trans further⟩, ?_,
        fun unended => ?_⟩
      · rw [← grows.offset_eq]
        exact reads.outcome_eq
      · exact (reads.paused unended).of_grows grows (size_of_fill filled).1
  | case4 buffer progress further ended =>
      refine ⟨further.outcome, buffer, ?_, ⟨⟨[], .refl uncompressed⟩, ?_, fun unended => ?_⟩⟩
      · cases known : further.outcome <;> simp_all
      · rw [← resumes.outcome_eq, List.drop_drop]
      · exact absurd unended ended

end Buffer
end Stream
end RuntimeLog
