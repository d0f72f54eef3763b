import RuntimeLog.Proofs.Stream.Buffering
import RuntimeLog.Proofs.Stream.Decompression

/-!
# Conveyance of a content

A buffer in front of an encoding which is decompressed to a content conveys the
content, as a buffer in front of the content itself does: no fill fails, and one finds
nothing only where the whole content is there.
-/

namespace RuntimeLog
namespace Stream

/-! ## Sources which do not pause -/

namespace Source

variable {source rest : Source} {capacity : Nat} {taken : Bytes}

/-- A source which does not pause still does not after some of its bytes were
taken. -/
theorem Delivers.prompt (delivers : source.Delivers taken rest) (prompt : source.Prompt) :
    rest.Prompt := by
  have held := delivers.unpaused_le
  rw [prompt, ← delivers.content_eq, List.prefix_append_right_inj] at held
  exact (unpaused_le_contentOf _).eq_of_length_le held.length_le

/-- A read hands out no more than is asked for. -/
theorem length_le_of_read_bytes (answered : source.read capacity = (.bytes taken, rest)) :
    taken.length ≤ capacity := by
  unfold read at answered
  split at answered
  · cases answered
    exact Nat.zero_le _
  · simp only [Prod.mk.injEq, Answer.bytes.injEq] at answered
    obtain ⟨rfl, _⟩ := answered
    rw [List.length_take]
    omega
  · cases answered
  · cases answered

/-- As many bytes as are asked for, or all of them, are collected from a source which
does not pause. -/
theorem exists_collectFrom_of_prompt
    (flawless : source.Flawless)
    (prompt : source.Prompt)
    (capacity : Nat)
    (received : Bytes) :
    ∃ rest,
      source.collectFrom capacity received =
        (.ok (received.reverse ++ source.content.take capacity), rest) ∧
      rest.content = source.content.drop capacity ∧ rest.Flawless ∧ rest.Prompt := by
  fun_induction collectFrom source capacity received with
  | case1 source received => exact ⟨source, by simp, rfl, flawless, prompt⟩
  | case2 source capacity received positive rest answered =>
      obtain ⟨delivers, nothing⟩ := delivers_of_read_bytes flawless positive answered
      have exhausted : source.content = [] := prompt.symm.trans (nothing rfl).1
      have left : rest.content = [] := by
        rw [← exhausted, ← delivers.content_eq, List.nil_append]
      exact ⟨rest, by simp [exhausted], by simp [left, exhausted], delivers.flawless,
        delivers.prompt prompt⟩
  | case3 source capacity received positive byte more middle answered inductionHypothesis =>
      have delivers := (delivers_of_read_bytes flawless positive answered).1
      have fits : (byte :: more).length ≤ capacity := length_le_of_read_bytes answered
      obtain ⟨rest, collected, left, sound, still⟩ :=
        inductionHypothesis delivers.flawless (delivers.prompt prompt)
      refine ⟨rest, ?_, ?_, sound, still⟩
      · rw [collected, ← delivers.content_eq, List.take_append, List.take_of_length_le fits]
        simp
      · rw [left, ← delivers.content_eq, List.drop_append, List.drop_of_length_le fits]
        rfl
  | case4 source capacity received positive middle answered inductionHypothesis =>
      have delivers := delivers_of_read_interrupted flawless answered
      rw [← delivers.content_eq, List.nil_append]
      exact inductionHypothesis delivers.flawless (delivers.prompt prompt)
  | case5 source capacity received positive reason rest answered =>
      exact absurd answered (read_ne_failed flawless)

end Source

/-! ## Buffers -/

variable [Decompressor]

/-- How some unread bytes and the bytes which a source has left make up a content. -/
inductive Encoding.Carries : Encoding → (unread left content : Bytes) → Prop
  | plain (unread left : Bytes) : Carries .plain unread left (unread ++ left)
  /-- The source does not start like a compressed stream. -/
  | foreign
      {unread left : Bytes}
      (short : unread.length < Zstd.magic.length)
      (foreign : ¬ Zstd.magic <+: unread ++ left) :
      Carries .undecided unread left (unread ++ left)
  /-- The source is a compressed stream of which nothing was read. -/
  | untouched
      {left content : Bytes}
      (starts : Zstd.magic <+: left)
      (decompresses : Decompressor.Decompresses left content) :
      Carries .undecided [] left content
  | compressed
      {state : Decompressor.State}
      {left more : Bytes}
      (unread : Bytes)
      (follows : Decompressor.Follows state left more) :
      Carries (.compressed state) unread left (unread ++ more)

namespace Buffer

variable {buffer later : Buffer} {bytes : Bytes}

/-- A buffer in front of a content, with a source which neither fails nor pauses. -/
structure Conveys (buffer : Buffer) (bytes : Bytes) : Prop where
  flawless : buffer.source.Flawless
  prompt : buffer.source.Prompt
  leastChunk_le : leastChunk ≤ buffer.chunk
  carries : buffer.encoding.Carries buffer.unread buffer.source.content bytes

/-- The unread bytes are the first ones of the content. -/
theorem Conveys.unread_le (conveys : buffer.Conveys bytes) : buffer.unread <+: bytes := by
  have carries := conveys.carries
  generalize buffer.encoding = encoding, buffer.unread = unread, buffer.source.content = left
    at carries ⊢
  cases carries with
  | plain => exact List.prefix_append _ _
  | foreign => exact List.prefix_append _ _
  | untouched => exact List.nil_prefix
  | compressed => exact List.prefix_append _ _

/-- A source which has nothing left has handed out the whole content. -/
theorem unread_eq_of_carries
    {encoding : Encoding}
    {unread : Bytes}
    (carries : encoding.Carries unread [] bytes) :
    unread = bytes := by
  cases carries with
  | plain => exact (List.append_nil _).symm
  | foreign => exact (List.append_nil _).symm
  | untouched starts => exact absurd starts (by decide)
  | compressed _ follows => rw [follows.content_eq_nil, List.append_nil]

/-- A chunk which is long enough to tell the encoding is taken without a problem. -/
theorem carries_of_absorb
    {content left : Bytes}
    (nonempty : content ≠ [])
    (long : Zstd.magic.length ≤ content.length ∨ left = [])
    (carries : buffer.encoding.Carries buffer.unread (content ++ left) bytes) :
    ∃ grown unread encoding,
      buffer.absorb content = (.ok grown, { buffer with unread, encoding }) ∧
      encoding.Carries unread left bytes ∧ (grown = false → unread = buffer.unread) := by
  generalize encoded : buffer.encoding = encoding at carries
  generalize held : buffer.unread = unread at carries
  cases carries with
  | plain =>
      refine ⟨_, _, .plain, by rw [absorb, encoded], ?_, fun ended => ?_⟩
      · rw [held, ← List.append_assoc]
        exact .plain _ _
      · simp [nonempty] at ended
  | foreign short foreign =>
      rw [← List.append_assoc] at foreign ⊢
      have seen : ¬ Zstd.magic <+: buffer.unread ++ content := by
        rw [held]
        exact fun starts => foreign (starts.trans (List.prefix_append _ _))
      obtain ⟨encoding, absorbed, kept⟩ := absorb_uncompressed nonempty (Or.inr ⟨encoded, seen⟩)
      rw [held] at absorbed kept
      refine ⟨_, _, _, absorbed, ?_, by simp⟩
      rcases kept with rfl | ⟨_, rfl, short⟩
      · exact .plain _ _
      · exact .foreign short foreign
  | untouched starts decompresses =>
      have enough : Zstd.magic.length ≤ content.length := by
        rcases long with long | rfl
        · exact long
        · exact List.append_nil content ▸ starts.length_le
      have agree : ((content.zip Zstd.magic).any fun pair => pair.1 != pair.2) = false := by
        have alike := zip_all_of_prefix (List.prefix_append content left) starts
        simpa [List.all_eq_not_any_not, bne] using alike
      have decided : ¬ (content.take Zstd.magic.length).length < Zstd.magic.length := by
        rw [List.length_take]
        omega
      obtain ⟨sound, more, rfl, further⟩ := decompresses.follows.feed nonempty
      let fed := Decompressor.feed Decompressor.start content
      refine ⟨decide (0 < fed.output.length), fed.output, .compressed fed.state, ?_,
        .compressed _ further, fun ended => ?_⟩
      · simp only [absorb, encoded, absorbUndecided, held, List.nil_append, agree, sound]
        rw [if_neg (by simp), if_neg decided]
        rfl
      · simpa using ended
  | @compressed state _ _ _ follows =>
      obtain ⟨sound, more, rfl, further⟩ := follows.feed nonempty
      let fed := Decompressor.feed state content
      refine ⟨!fed.output.isEmpty, buffer.unread ++ fed.output, .compressed fed.state,
        by simp only [absorb, encoded, sound, fed], ?_, fun ended => ?_⟩
      · rw [held, ← List.append_assoc]
        exact .compressed _ further
      · rw [held]
        simpa using ended

/-- What a buffer which conveys a content collects.  Where that is nothing, the whole
content is there; everything else is taken. -/
theorem Conveys.exists_collect (conveys : buffer.Conveys bytes) :
    ∃ content rest,
      buffer.source.collect buffer.chunk = (.ok content, rest) ∧
      (content = [] →
        buffer.unread = bytes ∧ ({ buffer with source := rest } : Buffer).Conveys bytes) ∧
      (content ≠ [] → ∃ grown unread encoding,
        absorb { buffer with source := rest } content =
          (.ok grown, { buffer with source := rest, unread, encoding }) ∧
        ({ buffer with source := rest, unread, encoding } : Buffer).Conveys bytes ∧
        (grown = false → unread = buffer.unread)) := by
  obtain ⟨rest, collected, left, flawless, prompt⟩ :=
    Source.exists_collectFrom_of_prompt conveys.flawless conveys.prompt buffer.chunk []
  have least : 16 ≤ buffer.chunk := conveys.leastChunk_le
  -- a chunk which is shorter than the encoding takes is the rest of the source
  have long : 4 ≤ (buffer.source.content.take buffer.chunk).length ∨ rest.content = [] := by
    rw [left, List.length_take, List.drop_eq_nil_iff]
    omega
  have carries := conveys.carries
  rw [← List.take_append_drop buffer.chunk buffer.source.content, ← left] at carries
  refine ⟨_, rest, collected, fun nothing => ?_, fun nonempty => ?_⟩
  · have nothing : buffer.source.content.take buffer.chunk = [] := nothing
    have exhausted : rest.content = [] := long.resolve_left (by simp [nothing])
    rw [nothing, List.nil_append] at carries
    exact ⟨unread_eq_of_carries (exhausted ▸ carries),
      ⟨flawless, prompt, conveys.leastChunk_le, carries⟩⟩
  · let drained : Buffer := { buffer with source := rest }
    have carries : drained.encoding.Carries drained.unread (_ ++ rest.content) bytes := carries
    obtain ⟨grown, unread, encoding, absorbed, carried, same⟩ :=
      carries_of_absorb nonempty long carries
    exact ⟨grown, unread, encoding, absorbed,
      ⟨flawless, prompt, conveys.leastChunk_le, carried⟩, same⟩

/-- A fill of a buffer which conveys a content does not fail, and finds nothing only
where the whole content is there. -/
theorem conveys_of_fill (conveys : buffer.Conveys bytes) :
    ∃ grown later,
      buffer.fill = (.ok grown, later) ∧ later.Conveys bytes ∧ later.offset = buffer.offset ∧
      (grown = false → buffer.unread = bytes ∧ later.unread = bytes) := by
  fun_induction fill buffer with
  | case1 buffer reason rest failed =>
      obtain ⟨content, rest, collected, _⟩ := conveys.exists_collect
      cases failed.symm.trans collected
  | case2 buffer rest nothing =>
      obtain ⟨content, rest, collected, ended, _⟩ := conveys.exists_collect
      cases nothing.symm.trans collected
      obtain ⟨whole, conveys⟩ := ended rfl
      exact ⟨false, _, rfl, conveys, rfl, fun _ => ⟨whole, whole⟩⟩
  | case3 buffer byte content rest found next absorbed inductionHypothesis =>
      obtain ⟨content, rest, collected, _, taken⟩ := conveys.exists_collect
      cases found.symm.trans collected
      obtain ⟨grown, unread, encoding, same, conveys, unchanged⟩ := taken (List.cons_ne_nil _ _)
      obtain ⟨ungrown, rfl⟩ := Prod.mk.inj (absorbed.symm.trans same)
      obtain ⟨grown, later, filled, further, offset_eq, whole⟩ := inductionHypothesis conveys
      refine ⟨grown, later, filled, further, offset_eq, fun ended => ?_⟩
      rw [← unchanged (Except.ok.inj ungrown).symm]
      exact whole ended
  | case4 buffer byte content rest found answer next other absorbed =>
      obtain ⟨content, rest, collected, _, taken⟩ := conveys.exists_collect
      cases found.symm.trans collected
      obtain ⟨grown, unread, encoding, same, conveys, _⟩ := taken (List.cons_ne_nil _ _)
      obtain ⟨rfl, rfl⟩ := Prod.mk.inj (absorbed.symm.trans same)
      refine ⟨grown, _, rfl, conveys, rfl, ?_⟩
      rintro rfl
      exact absurd rfl other

/-- A reading of a buffer which conveys a content does not fail, and needs more only
where the whole content is there. -/
theorem conveys_of_readFrom {ε α : Type}
    (conveys : buffer.Conveys bytes)
    (skip : Nat)
    (progress : Reading.Progress ε α) :
    ∃ outcome later,
      buffer.readFrom skip progress = (.ok outcome, later) ∧ later.Conveys bytes ∧
      later.offset = buffer.offset ∧ (outcome = .incomplete → later.unread = bytes) := by
  fun_induction readFrom buffer skip progress with
  | case1 buffer progress further unfinished reason next filled =>
      obtain ⟨grown, later, answered, _⟩ := conveys_of_fill conveys
      cases filled.symm.trans answered
  | case2 buffer progress further unfinished next filled =>
      obtain ⟨grown, later, answered, still, offset_eq, whole⟩ := conveys_of_fill conveys
      cases filled.symm.trans answered
      exact ⟨.incomplete, next, rfl, still, offset_eq, fun _ => (whole rfl).2⟩
  | case3 buffer progress further unfinished next filled inductionHypothesis =>
      obtain ⟨grown, later, answered, still, offset_eq, _⟩ := conveys_of_fill conveys
      cases filled.symm.trans answered
      obtain ⟨outcome, last, read, conveyed, same, whole⟩ := inductionHypothesis still
      exact ⟨outcome, last, read, conveyed, same.trans offset_eq, whole⟩
  | case4 buffer progress further ended =>
      refine ⟨further.outcome, buffer, ?_, conveys, rfl, fun unended => absurd unended ended⟩
      cases known : further.outcome <;> simp_all

/-- A buffer which has decided on the encoding conveys what is behind the consumed
bytes. -/
theorem Conveys.consume
    {count : Nat}
    (conveys : buffer.Conveys bytes)
    (decided : buffer.encoding ≠ .undecided)
    (held : count ≤ buffer.unread.length) :
    (buffer.consume count).Conveys (bytes.drop count) := by
  refine ⟨conveys.flawless, conveys.prompt, conveys.leastChunk_le, ?_⟩
  have carries := conveys.carries
  simp only [Buffer.consume]
  generalize buffer.encoding = encoding, buffer.unread = unread, buffer.source.content = left
    at *
  cases carries with
  | plain =>
      rw [List.drop_append_of_le_length held]
      exact .plain _ _
  | foreign => exact absurd rfl decided
  | untouched => exact absurd rfl decided
  | compressed _ follows =>
      rw [List.drop_append_of_le_length held]
      exact .compressed _ follows

section Start

variable {source : Source}

/-- A buffer in front of an uncompressed stream conveys its bytes. -/
theorem conveys_start_of_plain
    (flawless : source.Flawless)
    (prompt : source.Prompt)
    (plain : ¬ Zstd.magic <+: source.content)
    (chunk : Nat) :
    (start source chunk).Conveys source.content where
  flawless := flawless
  prompt := prompt
  leastChunk_le := Nat.le_max_left _ _
  carries := .foreign (Nat.zero_lt_succ 3) plain

/-- A buffer in front of a compressed stream conveys the content to which it is
decompressed. -/
theorem conveys_start_of_decompresses
    (flawless : source.Flawless)
    (prompt : source.Prompt)
    (starts : Zstd.magic <+: source.content)
    (decompresses : Decompressor.Decompresses source.content bytes)
    (chunk : Nat) :
    (start source chunk).Conveys bytes where
  flawless := flawless
  prompt := prompt
  leastChunk_le := Nat.le_max_left _ _
  carries := .untouched starts decompresses

end Start

end Buffer
end Stream
end RuntimeLog
