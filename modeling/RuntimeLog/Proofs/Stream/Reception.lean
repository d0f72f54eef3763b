import RuntimeLog.Proofs.Stream.Buffering

/-!
# Reception of a stream

Every source hands out its bytes in order, but the bytes which a fill receives
in front of a failed read never get into the buffer: they are lost.  What a
buffer holds and what it may still take are the bytes of the stream but for the
lost ones.
-/

namespace RuntimeLog
namespace Stream

namespace Source

variable {source rest : Source} {capacity : Nat}

/-- A read hands out bytes from the front of the source. -/
theorem content_of_read_bytes
    {taken : Bytes}
    (answered : source.read capacity = (.bytes taken, rest)) :
    taken ++ rest.content = source.content := by
  unfold read at answered
  split at answered
  · cases answered
    rfl
  · rename_i whole tail queue
    simp only [Prod.mk.injEq, Answer.bytes.injEq] at answered
    obtain ⟨rfl, rfl⟩ := answered
    change _ ++ contentOf (remainder _ tail) = _
    rw [contentOf_remainder, ← List.append_assoc, List.take_append_drop, content, queue]
    rfl
  · cases answered
  · cases answered

/-- An interrupted read hands out nothing. -/
theorem content_of_read_interrupted
    (answered : source.read capacity = (.interrupted, rest)) :
    rest.content = source.content := by
  unfold read at answered
  split at answered <;> cases answered
  rename_i tail queue
  simp [content, queue, Arrival.content]

/-- A failed read hands out nothing. -/
theorem content_of_read_failed
    {reason : String}
    (answered : source.read capacity = (.failed reason, rest)) :
    rest.content = source.content := by
  unfold read at answered
  split at answered <;> cases answered
  rename_i tail queue
  simp [content, queue, Arrival.content]

/-- Collecting receives bytes from the front of the source.  Unless a read fails,
they are what is collected. -/
theorem received_of_collectFrom
    {received : Bytes}
    {answer : Except String Bytes}
    (collected : source.collectFrom capacity received = (answer, rest)) :
    ∃ taken, taken ++ rest.content = source.content ∧
      ∀ content, answer = .ok content → content = received.reverse ++ taken := by
  fun_induction collectFrom source capacity received with
  | case1 source received =>
      cases collected
      exact ⟨[], rfl, by simp⟩
  | case2 source capacity received positive left answered =>
      cases collected
      exact ⟨[], content_of_read_bytes answered, by simp⟩
  | case3 source capacity received positive byte more middle answered inductionHypothesis =>
      obtain ⟨taken, whole, gathered⟩ := inductionHypothesis collected
      refine ⟨byte :: more ++ taken, ?_, fun content same => ?_⟩
      · rw [List.append_assoc, whole, content_of_read_bytes answered]
      · simpa using gathered content same
  | case4 source capacity received positive middle answered inductionHypothesis =>
      obtain ⟨taken, whole, gathered⟩ := inductionHypothesis collected
      exact ⟨taken, whole.trans (content_of_read_interrupted answered), gathered⟩
  | case5 source capacity received positive reason left answered =>
      cases collected
      exact ⟨[], content_of_read_failed answered, by simp⟩

end Source

namespace Buffer

variable [Decompressor]

/-! ## The encoding -/

/-- As long as a buffer has not decided on the encoding, it holds fewer bytes than
the decision takes. -/
def Deciding (buffer : Buffer) : Prop :=
  buffer.encoding = .undecided → buffer.unread.length < Zstd.magic.length

/-- A buffer starts without bytes. -/
theorem deciding_start (source : Source) (chunk : Nat) : (start source chunk).Deciding :=
  fun _ => Nat.zero_lt_succ 3

/-- A chunk which is taken leaves too few bytes for the decision, or is enough for
it. -/
theorem deciding_of_absorb
    {buffer later : Buffer}
    {content : Bytes}
    {grown : Bool}
    (absorbed : buffer.absorb content = (.ok grown, later)) :
    later.Deciding := by
  intro undecided
  unfold absorb at absorbed
  split at absorbed
  · rename_i plain
    cases absorbed
    cases plain.symm.trans undecided
  · unfold absorbUndecided at absorbed
    dsimp only at absorbed
    split at absorbed
    · cases absorbed
      cases undecided
    · split at absorbed
      · rename_i short
        cases absorbed
        rw [List.length_take] at short
        change (buffer.unread ++ content).length < _
        omega
      · split at absorbed
        · cases absorbed
          cases undecided
        · cases absorbed
  · dsimp only at absorbed
    split at absorbed
    · cases absorbed
      cases undecided
    · cases absorbed

/-- A fill which does not fail leaves too few bytes for the decision, or is enough
for it. -/
theorem Deciding.fill
    {buffer later : Buffer}
    {grown : Bool}
    (deciding : buffer.Deciding)
    (filled : buffer.fill = (.ok grown, later)) :
    later.Deciding := by
  fun_induction Buffer.fill buffer with
  | case1 => cases filled
  | case2 =>
      cases filled
      exact deciding
  | case3 buffer byte content source collected middle absorbed inductionHypothesis =>
      exact inductionHypothesis (deciding_of_absorb absorbed) filled
  | case4 buffer byte content source collected answer middle other absorbed =>
      cases filled
      exact deciding_of_absorb absorbed

/-! ## Buffers which have decided -/

/-- A later state of a buffer which has decided on the encoding, and from which
nothing was consumed.  Some bytes were taken behind the unread ones, and some
bytes of the stream which come behind these were lost. -/
structure Receives (buffer : Buffer) (content lost : Bytes) (later : Buffer) : Prop where
  unread_eq : later.unread = buffer.unread ++ content
  offset_eq : later.offset = buffer.offset
  decided : later.encoding ≠ .undecided
  plain : buffer.encoding = .plain →
    later.encoding = .plain ∧ buffer.ahead = later.unread ++ (lost ++ later.source.content)

variable {buffer middle later : Buffer} {content first second lost : Bytes}

/-- A buffer which did nothing received nothing. -/
theorem Receives.refl (decided : buffer.encoding ≠ .undecided) :
    buffer.Receives [] [] buffer where
  unread_eq := (List.append_nil _).symm
  offset_eq := rfl
  decided := decided
  plain plain := ⟨plain, rfl⟩

/-- What a buffer receives first comes in front of what it receives then. -/
theorem Receives.trans
    (earlier : buffer.Receives first [] middle)
    (further : middle.Receives second lost later) :
    buffer.Receives (first ++ second) lost later where
  unread_eq := by rw [further.unread_eq, earlier.unread_eq, List.append_assoc]
  offset_eq := further.offset_eq.trans earlier.offset_eq
  decided := further.decided
  plain plain := by
    obtain ⟨still, whole⟩ := earlier.plain plain
    obtain ⟨stillLater, rest⟩ := further.plain still
    exact ⟨stillLater, by rw [whole, List.nil_append, ← ahead, rest]⟩

/-- A buffer of an uncompressed stream which lost nothing is in front of the same
bytes. -/
theorem Receives.sameAhead
    (receives : buffer.Receives content [] later)
    (plain : buffer.encoding = .plain) :
    buffer.SameAhead later where
  ahead_eq := (receives.plain plain).2.symm
  offset_eq := receives.offset_eq

/-- A decided buffer takes a chunk behind the unread bytes: as it is if the stream
is not compressed. -/
theorem receives_of_absorb
    {rest : Source}
    {chunk : Bytes}
    {answer : Except String Bool}
    (decided : buffer.encoding ≠ .undecided)
    (collected : buffer.source.collect buffer.chunk = (.ok chunk, rest))
    (absorbed : absorb { buffer with source := rest } chunk = (answer, later)) :
    ∃ content,
      buffer.Receives content [] later ∧
      (∀ grown, answer = .ok grown → grown = !content.isEmpty) ∧
      (buffer.encoding = .plain → ∀ reason, answer ≠ .error reason) := by
  obtain ⟨received, whole, gathered⟩ := Source.received_of_collectFrom collected
  obtain rfl : chunk = received := gathered chunk rfl
  unfold absorb at absorbed
  split at absorbed
  · cases absorbed
    refine ⟨chunk, ⟨rfl, rfl, decided, fun plain => ⟨plain, ?_⟩⟩, by simp, by simp⟩
    rw [ahead, ← whole]
    simp
  · rename_i undecided
    exact absurd undecided decided
  · rename_i decoder compressed
    have notPlain : buffer.encoding ≠ .plain := by
      intro plain
      cases plain.symm.trans compressed
    dsimp only at absorbed
    split at absorbed
    · cases absorbed
      exact ⟨_, ⟨rfl, rfl, by simp, fun plain => absurd plain notPlain⟩, by simp, by simp⟩
    · cases absorbed
      exact ⟨_, ⟨rfl, rfl, by simp, fun plain => absurd plain notPlain⟩, by simp,
        fun plain => absurd plain notPlain⟩

/-- A fill of a decided buffer takes bytes behind the unread ones.  Bytes are lost
only where it fails, and then none are taken from a stream which is not
compressed. -/
theorem receives_of_fill
    {answer : Except String Bool}
    (decided : buffer.encoding ≠ .undecided)
    (filled : buffer.fill = (answer, later)) :
    ∃ content lost,
      buffer.Receives content lost later ∧
      (∀ grown, answer = .ok grown → lost = [] ∧ grown = !content.isEmpty) ∧
      (buffer.encoding = .plain → ∀ reason, answer = .error reason → content = []) := by
  fun_induction fill buffer with
  | case1 buffer reason rest collected =>
      cases filled
      obtain ⟨lost, whole, _⟩ := Source.received_of_collectFrom collected
      refine ⟨[], lost, ⟨(List.append_nil _).symm, rfl, decided, fun plain => ⟨plain, ?_⟩⟩,
        by simp, fun _ _ _ => rfl⟩
      rw [ahead, whole]
  | case2 buffer rest collected =>
      cases filled
      obtain ⟨taken, whole, gathered⟩ := Source.received_of_collectFrom collected
      obtain rfl : [] = taken := gathered [] rfl
      refine ⟨[], [], ⟨(List.append_nil _).symm, rfl, decided, fun plain => ⟨plain, ?_⟩⟩,
        by simp, fun _ _ _ => rfl⟩
      rw [ahead, ← whole]
  | case3 buffer byte more rest collected grown absorbed inductionHypothesis =>
      obtain ⟨content, step, grows, _⟩ := receives_of_absorb decided collected absorbed
      obtain rfl : content = [] := by simpa using (grows false rfl).symm
      obtain ⟨content, lost, receives, whether, none⟩ := inductionHypothesis step.decided filled
      exact ⟨content, lost, step.trans receives, whether,
        fun plain => none (step.plain plain).1⟩
  | case4 buffer byte more rest collected answer grown other absorbed =>
      cases filled
      obtain ⟨content, step, grows, sound⟩ := receives_of_absorb decided collected absorbed
      exact ⟨content, [], step, fun grown same => ⟨rfl, grows grown same⟩,
        fun plain reason failed => absurd failed (sound plain reason)⟩

/-- A reading sees the unread bytes as if all of them had been there from the
start.  Where a read of a stream which is not compressed fails, it needs more
than there is. -/
theorem receives_of_readFrom {ε α : Type}
    {skip : Nat}
    {reading : Reading ε α}
    {progress : Reading.Progress ε α}
    {answer : Except String (Outcome ε α)}
    (decided : buffer.encoding ≠ .undecided)
    (behind : skip ≤ buffer.unread.length)
    (resumes : reading.Resumes (buffer.offset + skip) (buffer.unread.drop skip) progress)
    (answered : buffer.readFrom skip progress = (answer, later)) :
    ∃ content lost,
      buffer.Receives content lost later ∧
      (∀ outcome, answer = .ok outcome → lost = [] ∧
        reading.run (buffer.offset + skip) (later.unread.drop skip) = outcome) ∧
      (buffer.encoding = .plain → ∀ reason, answer = .error reason →
        reading.run (buffer.offset + skip) (later.unread.drop skip) = .incomplete) := by
  fun_induction readFrom buffer skip progress with
  | case1 buffer progress further unfinished reason next filled =>
      cases answered
      obtain ⟨content, lost, receives, _, none⟩ := receives_of_fill decided filled
      refine ⟨content, lost, receives, by simp, fun plain _ _ => ?_⟩
      rw [receives.unread_eq, none plain reason rfl, List.append_nil, ← resumes.outcome_eq,
        List.drop_drop]
      exact unfinished
  | case2 buffer progress further unfinished next filled =>
      cases answered
      obtain ⟨content, lost, receives, whether, _⟩ := receives_of_fill decided filled
      obtain ⟨rfl, empty⟩ := whether false rfl
      obtain rfl : content = [] := by simpa using empty.symm
      refine ⟨[], [], receives, fun outcome same => ⟨rfl, ?_⟩, by simp⟩
      cases same
      rw [receives.unread_eq, List.append_nil, ← resumes.outcome_eq, List.drop_drop]
      exact unfinished
  | case3 buffer progress further unfinished next filled inductionHypothesis =>
      obtain ⟨content, lost, receives, whether, _⟩ := receives_of_fill decided filled
      obtain ⟨rfl, _⟩ := whether true rfl
      have resumed := resumes.advance.append content
      rw [List.drop_drop, ← List.drop_append_of_le_length behind, ← receives.unread_eq] at resumed
      have stillBehind : skip ≤ next.unread.length := by
        rw [receives.unread_eq, List.length_append]
        omega
      obtain ⟨more, gone, further, ended, failed⟩ :=
        inductionHypothesis receives.decided stillBehind
          (by rw [receives.offset_eq]; exact resumed) answered
      rw [receives.offset_eq] at ended failed
      exact ⟨content ++ more, gone, receives.trans further, ended,
        fun plain => failed (receives.plain plain).1⟩
  | case4 buffer progress further ended =>
      cases answered
      refine ⟨[], [], .refl decided, fun outcome same => ⟨rfl, ?_⟩, by simp⟩
      cases same
      rw [← resumes.outcome_eq, List.drop_drop]

end Buffer
end Stream
end RuntimeLog
