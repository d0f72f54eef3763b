import RuntimeLog.Stream.Buffer

/-!
# Delivery of a stream

A source without failures delivers its bytes in order, in whatever pieces they
arrive and however often a read is interrupted or finds no bytes for now.  A
buffer in front of such a source, whose bytes do not start like a compressed
stream, passes them on unchanged.
-/

namespace RuntimeLog
namespace Stream

/-- The bytes of an arrival. -/
def Arrival.content : Arrival → Bytes
  | .bytes content => content
  | .interruption => []
  | .failure _ => []

/-- The bytes of arrivals one after the other. -/
def contentOf (arrivals : List Arrival) : Bytes :=
  arrivals.flatMap Arrival.content

@[simp] theorem contentOf_nil : contentOf [] = [] := rfl

@[simp] theorem contentOf_cons (arrival : Arrival) (arrivals : List Arrival) :
    contentOf (arrival :: arrivals) = arrival.content ++ contentOf arrivals := rfl

@[simp] theorem contentOf_append (earlier later : List Arrival) :
    contentOf (earlier ++ later) = contentOf earlier ++ contentOf later := by
  simp [contentOf]

/-- The bytes which arrive before a read finds none for the first time. -/
def unpaused : List Arrival → Bytes
  | [] => []
  | .bytes [] :: _ => []
  | .bytes (byte :: content) :: rest => byte :: content ++ unpaused rest
  | .interruption :: rest => unpaused rest
  | .failure _ :: _ => []

/-- No bytes arrive before the first pause but those which arrive at all. -/
theorem unpaused_le_contentOf (arrivals : List Arrival) :
    unpaused arrivals <+: contentOf arrivals := by
  fun_induction unpaused arrivals with
  | case1 => exact List.nil_prefix
  | case2 => exact List.nil_prefix
  | case3 byte content rest inductionHypothesis =>
      exact (List.prefix_append_right_inj _).mpr inductionHypothesis
  | case4 rest inductionHypothesis => exact inductionHypothesis
  | case5 => exact List.nil_prefix

/-- The queue behind a read which left some bytes of the first arrival. -/
def remainder (left : Bytes) (rest : List Arrival) : List Arrival :=
  if left.isEmpty then rest else .bytes left :: rest

@[simp] theorem contentOf_remainder (left : Bytes) (rest : List Arrival) :
    contentOf (remainder left rest) = left ++ contentOf rest := by
  cases left <;> simp [remainder, Arrival.content]

@[simp] theorem unpaused_remainder (left : Bytes) (rest : List Arrival) :
    unpaused (remainder left rest) = left ++ unpaused rest := by
  cases left <;> simp [remainder, unpaused]

namespace Source

/-- The bytes which are still to arrive. -/
def content (source : Source) : Bytes :=
  contentOf source.queue

/-- A source none of whose reads fails, and whose reads hand out something. -/
structure Flawless (source : Source) : Prop where
  limit_ne_zero : source.limit ≠ some 0
  no_failure : ∀ reason, .failure reason ∉ source.queue

/-- A source all of whose bytes arrive before a read finds none. -/
def Prompt (source : Source) : Prop :=
  unpaused source.queue = source.content

@[simp] theorem content_ofBytes (content : Bytes) : (ofBytes content).content = content := by
  simp [Source.content, ofBytes, Arrival.content]

/-- A source which holds all bytes does not pause before the end. -/
theorem prompt_ofBytes (content : Bytes) : (ofBytes content).Prompt := by
  cases content with
  | nil => rfl
  | cons byte content => simp [Prompt, Source.content, ofBytes, unpaused, Arrival.content]

/-- The source which holds all bytes delivers them without failure. -/
theorem flawless_ofBytes (content : Bytes) : (ofBytes content).Flawless where
  limit_ne_zero := by simp [ofBytes]
  no_failure reason := by simp [ofBytes]

/-- A source stays flawless when something which is no failure arrives. -/
theorem Flawless.push
    {source : Source}
    (flawless : source.Flawless)
    {arrival : Arrival}
    (sound : ∀ reason, arrival ≠ .failure reason) :
    (source.push arrival).Flawless where
  limit_ne_zero := flawless.limit_ne_zero
  no_failure reason := by
    simp only [Source.push, List.mem_append, List.mem_singleton, not_or]
    exact ⟨flawless.no_failure reason, (sound reason).symm⟩

@[simp] theorem content_push (source : Source) (arrival : Arrival) :
    (source.push arrival).content = source.content ++ arrival.content := by
  simp [content, Source.push]

/-- What is known after some bytes were taken from the front of a source. -/
structure Delivers (source : Source) (taken : Bytes) (rest : Source) : Prop where
  flawless : rest.Flawless
  content_eq : taken ++ rest.content = source.content
  /-- What was at hand before the first pause still is. -/
  unpaused_le : unpaused source.queue <+: taken ++ unpaused rest.queue

/-- Taking nothing leaves everything. -/
theorem Delivers.refl {source : Source} (flawless : source.Flawless) :
    source.Delivers [] source where
  flawless := flawless
  content_eq := rfl
  unpaused_le := List.prefix_rfl

/-- Bytes taken in two steps are taken in one. -/
theorem Delivers.trans
    {source middle rest : Source}
    {first second : Bytes}
    (earlier : source.Delivers first middle)
    (later : middle.Delivers second rest) :
    source.Delivers (first ++ second) rest where
  flawless := later.flawless
  content_eq := by rw [List.append_assoc, later.content_eq, earlier.content_eq]
  unpaused_le := by
    rw [List.append_assoc]
    exact earlier.unpaused_le.trans ((List.prefix_append_right_inj _).mpr later.unpaused_le)

/-- A read may hand out at least one byte. -/
theorem count_pos
    {source : Source}
    {capacity : Nat}
    (flawless : source.Flawless)
    (positive : capacity ≠ 0) :
    0 < min capacity (source.limit.getD capacity) := by
  have limited := flawless.limit_ne_zero
  cases bound : source.limit with
  | none =>
      rw [Option.getD_none]
      omega
  | some limit =>
      have : limit ≠ 0 := fun zero => limited (by rw [bound, zero])
      rw [Option.getD_some]
      omega

/-- A read hands out bytes from the front of the source, and none only where the
source pauses or ends. -/
theorem delivers_of_read_bytes
    {source rest : Source}
    {capacity : Nat}
    {taken : Bytes}
    (flawless : source.Flawless)
    (positive : capacity ≠ 0)
    (answered : source.read capacity = (.bytes taken, rest)) :
    source.Delivers taken rest ∧
      (taken = [] → unpaused source.queue = [] ∧
        (rest.queue = [] ∨ rest.size < source.size)) := by
  unfold read at answered
  split at answered
  · rename_i queue
    cases answered
    exact ⟨.refl flawless, fun _ => by simp [queue, unpaused]⟩
  · rename_i whole tail queue
    simp only [Prod.mk.injEq, Answer.bytes.injEq] at answered
    obtain ⟨rfl, rfl⟩ := answered
    have noFailure : ∀ reason, .failure reason ∉ tail := fun reason member =>
      flawless.no_failure reason (by simp [queue, member])
    have handsOut := count_pos flawless positive
    generalize min capacity (source.limit.getD capacity) = count at *
    cases whole with
    | nil =>
        refine ⟨⟨⟨flawless.limit_ne_zero, ?_⟩, ?_, ?_⟩, fun _ => ⟨?_, Or.inr ?_⟩⟩
        · simpa using noFailure
        · simp [content, queue, Arrival.content]
        · simp [queue, unpaused]
        · simp [queue, unpaused]
        · simp [size, queue, weight]
    | cons byte more =>
        have left : ∀ pieces, (byte :: more).take count ++ ((byte :: more).drop count ++ pieces) =
            byte :: more ++ pieces := fun pieces => by
          rw [← List.append_assoc, List.take_append_drop]
        refine ⟨⟨⟨flawless.limit_ne_zero, fun reason => ?_⟩, ?_, ?_⟩, fun none => ?_⟩
        · split
          · exact noFailure reason
          · simpa using noFailure reason
        · change _ ++ contentOf (remainder _ tail) = _
          rw [contentOf_remainder, left, content, queue]
          rfl
        · change _ <+: _ ++ unpaused (remainder _ tail)
          rw [unpaused_remainder, left, queue]
          exact List.prefix_rfl
        · obtain ⟨count, rfl⟩ := Nat.exists_eq_succ_of_ne_zero (Nat.ne_of_gt handsOut)
          cases none
  · cases answered
  · cases answered

/-- An interrupted read takes nothing from the source. -/
theorem delivers_of_read_interrupted
    {source rest : Source}
    {capacity : Nat}
    (flawless : source.Flawless)
    (answered : source.read capacity = (.interrupted, rest)) :
    source.Delivers [] rest := by
  unfold read at answered
  split at answered <;> cases answered
  rename_i tail queue
  refine ⟨⟨flawless.limit_ne_zero, fun reason member => ?_⟩, ?_, ?_⟩
  · exact flawless.no_failure reason (by simp [queue, member])
  · simp [content, queue, Arrival.content]
  · simp [queue, unpaused]

/-- No read of a flawless source fails. -/
theorem read_ne_failed
    {source rest : Source}
    {capacity : Nat}
    {reason : String}
    (flawless : source.Flawless) :
    source.read capacity ≠ (.failed reason, rest) := by
  intro answered
  unfold read at answered
  split at answered <;> cases answered
  rename_i queue
  exact flawless.no_failure reason (by simp [queue])

/-- Collecting takes bytes from the front of the source, and only finds none
where a read does. -/
theorem delivers_of_collectFrom
    {source : Source}
    (flawless : source.Flawless)
    (capacity : Nat)
    (received : Bytes) :
    ∃ taken rest,
      source.collectFrom capacity received = (.ok (received.reverse ++ taken), rest) ∧
      source.Delivers taken rest ∧
      (capacity ≠ 0 → taken = [] → unpaused source.queue = [] ∧
        (rest.queue = [] ∨ rest.size < source.size)) := by
  fun_induction collectFrom source capacity received with
  | case1 source received =>
      exact ⟨[], source, by simp, .refl flawless, fun positive => absurd rfl positive⟩
  | case2 source capacity received positive rest answered =>
      have step := delivers_of_read_bytes flawless positive answered
      exact ⟨[], rest, by simp, step.1, fun _ => step.2⟩
  | case3 source capacity received positive byte more middle answered inductionHypothesis =>
      have step := (delivers_of_read_bytes flawless positive answered).1
      obtain ⟨taken, rest, collected, delivers, _⟩ := inductionHypothesis step.flawless
      refine ⟨byte :: more ++ taken, rest, ?_, step.trans delivers, fun _ none => ?_⟩
      · simpa using collected
      · simp at none
  | case4 source capacity received positive middle answered inductionHypothesis =>
      have step := delivers_of_read_interrupted flawless answered
      have smaller := size_of_read_interrupted answered
      obtain ⟨taken, rest, collected, delivers, nothing⟩ := inductionHypothesis step.flawless
      refine ⟨taken, rest, collected, step.trans delivers, ?_⟩
      intro _ none
      obtain ⟨paused, left⟩ := nothing positive none
      have held := step.unpaused_le
      rw [List.nil_append, paused, List.prefix_nil] at held
      exact ⟨held, left.imp id fun less => by omega⟩
  | case5 source capacity received positive reason rest answered =>
      exact absurd answered (read_ne_failed flawless)

end Source
end Stream
end RuntimeLog
