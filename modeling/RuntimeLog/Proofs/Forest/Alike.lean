import RuntimeLog.Proofs.Forest.Atomicity
import RuntimeLog.Proofs.Forest.Masks
import RuntimeLog.Proofs.Jitlog.Places

/-!
# Forests which are alike

Two forests are alike if they tell the same about the traces.  Their headers, the
offsets up to which the logs were decoded and the faults which ended decoding may
differ.  No record sees the difference.
-/

namespace RuntimeLog

open RuntimeLog.Update

namespace Forest

/-- Forests which tell the same about the traces of logs with other headers and
lengths. -/
structure Alike (left right : Forest) : Prop where
  traces_eq : left.traces = right.traces
  current_eq : left.current = right.current
  opcodes_eq : left.opcodes = right.opcodes
  byStart_eq : left.byStart = right.byStart
  descriptorPoints_eq : left.descriptorPoints = right.descriptorPoints
  labels_eq : left.labels = right.labels
  jumps_eq : left.jumps = right.jumps
  counterPoints_eq : left.counterPoints = right.counterPoints
  patches_eq : left.patches = right.patches
  sourceCache_eq : left.sourceCache = right.sourceCache
  time_eq : left.time = right.time
  anomalies_eq : left.anomalies = right.anomalies

/-- A forest with another label: a header, an offset up to which the log was
decoded, and a fault. -/
def relabel (header : Header) (decodedUntil : Nat) (fault : Option Fault) (forest : Forest) :
    Forest :=
  { forest with header, decodedUntil, fault }

variable {left right forest : Forest}
variable {header : Header} {decodedUntil : Nat} {fault : Option Fault}

/-- Forests are alike if one is the other with the label of the one. -/
theorem alike_iff :
    left.Alike right ↔ right = left.relabel right.header right.decodedUntil right.fault := by
  constructor
  · intro alike
    cases left
    cases right
    obtain ⟨rfl, rfl, rfl, rfl, rfl, rfl, rfl, rfl, rfl, rfl, rfl, rfl⟩ := alike
    rfl
  · intro same
    rw [same]
    exact ⟨rfl, rfl, rfl, rfl, rfl, rfl, rfl, rfl, rfl, rfl, rfl, rfl⟩

theorem Alike.refl (forest : Forest) : forest.Alike forest :=
  ⟨rfl, rfl, rfl, rfl, rfl, rfl, rfl, rfl, rfl, rfl, rfl, rfl⟩

theorem Alike.symm (alike : left.Alike right) : right.Alike left := by
  rw [alike_iff.mp alike]
  exact ⟨rfl, rfl, rfl, rfl, rfl, rfl, rfl, rfl, rfl, rfl, rfl, rfl⟩

/-- Forests without records are alike. -/
theorem alike_start (header other : Header) : (start header).Alike (start other) :=
  ⟨rfl, rfl, rfl, rfl, rfl, rfl, rfl, rfl, rfl, rfl, rfl, rfl⟩

/-! ## Guises -/

/-- What no record sees of a forest. -/
structure Guise where
  header : Header → Header
  decodedUntil : Nat → Nat
  fault : Option Fault → Option Fault
  /-- Anomalies which were noted before all others, newest first. -/
  older : List Anomaly

/-- A forest in a guise. -/
def disguise (guise : Guise) (forest : Forest) : Forest :=
  { forest with
    header := guise.header forest.header
    decodedUntil := guise.decodedUntil forest.decodedUntil
    fault := guise.fault forest.fault
    anomalies := ⟨forest.anomalies.newestFirst ++ guise.older⟩ }

/-- The guise of a label. -/
def Guise.label (header : Header) (decodedUntil : Nat) (fault : Option Fault) : Guise where
  header _ := header
  decodedUntil _ := decodedUntil
  fault _ := fault
  older := []

/-- The guise of anomalies which were noted before all others, newest first. -/
def Guise.noted (older : List Anomaly) : Guise where
  header := id
  decodedUntil := id
  fault := id
  older := older

/-- A forest with another label is the forest in a guise. -/
theorem relabel_eq_disguise :
    relabel header decodedUntil fault = disguise (.label header decodedUntil fault) := by
  funext forest
  unfold relabel disguise Guise.label
  simp only [List.append_nil]

variable {guise : Guise}

/-- A guise as a mask which hides nothing of the traces. -/
def Guise.toMask (guise : Guise) : Mask where
  enterCount := id
  enterCount_start := rfl
  pointCounts := id
  pointCounts_start := rfl
  aborted := id
  aborted_start := rfl
  header := guise.header
  patches := id
  sourceCache := id
  time := id
  decodedUntil := guise.decodedUntil
  fault := guise.fault
  older := guise.older

theorem disguise_eq_mask : disguise guise = mask guise.toMask := by
  funext forest
  have traces : forest.traces.newestFirst.map (Trace.mask guise.toMask) =
      forest.traces.newestFirst := List.map_id _
  unfold disguise mask
  rw [traces]
  rfl

/-! ## Records -/

theorem addCounter_disguise (number : UInt64) (kind : UInt8) (count : UInt64) (forest : Forest) :
    (forest.disguise guise).addCounter number kind count =
      (forest.addCounter number kind count).disguise guise := by
  have same : (forest.disguise guise).creditedPoint? number kind =
      forest.creditedPoint? number kind := rfl
  unfold addCounter
  rw [same]
  cases forest.creditedPoint? number kind <;> rfl

theorem abortTrace_disguise (id : UInt64) (forest : Forest) :
    (forest.disguise guise).abortTrace id =
      (forest.abortTrace id).disguise guise := by
  have same : (forest.disguise guise).trace? id = forest.trace? id := rfl
  unfold abortTrace
  rw [same]
  cases forest.trace? id <;> rfl

/-- No record sees the guise of a forest, or changes it. -/
theorem ignores_apply (offset : Nat) (record : Jitlog.Record) :
    (Jitlog.apply offset record).Ignores (disguise guise) := by
  cases record with
  | counter number kind count => exact ignores_modify (addCounter_disguise number kind count)
  | abortTrace id => exact ignores_modify (abortTrace_disguise id)
  | sourceLines file lines => exact ignores_modify fun _ => rfl
  | patch address bytes => exact ignores_modify fun _ => rfl
  | _ =>
      rw [disguise_eq_mask]
      exact ignores_mask rfl offset

/-- A record does the same to forests which are alike. -/
theorem Alike.apply
    {record : Jitlog.Record}
    {offset : Nat}
    {next : Forest}
    (alike : left.Alike right)
    (applied : (Jitlog.apply offset record).run left = .ok () next)
    (other : Nat) :
    ∃ after, (Jitlog.apply other record).run right = .ok () after ∧ next.Alike after := by
  have ignores := @ignores_apply (.label right.header right.decodedUntil right.fault)
  rw [← relabel_eq_disguise] at ignores
  have same := ignores other record left
  rw [← alike_iff.mp alike, Jitlog.apply_offset applied other] at same
  exact ⟨_, same, alike_iff.mpr rfl⟩

/-- Forests stay alike when the end of a record is noted. -/
theorem Alike.advance (alike : left.Alike right) (behind other : Nat) :
    (Jitlog.format.advance left behind).Alike (Jitlog.format.advance right other) := by
  rw [alike_iff.mp alike]
  exact ⟨rfl, rfl, rfl, rfl, rfl, rfl, rfl, rfl, rfl, rfl, rfl, rfl⟩

/-- Forests stay alike when a fault is noted. -/
theorem Alike.stop (alike : left.Alike right) (fault other : Fault) :
    (Jitlog.format.stop left fault).Alike (Jitlog.format.stop right other) := by
  rw [alike_iff.mp alike]
  exact ⟨rfl, rfl, rfl, rfl, rfl, rfl, rfl, rfl, rfl, rfl, rfl, rfl⟩

end Forest
end RuntimeLog
