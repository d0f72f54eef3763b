import RuntimeLog.Proofs.Forest.Outline

/-!
# Ties of traces

The ties of a trace are its links and the counters of its operations: what ties
it to points of other traces and of itself.  Three sorts of records change the
ties of a forest.
-/

namespace RuntimeLog

/-- Whether a record is about links or counters. -/
def Jitlog.Record.isTying : Jitlog.Record → Bool
  | .stitchBridge .. | .counter .. | .redirect .. => true
  | _ => false

/-- What ties a trace to points. -/
structure Trace.Ties where
  linksOut : List TraceLink
  linksIn : List TraceLink
  pointCounts : Std.ExtTreeMap OpRef UInt64 compare

/-- The ties of a trace. -/
def Trace.ties (trace : Trace) : Ties :=
  { linksOut := trace.linksOut.toList
    linksIn := trace.linksIn.toList
    pointCounts := trace.pointCounts }

namespace Forest

/-- The ties of the trace with an id.  There are none without such a trace. -/
def ties (forest : Forest) (id : UInt64) : Trace.Ties :=
  (forest.trace? id).elim { linksOut := [], linksIn := [], pointCounts := ∅ } Trace.ties

/-- The links out of the trace with an id. -/
def linksOut (forest : Forest) (id : UInt64) : List TraceLink :=
  (forest.ties id).linksOut

/-- The links into the trace with an id. -/
def linksIn (forest : Forest) (id : UInt64) : List TraceLink :=
  (forest.ties id).linksIn

variable {forest next : Forest}

/-- A trace which is found has the ties of its id. -/
theorem ties_of_trace? {id : UInt64} {trace : Trace} (found : forest.trace? id = some trace) :
    forest.ties id = trace.ties := by
  unfold ties
  rw [found]
  rfl

/-- A trace with links of some direction is there. -/
theorem exists_trace_of_mem
    (links : Trace.Ties → List TraceLink)
    (untied : links { linksOut := [], linksIn := [], pointCounts := ∅ } = [])
    {id : UInt64}
    {link : TraceLink}
    (member : link ∈ links (forest.ties id)) :
    ∃ trace, forest.trace? id = some trace := by
  cases found : forest.trace? id with
  | some trace => exact ⟨trace, rfl⟩
  | none =>
      unfold ties at member
      rw [found, Option.elim_none, untied] at member
      cases member

/-- An id without a trace is not the one of a trace. -/
theorem ne_of_unknown
    {id other : UInt64}
    (unknown : forest.trace? id = none)
    (known : (forest.trace? other).isSome) :
    id ≠ other := by
  rintro rfl
  rw [unknown] at known
  cases known

/-! ## Changes of ties -/

/-- The ties of a changed trace, and those of the others. -/
theorem ties_modifyTrace
    {change : Trace → Trace}
    (same : ∀ trace, (change trace).id = trace.id)
    (forest : Forest)
    (id other : UInt64) :
    (forest.modifyTrace id change).ties other =
      (forest.trace? other).elim { linksOut := [], linksIn := [], pointCounts := ∅ } fun trace =>
        if other = id then (change trace).ties else trace.ties := by
  unfold ties
  rw [trace?_modifyTrace same]
  cases forest.trace? other with
  | none => rfl
  | some trace =>
      simp only [Option.map_some, Option.elim_some]
      split <;> rfl

/-- A change of a trace which keeps its ties does not change those of the forest. -/
theorem ties_modifyTrace_of_same
    {change : Trace → Trace}
    (same : ∀ trace, (change trace).id = trace.id)
    (kept : ∀ trace, (change trace).ties = trace.ties)
    (forest : Forest)
    (id : UInt64) :
    (forest.modifyTrace id change).ties = forest.ties := by
  funext other
  rw [ties_modifyTrace same]
  simp only [kept, ite_self]
  rfl

/-- A change of a stage does not change the ties. -/
theorem ties_modifyStage
    (forest : Forest)
    (id : UInt64)
    (kind : StageKind)
    (change : Stage → Stage) :
    (forest.modifyStage id kind change).ties = forest.ties :=
  ties_modifyTrace_of_same (by intro _; rfl) (by intro _; rfl) _ _

/-- Registering a descriptor changes no more than the index and the anomalies. -/
theorem exists_registerDescriptor_eq
    (forest : Forest)
    (descriptor : UInt64)
    (point : TracePoint) :
    ∃ descriptorPoints anomalies,
      forest.registerDescriptor descriptor point =
        { forest with descriptorPoints, anomalies } := by
  unfold registerDescriptor
  split <;> exact ⟨_, _, rfl⟩

/-- Indexing an operation changes no more than the indexes and the anomalies. -/
theorem exists_indexNext_eq
    (forest : Forest)
    (point : TracePoint)
    (name : String)
    (descriptor : Option UInt64)
    (counted : Option Descriptor) :
    ∃ descriptorPoints labels jumps counterPoints anomalies,
      forest.indexNext point name descriptor counted =
        { forest with descriptorPoints, labels, jumps, counterPoints, anomalies } := by
  have indexed (number : UInt64) :
      ∃ descriptorPoints labels jumps anomalies,
        forest.indexDescriptor number name point =
          { forest with descriptorPoints, labels, jumps, anomalies } := by
    obtain ⟨descriptorPoints, anomalies, registered⟩ :=
      exists_registerDescriptor_eq forest number point
    unfold indexDescriptor
    rw [registered]
    dsimp only
    split
    · exact ⟨_, _, _, _, rfl⟩
    · split <;> exact ⟨_, _, _, _, rfl⟩
  unfold indexNext
  cases descriptor with
  | none => cases counted <;> exact ⟨_, _, _, _, _, rfl⟩
  | some number =>
      obtain ⟨descriptorPoints, labels, jumps, anomalies, same⟩ := indexed number
      dsimp only
      rw [same]
      cases counted <;> exact ⟨_, _, _, _, _, rfl⟩

/-- The traces do not change when a descriptor is registered. -/
theorem traces_registerDescriptor
    (forest : Forest)
    (descriptor : UInt64)
    (point : TracePoint) :
    (forest.registerDescriptor descriptor point).traces = forest.traces := by
  obtain ⟨_, _, same⟩ := exists_registerDescriptor_eq forest descriptor point
  rw [same]

/-- The traces do not change when an operation is indexed. -/
theorem traces_indexNext
    (forest : Forest)
    (point : TracePoint)
    (name : String)
    (descriptor : Option UInt64)
    (counted : Option Descriptor) :
    (forest.indexNext point name descriptor counted).traces = forest.traces := by
  obtain ⟨_, _, _, _, _, same⟩ := exists_indexNext_eq forest point name descriptor counted
  rw [same]

/-- The ties are those of the traces. -/
theorem ties_congr (same : next.traces = forest.traces) : next.ties = forest.ties := by
  funext id
  unfold ties trace?
  rw [same]

/-- Setting bounds changes no more of the traces than these. -/
theorem traces_place (forest : Forest) (id start finish : UInt64) :
    (forest.place id start finish).traces =
      (forest.modifyTrace id fun trace =>
        { trace with bounds := some (start, finish) }).traces := by
  unfold place
  dsimp only
  split
  · split <;> rfl
  · rfl

/-- Bounds do not change the ties. -/
theorem ties_place (forest : Forest) (id start finish : UInt64) :
    (forest.place id start finish).ties = forest.ties :=
  (ties_congr (traces_place forest id start finish)).trans
    (ties_modifyTrace_of_same (by intro _; rfl) (by intro _; rfl) _ _)

/-- Nothing is tied to a started trace. -/
theorem ties_push_start
    {id attachedDescriptor : UInt64}
    {kind : TraceKind}
    {driver : Option String}
    (new : forest.trace? id = none) :
    ties { forest with
        traces := forest.traces.push (.start id kind attachedDescriptor driver)
        current := some id } = forest.ties := by
  funext other
  unfold ties
  rw [trace?_push]
  by_cases equal : id = other
  · subst equal
    rw [new]
    simp only [Trace.start, if_true, Option.elim_some, Option.elim_none]
    rfl
  · rw [if_neg (by exact equal)]

/-! ## Links -/

/-- The ties of traces after two points were linked. -/
theorem ties_link (forest : Forest) (origin target : TracePoint) (id : UInt64) :
    (forest.link origin target).ties id =
      (forest.trace? id).elim { linksOut := [], linksIn := [], pointCounts := ∅ } fun trace =>
        { linksOut :=
            if id = origin.trace then trace.linksOut.toList ++ [TraceLink.mk origin target]
            else trace.linksOut.toList
          linksIn :=
            if id = target.trace then trace.linksIn.toList ++ [TraceLink.mk origin target]
            else trace.linksIn.toList
          pointCounts := trace.pointCounts } := by
  unfold link
  dsimp only
  rw [ties_modifyTrace (by intro _; rfl), trace?_modifyTrace (by intro _; rfl)]
  cases forest.trace? id with
  | none => rfl
  | some trace =>
      simp only [Option.map_some, Option.elim_some, Trace.ties]
      split <;> split <;> simp

/-- A link is appended to the links out of the trace of its origin. -/
theorem linksOut_link
    {origin : TracePoint}
    (known : (forest.trace? origin.trace).isSome)
    (target : TracePoint)
    (id : UInt64) :
    (forest.link origin target).linksOut id =
      forest.linksOut id ++ if id = origin.trace then [TraceLink.mk origin target] else [] := by
  unfold linksOut
  rw [ties_link]
  unfold ties
  cases found : forest.trace? id with
  | none => simp [ne_of_unknown found known]
  | some trace =>
      simp only [Option.elim_some, Trace.ties]
      split <;> simp

/-- A link is appended to the links into the trace of its target. -/
theorem linksIn_link
    {target : TracePoint}
    (known : (forest.trace? target.trace).isSome)
    (origin : TracePoint)
    (id : UInt64) :
    (forest.link origin target).linksIn id =
      forest.linksIn id ++ if id = target.trace then [TraceLink.mk origin target] else [] := by
  unfold linksIn
  rw [ties_link]
  unfold ties
  cases found : forest.trace? id with
  | none => simp [ne_of_unknown found known]
  | some trace =>
      simp only [Option.elim_some, Trace.ties]
      split <;> simp

/-- A link which is new was made. -/
theorem mem_links_link
    {origin target : TracePoint}
    {id : UInt64}
    {link : TraceLink}
    (member : link ∈ (forest.link origin target).linksOut id ++
      (forest.link origin target).linksIn id) :
    link ∈ forest.linksOut id ++ forest.linksIn id ∨ link = TraceLink.mk origin target := by
  unfold linksOut linksIn at member ⊢
  rw [ties_link] at member
  unfold ties
  cases found : forest.trace? id with
  | none =>
      rw [found] at member
      exact Or.inl member
  | some trace =>
      rw [found] at member
      simp only [Option.elim_some, Trace.ties, List.mem_append] at member ⊢
      rcases member with leads | comes
      · split at leads
        · rcases List.mem_append.mp leads with old | new
          · exact Or.inl (Or.inl old)
          · exact Or.inr (List.mem_singleton.mp new)
        · exact Or.inl (Or.inl leads)
      · split at comes
        · rcases List.mem_append.mp comes with old | new
          · exact Or.inl (Or.inr old)
          · exact Or.inr (List.mem_singleton.mp new)
        · exact Or.inl (Or.inr comes)

/-- Links do not change what counters there are. -/
theorem pointCounts_link (forest : Forest) (origin target : TracePoint) (id : UInt64) :
    ((forest.link origin target).ties id).pointCounts = (forest.ties id).pointCounts := by
  rw [ties_link]
  unfold ties
  cases forest.trace? id <;> rfl

/-- The ties of traces after a link was dropped at its target. -/
theorem ties_dropIncoming (forest : Forest) (link : TraceLink) (id : UInt64) :
    (forest.dropIncoming link).ties id =
      { forest.ties id with
        linksIn := (forest.linksIn id).filter fun other =>
          !(other == link && id == link.target.trace) } := by
  unfold dropIncoming
  rw [ties_modifyTrace (by intro _; rfl)]
  unfold linksIn ties
  cases forest.trace? id with
  | none => rfl
  | some trace =>
      simp only [Option.elim_some, Trace.ties]
      split
      · rename_i equal
        simp [equal, bne]
      · rename_i different
        simp [beq_false_of_ne different]

/-- The ties of traces after links were dropped at their targets. -/
theorem ties_foldl_dropIncoming (links : List TraceLink) (forest : Forest) (id : UInt64) :
    (links.foldl dropIncoming forest).ties id =
      { forest.ties id with
        linksIn := (forest.linksIn id).filter fun other =>
          !(links.contains other && id == other.target.trace) } := by
  induction links generalizing forest with
  | nil => simp [linksIn]
  | cons link links inductionHypothesis =>
      rw [List.foldl_cons, inductionHypothesis]
      simp only [linksIn, ties_dropIncoming, List.filter_filter]
      congr 1
      apply List.filter_congr
      intro other _
      by_cases equal : other = link
      · subst equal
        by_cases here : id = other.target.trace <;> simp [here]
      · simp [equal, beq_false_of_ne equal]

/-- The links which lead out of a point. -/
def linksFrom (forest : Forest) (origin : TracePoint) : List TraceLink :=
  (forest.linksOut origin.trace).filter fun link => link.origin == origin

/-- The ties of traces after a trace gave up the links out of a point. -/
theorem ties_dropOutgoing (forest : Forest) (origin : TracePoint) (id : UInt64) :
    (forest.modifyTrace origin.trace fun trace =>
        { trace with
          linksOut := trace.linksOut.filter fun link => link.origin != origin }).ties id =
      { forest.ties id with
        linksOut := (forest.linksOut id).filter fun link =>
          !(link.origin == origin && id == origin.trace) } := by
  rw [ties_modifyTrace (by intro _; rfl)]
  unfold linksOut ties
  cases forest.trace? id with
  | none => rfl
  | some trace =>
      simp only [Option.elim_some, Trace.ties]
      split
      · rename_i equal
        simp [equal, bne]
      · rename_i different
        simp [beq_false_of_ne different]

/-- The ties of traces after the links out of a point were dropped. -/
theorem ties_unlink (forest : Forest) (origin : TracePoint) (id : UInt64) :
    (forest.unlink origin).ties id =
      { forest.ties id with
        linksOut := (forest.linksOut id).filter fun link =>
          !(link.origin == origin && id == origin.trace)
        linksIn := (forest.linksIn id).filter fun link =>
          !((forest.linksFrom origin).contains link && id == link.target.trace) } := by
  unfold unlink
  split
  · rename_i missing
    have nothing : forest.linksOut origin.trace = [] := by
      unfold linksOut ties
      rw [missing]
      rfl
    have unlinked : forest.linksFrom origin = [] := by
      unfold linksFrom
      rw [nothing]
      rfl
    have kept : (forest.linksOut id).filter (fun link =>
        !(link.origin == origin && id == origin.trace)) = forest.linksOut id := by
      by_cases equal : id = origin.trace
      · rw [equal, nothing]
        rfl
      · simp [beq_false_of_ne equal]
    rw [unlinked, kept]
    simp [linksOut, linksIn]
  · rename_i trace found
    have dropped : trace.linksOut.toList.filter (fun link => link.origin == origin) =
        forest.linksFrom origin := by
      unfold linksFrom linksOut
      rw [ties_of_trace? found]
      rfl
    dsimp only
    rw [ties_foldl_dropIncoming, dropped]
    simp only [linksIn, ties_dropOutgoing]

/-! ## Counters -/

/-- To credit a trace does not change its links, and counts at most the operation
which is credited. -/
theorem ties_count (trace : Trace) (operation : Option OpRef) (count : UInt64) :
    (trace.count operation count).ties =
      { trace.ties with
        pointCounts :=
          match operation with
          | none => trace.pointCounts
          | some ref =>
              trace.pointCounts.insert ref (Ticks.add (trace.pointCount ref) count) } := by
  cases operation <;> rfl

/-- Counters do not change the links. -/
theorem links_addCounter (forest : Forest) (number count : UInt64) (kind : UInt8) (id : UInt64) :
    (forest.addCounter number kind count).linksOut id = forest.linksOut id ∧
      (forest.addCounter number kind count).linksIn id = forest.linksIn id := by
  unfold addCounter
  split
  · rename_i point _
    have same (trace : Trace) : (trace.count point.operation count).id = trace.id := by
      cases point.operation <;> rfl
    unfold linksOut linksIn
    rw [ties_modifyTrace same]
    unfold ties
    cases forest.trace? id with
    | none => exact ⟨rfl, rfl⟩
    | some trace =>
        simp only [Option.elim_some, ties_count]
        split <;> exact ⟨rfl, rfl⟩
  · exact ⟨rfl, rfl⟩

/-- A counter which is new counts the operation which was credited. -/
theorem mem_pointCounts_addCounter
    {number count id : UInt64}
    {kind : UInt8}
    {ref : OpRef}
    (member : ref ∈ ((forest.addCounter number kind count).ties id).pointCounts) :
    ref ∈ (forest.ties id).pointCounts ∨
      forest.creditedPoint? number kind = some { trace := id, operation := some ref } := by
  unfold addCounter at member
  split at member
  · rename_i point credited
    have same (trace : Trace) : (trace.count point.operation count).id = trace.id := by
      cases point.operation <;> rfl
    rw [ties_modifyTrace same] at member
    cases found : forest.trace? id with
    | none =>
        rw [found] at member
        exact absurd member Std.ExtTreeMap.not_mem_empty
    | some trace =>
        rw [found, Option.elim_some] at member
        rw [ties_of_trace? found]
        split at member
        · rename_i here
          subst here
          obtain ⟨id, operation⟩ := point
          cases operation with
          | none => exact Or.inl member
          | some counted =>
              rcases Std.ExtTreeMap.mem_insert.mp member with equal | known
              · cases Std.LawfulEqCmp.eq_of_compare equal
                exact Or.inr credited
              · exact Or.inl known
        · exact Or.inl member
  · exact Or.inl member

/-! ## Steps -/

/-- A record which is about neither links nor counters does not change the ties. -/
theorem Step.ties_eq
    {record : Jitlog.Record}
    (step : forest.Step record next)
    (other : ¬ record.isTying) :
    next.ties = forest.ties := by
  cases step with
  | inputArguments => exact ties_modifyTrace_of_same (by intro _; rfl) (by intro _; rfl) _ _
  | opcodes => rfl
  | operation => exact (ties_congr (traces_indexNext _ _ _ _ _)).trans (ties_modifyStage _ _ _ _)
  | boundsAgain => rfl
  | bounds => exact ties_place _ _ _ _
  | codeIgnored => rfl
  | code => exact ties_modifyStage _ _ _ _
  | enterStage =>
      apply ties_modifyTrace_of_same
      all_goals
        intro trace
        unfold Trace.enterStage
        split <;> rfl
  | startTrace new => exact ties_push_start new
  | layout => exact ties_modifyStage _ _ _ _
  | mergePoint =>
      refine (ties_modifyStage _ _ _ _).trans ?_
      unfold noteLocation
      split
      · exact ties_modifyTrace_of_same (by intro _; rfl) (by intro _; rfl) _ _
      · rfl
  | sharedStart => exact ties_modifyStage _ _ _ _
  | abortTrace =>
      unfold Forest.abortTrace
      split
      · exact ties_modifyTrace_of_same (by intro _; rfl) (by intro _; rfl) _ _
      · rfl
  | sourceLines => rfl
  | patch => rfl
  | bridgeUnattached | stitchBridge | counter | redirectIgnored | redirect => exact absurd rfl other

end Forest
end RuntimeLog
