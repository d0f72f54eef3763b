import Mathlib.Data.List.Nodup
import RuntimeLog.Proofs.Forest.Outline
import RuntimeLog.Proofs.LogReader.History

/-!
# Tracking a history

Every record changes the outline of a forest as it changes the summary of the
history of the forest, so that the one can be read off the other in every state
of a reader.
-/

namespace RuntimeLog

/-- Of entries which are inserted one after the other, the last one with a key counts. -/
theorem getElem?_foldl_insert
    {ι κ α : Type}
    [Ord κ]
    [Std.TransOrd κ]
    [Std.LawfulEqOrd κ]
    [DecidableEq κ]
    (key : ι → κ)
    (value : ι → α)
    (entries : List ι)
    (known : Std.ExtTreeMap κ α compare)
    (wanted : κ) :
    (entries.foldl (fun map entry => map.insert (key entry) (value entry)) known)[wanted]? =
      ((entries.reverse.find? fun entry => key entry == wanted).map value).or known[wanted]? := by
  induction entries generalizing known with
  | nil => rfl
  | cons entry entries inductionHypothesis =>
      rw [List.foldl_cons, inductionHypothesis, List.reverse_cons, List.find?_append,
        Std.ExtTreeMap.getElem?_insert]
      cases entries.reverse.find? fun entry => key entry == wanted with
      | some found => simp
      | none =>
          by_cases equal : key entry = wanted
          · simp [equal]
          · simp [equal]

namespace Forest

open Jitlog (History LoggedOperation)

/-- An outline of a forest which is what a history tells. -/
structure Tracks (told : History.Summary) (outline : Outline) : Prop where
  ids : outline.ids = told.started
  distinct : told.started.Nodup
  known : ∀ id, (outline.traces id).isSome ↔ id ∈ told.started
  current : outline.current = told.currentTrace
  opcodes : ∀ opcode,
    (outline.opcodes.bind fun names => names[opcode]?) = told.opcodeName opcode
  active : ∀ id, told.currentTrace = some id →
    (outline.traces id).bind Trace.Outline.activeKind = told.activeStage
  bounds : ∀ id, (outline.traces id).bind Trace.Outline.bounds = told.bounds id
  logged : ∀ id kind,
    ((outline.traces id).elim [] fun trace => trace.logged kind) =
      told.operations.filter (LoggedOperation.isIn id kind)
  byStart : ∀ address, outline.byStart[address]? = told.traceAt? address
  registered : ∀ descriptor, outline.descriptorPoints[descriptor]? = told.registered? descriptor
  labels : ∀ descriptor, outline.labels[descriptor]? = told.firstNamed? labelName descriptor
  jumps : ∀ descriptor, outline.jumps[descriptor]? = told.firstNamed? jumpName descriptor
  counters : ∀ descriptor, outline.counterPoints[descriptor]? = told.counter? descriptor

variable {told : History.Summary} {outline : Outline} {traced : Trace.Outline}

/-- A forest without traces tracks the history without records. -/
theorem tracks_start (header : Header) :
    Tracks (History.summary []) (start header).outline where
  ids := rfl
  distinct := List.nodup_nil
  known _ := by simp [start, Forest.outline, trace?, Journal.find?, Journal.empty, History.summary,
    History.started]
  current := rfl
  opcodes _ := rfl
  active _ _ := rfl
  bounds _ := rfl
  logged _ _ := rfl
  byStart _ := Std.ExtTreeMap.getElem?_empty
  registered _ := Std.ExtTreeMap.getElem?_empty
  labels _ := Std.ExtTreeMap.getElem?_empty
  jumps _ := Std.ExtTreeMap.getElem?_empty
  counters _ := Std.ExtTreeMap.getElem?_empty

/-! ## Traces and stages -/

/-- What is read off the traces stays if it does not tell an updated trace from the
one before. -/
theorem read_update
    {β : Type}
    (read : Option Trace.Outline → β)
    {traces : UInt64 → Option Trace.Outline}
    {id : UInt64}
    {changed : Option Trace.Outline}
    (same : read changed = read (traces id))
    (other : UInt64) :
    read (Function.update traces id changed other) = read (traces other) := by
  by_cases equal : other = id
  · subst equal
    rw [Function.update_self, same]
  · rw [Function.update_of_ne equal]

/-- A started trace was not known before. -/
theorem Tracks.push
    (tracks : Tracks told outline)
    {id : UInt64}
    (new : outline.traces id = none) :
    Tracks
      { told with
        started := told.started ++ [id]
        currentTrace := some id
        activeStage := none }
      { outline with
        ids := outline.ids ++ [id]
        traces := Function.update outline.traces id
          (some { activeKind := none, bounds := none, logged := fun _ => [] })
        current := some id } := by
  have fresh : id ∉ told.started := by
    intro member
    have present := (tracks.known id).mpr member
    rw [new] at present
    cases present
  have unbounded := tracks.bounds id
  rw [new] at unbounded
  exact
    { tracks with
      ids := by rw [tracks.ids]
      distinct := List.nodup_append.mpr
        ⟨tracks.distinct, List.nodup_singleton id, fun other member _ same equal =>
          fresh (List.mem_singleton.mp same ▸ equal ▸ member)⟩
      known := by
        intro other
        by_cases equal : other = id
        · subst equal
          simp
        · simpa [Function.update_of_ne equal, equal] using tracks.known other
      current := rfl
      active := by
        intro other same
        cases same
        simp
      bounds := fun other =>
        (read_update (fun trace => trace.bind Trace.Outline.bounds) (by rw [new]; rfl) other).trans
          (tracks.bounds other)
      logged := fun other kind =>
        (read_update (fun trace => trace.elim [] fun trace => trace.logged kind)
          (by rw [new]; rfl) other).trans (tracks.logged other kind)
      byStart := by
        intro address
        refine (tracks.byStart address).trans ?_
        unfold History.Summary.traceAt?
        rw [List.filter_append]
        simp [← unbounded] }

/-- An update of a trace does not change which traces are known. -/
theorem Tracks.known_update
    (tracks : Tracks told outline)
    {id : UInt64}
    (found : outline.traces id = some traced)
    (changed : Trace.Outline)
    (other : UInt64) :
    (Function.update outline.traces id (some changed) other).isSome ↔ other ∈ told.started := by
  rw [read_update Option.isSome (by rw [found]; rfl)]
  exact tracks.known other

/-- An entered stage of the current trace is the active one. -/
theorem Tracks.enter
    (tracks : Tracks told outline)
    {id : UInt64}
    (current : told.currentTrace = some id)
    (found : outline.traces id = some traced)
    (kind : StageKind) :
    Tracks { told with activeStage := some kind }
      { outline with
        traces := Function.update outline.traces id
          (some { traced with activeKind := some kind }) } where
  __ := tracks
  known := tracks.known_update found _
  active := by
    intro other same
    cases current.symm.trans same
    simp
  bounds other :=
    (read_update (fun trace => trace.bind Trace.Outline.bounds) (by rw [found]; rfl) other).trans
      (tracks.bounds other)
  logged other kind :=
    (read_update (fun trace => trace.elim [] fun trace => trace.logged kind)
      (by rw [found]; rfl) other).trans (tracks.logged other kind)

/-- Opcodes have the names which were declared for them. -/
theorem Tracks.declare
    (tracks : Tracks told outline)
    (undeclared : outline.opcodes = none)
    (names : List (UInt16 × String)) :
    Tracks
      { told with
        opcodeName := fun opcode =>
          ((names.reverse.find? fun entry => entry.1 == opcode).map Prod.snd).or
            (told.opcodeName opcode) }
      { outline with
        opcodes := some (names.foldl (fun map entry => map.insert entry.1 entry.2) ∅) } where
  __ := tracks
  opcodes := by
    intro opcode
    have unnamed := tracks.opcodes opcode
    rw [undeclared] at unnamed
    dsimp only
    rw [Option.bind_some, getElem?_foldl_insert Prod.fst Prod.snd, Std.ExtTreeMap.getElem?_empty, ← unnamed]
    rfl

/-! ## Bounds -/

/-- Bounds of a trace which has others do not change the tracks. -/
theorem Tracks.boundAgain
    (tracks : Tracks told outline)
    {id : UInt64}
    (current : told.currentTrace = some id)
    (found : outline.traces id = some traced)
    (bound : traced.bounds.isSome)
    (start finish : UInt64) :
    Tracks
      { told with
        bounds := fun id =>
          (told.bounds id).or
            (if told.currentTrace = some id then some (start, finish) else none) }
      outline := by
  have kept : (fun other => (told.bounds other).or
      (if told.currentTrace = some other then some (start, finish) else none)) = told.bounds := by
    funext other
    by_cases equal : other = id
    · subst equal
      have known := tracks.bounds other
      rw [found, Option.bind_some] at known
      rw [← known]
      obtain ⟨bounds, same⟩ := Option.isSome_iff_exists.mp bound
      rw [same]
      rfl
    · have different : told.currentTrace ≠ some other := by
        rw [current]
        simpa using Ne.symm equal
      simp [different]
  rw [kept]
  exact tracks

/-- The current trace is the last one of those which begin where its bounds do. -/
theorem Tracks.bound
    (tracks : Tracks told outline)
    (last : told.started.getLast? = told.currentTrace)
    {id : UInt64}
    (current : told.currentTrace = some id)
    (found : outline.traces id = some traced)
    (unbound : traced.bounds = none)
    (start finish : UInt64) :
    Tracks
      { told with
        bounds := fun id =>
          (told.bounds id).or
            (if told.currentTrace = some id then some (start, finish) else none) }
      { outline with
        traces := Function.update outline.traces id
          (some { traced with bounds := some (start, finish) })
        byStart := outline.byStart.insert start id } := by
  have bounds (other : UInt64) : (told.bounds other).or
      (if told.currentTrace = some other then some (start, finish) else none) =
      if other = id then some (start, finish) else told.bounds other := by
    rw [current]
    by_cases equal : other = id
    · subst equal
      have known := tracks.bounds other
      rw [found, Option.bind_some, unbound] at known
      simp [← known]
    · simp [equal, Ne.symm equal]
  have unbounded : told.bounds id = none := by
    rw [← tracks.bounds id, found, Option.bind_some, unbound]
  obtain ⟨earlier, all⟩ := List.getLast?_eq_some_iff.mp (last.trans current)
  have newest : id ∉ earlier := by
    have distinct := tracks.distinct
    rw [all] at distinct
    exact fun member => (List.nodup_append.mp distinct).2.2 id member id List.mem_cons_self rfl
  have others (address : UInt64) :
      (earlier.filter fun other =>
        ((if other = id then some (start, finish) else told.bounds other).map Prod.fst ==
          some address)) =
      earlier.filter fun other => (told.bounds other).map Prod.fst == some address := by
    apply List.filter_congr
    intro other member
    have other : other ≠ id := by
      rintro rfl
      exact newest member
    rw [if_neg other]
  simp only [bounds]
  exact
    { tracks with
      known := tracks.known_update found _
      active := fun other same =>
        (read_update (fun trace => trace.bind Trace.Outline.activeKind) (by rw [found]; rfl)
          other).trans (tracks.active other same)
      bounds := by
        intro other
        by_cases equal : other = id
        · subst equal
          simp
        · simpa [Function.update_of_ne equal, equal] using tracks.bounds other
      logged := fun other kind =>
        (read_update (fun trace => trace.elim [] fun trace => trace.logged kind)
          (by rw [found]; rfl) other).trans (tracks.logged other kind)
      byStart := by
        intro address
        have before := tracks.byStart address
        unfold History.Summary.traceAt? at before ⊢
        rw [all, List.filter_append] at before
        simp only [all, List.filter_append, others]
        rw [Std.ExtTreeMap.getElem?_insert, before]
        by_cases equal : start = address
        · simp [equal]
        · simp [equal, unbounded] }

/-! ## Operations -/

/-- An appended operation is the first one of its name and descriptor if there is
no earlier one. -/
theorem firstNamed?_append
    (operations : List LoggedOperation)
    (operation : LoggedOperation)
    (name : String)
    (descriptor : UInt64) :
    ((operations ++ [operation]).find? (LoggedOperation.names name descriptor)).map
        LoggedOperation.point =
      ((operations.find? (LoggedOperation.names name descriptor)).map LoggedOperation.point).or
        (if operation.names name descriptor then some operation.point else none) := by
  rw [List.find?_append]
  cases operations.find? (LoggedOperation.names name descriptor) with
  | some earlier => rfl
  | none => by_cases named : operation.names name descriptor <;> simp [named]

/-- An operation is logged last in its stage, and indexed unless an earlier one
goes before it. -/
theorem Tracks.log
    (tracks : Tracks told outline)
    {operation : LoggedOperation}
    (found : outline.traces operation.trace = some traced)
    {descriptorPoints labels jumps counterPoints : AddressMap TracePoint}
    (registers : ∀ descriptor, descriptorPoints[descriptor]? =
      outline.descriptorPoints[descriptor]?.or
        (if operation.descriptor = some descriptor then some operation.point else none))
    (labelled : ∀ descriptor, labels[descriptor]? =
      outline.labels[descriptor]?.or
        (if operation.names labelName descriptor then some operation.point else none))
    (jumped : ∀ descriptor, jumps[descriptor]? =
      outline.jumps[descriptor]?.or
        (if operation.names jumpName descriptor then some operation.point else none))
    (counts : ∀ descriptor, counterPoints[descriptor]? =
      if operation.counting? told.operations = some (descriptor, operation.point) then
        some operation.point
      else outline.counterPoints[descriptor]?) :
    Tracks
      { told with
        operations := told.operations ++ [operation]
        registrations := told.registrations ++ operation.registration?.toList
        countings := told.countings ++ (operation.counting? told.operations).toList }
      { outline with
        traces := Function.update outline.traces operation.trace
          (some { traced with
            logged := Function.update traced.logged operation.stage
              (traced.logged operation.stage ++ [operation]) })
        descriptorPoints
        labels
        jumps
        counterPoints } where
  __ := tracks
  known := tracks.known_update found _
  active other current :=
    (read_update (fun trace => trace.bind Trace.Outline.activeKind) (by rw [found]; rfl)
      other).trans (tracks.active other current)
  bounds other :=
    (read_update (fun trace => trace.bind Trace.Outline.bounds) (by rw [found]; rfl) other).trans
      (tracks.bounds other)
  logged := by
    intro other kind
    have before := tracks.logged other kind
    dsimp only
    rw [List.filter_append, ← before]
    by_cases equal : other = operation.trace
    · subst equal
      rw [found, Function.update_self]
      by_cases inside : kind = operation.stage
      · subst inside
        simp [LoggedOperation.isIn]
      · simp [LoggedOperation.isIn, Function.update_of_ne inside, Ne.symm inside]
    · rw [Function.update_of_ne equal]
      simp [LoggedOperation.isIn, Ne.symm equal]
  registered := by
    intro descriptor
    refine (registers descriptor).trans ?_
    rw [tracks.registered]
    unfold History.Summary.registered? LoggedOperation.registration?
    rw [List.lookup_append]
    congr 1
    cases operation.descriptor with
    | none => rfl
    | some number =>
        by_cases equal : number = descriptor
        · simp [equal]
        · simp [equal, List.lookup_cons, beq_false_of_ne (Ne.symm equal)]
  labels := by
    intro descriptor
    refine (labelled descriptor).trans ?_
    rw [tracks.labels]
    exact (firstNamed?_append told.operations operation labelName descriptor).symm
  jumps := by
    intro descriptor
    refine (jumped descriptor).trans ?_
    rw [tracks.jumps]
    exact (firstNamed?_append told.operations operation jumpName descriptor).symm
  counters := by
    intro descriptor
    refine (counts descriptor).trans ?_
    rw [tracks.counters]
    unfold History.Summary.counter?
    rw [List.filter_append]
    cases counted : operation.counting? told.operations with
    | none => simp
    | some counting =>
        obtain ⟨number, point⟩ := counting
        have place : point = operation.point := LoggedOperation.snd_of_counting? counted
        subst place
        by_cases equal : number = descriptor
        · simp [equal]
        · simp [equal]

/-- A redirect registers a descriptor unless it was before. -/
theorem Tracks.register
    (tracks : Tracks told outline)
    {before after : UInt64}
    {descriptorPoints : AddressMap TracePoint}
    (registers : ∀ descriptor, descriptorPoints[descriptor]? =
      outline.descriptorPoints[descriptor]?.or
        (if after = descriptor then outline.descriptorPoints[before]? else none)) :
    Tracks
      { told with
        registrations := told.registrations ++
          ((told.registered? before).map fun point => (after, point)).toList }
      { outline with descriptorPoints } where
  __ := tracks
  registered := by
    intro descriptor
    refine (registers descriptor).trans ?_
    rw [tracks.registered, tracks.registered]
    unfold History.Summary.registered?
    rw [List.lookup_append]
    congr 1
    cases told.registrations.lookup before with
    | none => simp
    | some point =>
        by_cases equal : after = descriptor
        · simp [equal]
        · simp [equal, List.lookup_cons, beq_false_of_ne (Ne.symm equal)]

/-! ## Steps -/

variable {past : History} {forest next : Forest} {trace : Trace}

/-- The current trace of a forest is the one which its history tells. -/
theorem Tracks.currentTrace_eq
    (tracks : Tracks past.summary forest.outline)
    (current : forest.currentTrace = .ok trace) :
    past.currentTrace = some trace.id ∧ forest.outline.traces trace.id = some trace.outline := by
  obtain ⟨started, found⟩ := id_of_currentTrace current
  refine ⟨tracks.current.symm.trans started, ?_⟩
  exact congrArg (Option.map Trace.outline) found

/-- The active stage of a forest is the one which its history tells. -/
theorem Tracks.activeStage_eq
    {stage : Stage}
    (tracks : Tracks past.summary forest.outline)
    (active : forest.currentStage = .ok (trace, stage)) :
    past.activeStage = some stage.kind ∧ trace.stage? stage.kind = some stage := by
  obtain ⟨current, inside⟩ := active_of_currentStage active
  obtain ⟨started, found⟩ := tracks.currentTrace_eq current
  obtain ⟨kind, entered, stands⟩ := Option.bind_eq_some_iff.mp inside
  have same := Trace.kind_of_stage? stands
  subst same
  have told := tracks.active trace.id started
  rw [found] at told
  exact ⟨told.symm.trans entered, stands⟩

/-- The operations of a stage are those which were logged in it. -/
theorem Tracks.logged_eq
    {stage : Stage}
    (tracks : Tracks past.summary forest.outline)
    (found : forest.outline.traces trace.id = some trace.outline)
    (stands : trace.stage? stage.kind = some stage) :
    stage.logged trace.id = past.operations.filter (LoggedOperation.isIn trace.id stage.kind) := by
  have logged := tracks.logged trace.id stage.kind
  rw [found] at logged
  refine Eq.trans ?_ logged
  simp [Trace.outline, Trace.logged, stands]

/-- The next operation of a stage gets the number of those which were logged in
it. -/
theorem Tracks.nextIndex_eq
    {stage : Stage}
    (tracks : Tracks past.summary forest.outline)
    (found : forest.outline.traces trace.id = some trace.outline)
    (stands : trace.stage? stage.kind = some stage) :
    stage.nextIndex = past.operations.countP (LoggedOperation.isIn trace.id stage.kind) := by
  have numbered := past.index_operations trace.id stage.kind
  rw [← tracks.logged_eq found stands, Stage.logged, List.map_map] at numbered
  have last := congrArg List.getLast? numbered
  rw [List.getLast?_map, List.getLast?_range] at last
  unfold Stage.nextIndex
  rw [Stage.lastOperation?_eq]
  cases final : stage.operations.getLast? with
  | none =>
      rw [final] at last
      simpa [eq_comm] using last
  | some operation =>
      rw [final] at last
      split at last
      · cases last
      · have index := Option.some.inj last
        simp only [Function.comp_apply, Stage.loggedAs] at index
        dsimp only
        omega

/-- The operation before an appended one is the last one which was logged in its
stage. -/
theorem Tracks.lastDescriptor_eq
    {stage : Stage}
    (tracks : Tracks past.summary forest.outline)
    (found : forest.outline.traces trace.id = some trace.outline)
    (stands : trace.stage? stage.kind = some stage) :
    (stage.lastOperation?.bind Operation.descriptor).map Descriptor.number =
      (past.operations.filter (LoggedOperation.isIn trace.id stage.kind)).getLast?.bind
        LoggedOperation.descriptor := by
  rw [← tracks.logged_eq found stands, Stage.logged, List.getLast?_map, Stage.lastOperation?_eq]
  cases stage.operations.getLast? <;> rfl

/-- An operation changes the outline of a forest as it changes the summary of the
history. -/
theorem Tracks.append
    {opcode : UInt16}
    {arguments name : String}
    {failArguments : Option String}
    {descriptor : Option UInt64}
    {stage : Stage}
    (tracks : Tracks past.summary forest.outline)
    (named : forest.opcodeName? opcode = some name)
    (active : forest.currentStage = .ok (trace, stage)) :
    Tracks (History.summary (.operation opcode arguments failArguments descriptor :: past))
      ((forest.modifyStage trace.id stage.kind fun inner =>
          inner.pushOperation
            (stage.operationOf opcode name arguments failArguments descriptor)).indexNext
        (stage.nextPoint trace.id) name descriptor (stage.counted? name)).outline := by
  obtain ⟨current, _⟩ := active_of_currentStage active
  obtain ⟨started, found⟩ := tracks.currentTrace_eq current
  obtain ⟨entered, stands⟩ := tracks.activeStage_eq active
  let logged : LoggedOperation :=
    { trace := trace.id, stage := stage.kind, index := stage.nextIndex, name, descriptor }
  have loggedNext :
      past.logged? (.operation opcode arguments failArguments descriptor) = some logged := by
    have declared : past.opcodeName? opcode = some name := (tracks.opcodes opcode).symm.trans named
    rw [History.logged?_operation started entered declared, ← tracks.nextIndex_eq found stands]
  have counted : logged.counting? past.operations =
      ((stage.counted? name).map Descriptor.number).map fun number => (number, logged.point) := by
    unfold LoggedOperation.counting? Stage.counted?
    rw [← tracks.lastDescriptor_eq found stands]
    split <;> rfl
  have kept : stage.loggedAs trace.id
      { stage.operationOf opcode name arguments failArguments descriptor with
        index := stage.nextIndex } = logged := by
    simp [Stage.loggedAs, Stage.operationOf, logged, Function.comp_def]
  rw [History.summary_operation loggedNext, outline_indexNext,
    outline_pushOperation (id_of_currentTrace current).2 stands, kept]
  apply tracks.log found
  · intro other
    exact getElem?_descriptorPoints_indexNext _ _ _ _ _ _
  · intro other
    simp only [LoggedOperation.names, Bool.and_eq_true, beq_iff_eq]
    exact getElem?_labels_indexNext _ _ _ _ _ _
  · intro other
    simp only [LoggedOperation.names, Bool.and_eq_true, beq_iff_eq]
    exact getElem?_jumps_indexNext _ _ _ _ _ _
  · intro other
    have same : (stage.counted? name).map Descriptor.number = some other ↔
        logged.counting? past.operations = some (other, logged.point) := by
      rw [counted]
      cases stage.counted? name <;> simp
    exact (getElem?_counterPoints_indexNext _ _ _ _ _ _).trans (if_congr same rfl rfl)

/-- A redirect of a descriptor which is not registered changes nothing. -/
theorem Tracks.redirectIgnored
    {before after target : UInt64}
    (tracks : Tracks past.summary forest.outline)
    (unregistered : forest.descriptorPoints[before]? = none) :
    Tracks (History.summary (.redirect before after target :: past)) forest.outline := by
  rw [History.summary_redirect]
  apply tracks.register
  intro descriptor
  have missing : forest.outline.descriptorPoints[before]? = none := unregistered
  rw [missing, ite_self, Option.or_none]
  rfl

/-- A redirect registers the new descriptor for the point of the old one. -/
theorem Tracks.redirect
    {before after target : UInt64}
    {origin : TracePoint}
    (tracks : Tracks past.summary forest.outline)
    (registered : forest.descriptorPoints[before]? = some origin) :
    Tracks (History.summary (.redirect before after target :: past))
      (if after = before then (forest.unlink origin).link origin (.entry target)
        else
          ((forest.unlink origin).link origin (.entry target)).registerDescriptor after
            origin).outline := by
  have known : forest.outline.descriptorPoints[before]? = some origin := registered
  have kept : ((forest.unlink origin).link origin (.entry target)).outline = forest.outline := by
    rw [outline_link, outline_unlink]
  rw [History.summary_redirect]
  split
  · rename_i same
    subst same
    rw [kept]
    apply tracks.register
    intro descriptor
    by_cases equal : after = descriptor
    · subst equal
      rw [known]
      exact registered
    · rw [if_neg equal, Option.or_none]
      rfl
  · rw [outline_registerDescriptor, kept]
    apply tracks.register
    intro descriptor
    rw [getElem?_registerDescriptor, known]
    have same := congrArg Outline.descriptorPoints kept
    have points : ((forest.unlink origin).link origin (.entry target)).descriptorPoints =
      forest.outline.descriptorPoints := same
    rw [points]

/-- A record changes the outline of a forest as it changes the summary of the
history. -/
theorem Step.tracks
    {record : Jitlog.Record}
    (step : forest.Step record next)
    (tracks : Tracks past.summary forest.outline) :
    Tracks (History.summary (record :: past)) next.outline := by
  by_cases aside : record.isAside
  · rw [step.outline_of_isAside aside, History.summary_cons_of_isAside aside]
    exact tracks
  · cases step with
    | opcodes undeclared =>
        rw [History.summary_opcodes]
        exact tracks.declare undeclared _
    | operation named active =>
        exact tracks.append named active
    | boundsAgain current known =>
        rw [History.summary_bounds]
        obtain ⟨started, found⟩ := tracks.currentTrace_eq current
        exact tracks.boundAgain started found (by simp [Trace.outline, known]) _ _
    | bounds current unknown =>
        rw [History.summary_bounds]
        obtain ⟨started, found⟩ := tracks.currentTrace_eq current
        rw [outline_place (id_of_currentTrace current).2]
        exact tracks.bound past.getLast?_started started found unknown _ _
    | enterStage current =>
        obtain ⟨started, found⟩ := tracks.currentTrace_eq current
        rw [History.summary_enterStage, outline_enterStage (id_of_currentTrace current).2]
        exact tracks.enter started found _
    | startTrace new =>
        rw [History.summary_startTrace, outline_push_start]
        exact tracks.push (congrArg (Option.map Trace.outline) new)
    | redirectIgnored unregistered =>
        exact tracks.redirectIgnored unregistered
    | redirect known registered => exact tracks.redirect registered
    | _ => exact absurd rfl aside

/-! ## Reached states -/

/-- An entry is found by its key if no other one has the same. -/
theorem find?_of_distinct
    {α κ : Type}
    [DecidableEq κ]
    {key : α → κ}
    {entries : List α}
    {entry : α}
    (distinct : (entries.map key).Nodup)
    (member : entry ∈ entries) :
    entries.find? (fun other => key other == key entry) = some entry := by
  induction entries with
  | nil => cases member
  | cons first others inductionHypothesis =>
      obtain ⟨fresh, rest⟩ := List.nodup_cons.mp distinct
      rcases List.mem_cons.mp member with rfl | elsewhere
      · exact List.find?_cons_of_pos (beq_self_eq_true _)
      · have different : key first ≠ key entry := by
          intro same
          exact fresh (same ▸ List.mem_map_of_mem elsewhere)
        rw [List.find?_cons_of_neg (by simpa using different)]
        exact inductionHypothesis rest elsewhere

/-- In every state of a reader the forest tracks the decoded records. -/
theorem tracks_of_reached
    [Stream.Decompressor]
    {source : Stream.Source}
    {chunk : Nat}
    {history : History}
    {reader : LogReader Jitlog.format}
    (reached : LogReader.Reached source chunk history reader) :
    Tracks history.summary reader.model.outline := by
  apply reached.preserves Jitlog.ledger fun past forest =>
    Tracks (History.summary past) forest.outline
  case atStart => exact tracks_start
  case step =>
    intro past record offset forest next behind tracks applied
    exact (step_of_apply applied).tracks tracks
  case stopped =>
    intro past forest fault tracks
    exact tracks

/-- What is about traces and is kept by all steps of a forest which tracks its
history holds in every state of a reader. -/
theorem holds_of_reached
    [Stream.Decompressor]
    {invariant : History → Forest → Prop}
    {source : Stream.Source}
    {chunk : Nat}
    {history : History}
    {reader : LogReader Jitlog.format}
    (reached : LogReader.Reached source chunk history reader)
    (atStart : ∀ header, invariant [] (start header))
    (aside : ∀ {past forest next},
      next.traces = forest.traces → invariant past forest → invariant past next)
    (kept : ∀ {past record forest next}, Step forest record next →
      Tracks (History.summary past) forest.outline → invariant past forest →
        invariant (record :: past) next) :
    invariant history reader.model := by
  have both : Tracks (History.summary history) reader.model.outline ∧
      invariant history reader.model := by
    apply reached.preserves Jitlog.ledger fun past forest =>
      Tracks (History.summary past) forest.outline ∧ invariant past forest
    case atStart => exact fun header => ⟨tracks_start header, atStart header⟩
    case step =>
      rintro past record offset forest next behind ⟨tracks, holds⟩ applied
      have step := step_of_apply applied
      have same : Forest.traces (Jitlog.format.advance next behind) = next.traces := rfl
      exact ⟨step.tracks tracks, aside same (kept step tracks holds)⟩
    case stopped =>
      rintro past forest fault ⟨tracks, holds⟩
      have same : Forest.traces (Jitlog.format.stop forest fault) = forest.traces := rfl
      exact ⟨tracks, aside same holds⟩
  exact both.2

/-- A trace of a forest is the one which is found by its id. -/
theorem Tracks.trace?_of_mem
    (tracks : Tracks past.summary forest.outline)
    (member : trace ∈ forest.traces.toList) :
    forest.trace? trace.id = some trace := by
  have distinct : (forest.traces.newestFirst.map Trace.id).Nodup := by
    have ids : forest.traces.toList.map Trace.id = past.started := tracks.ids
    have ordered : past.started.Nodup := tracks.distinct
    rw [← ids, Journal.toList, List.map_reverse] at ordered
    exact List.nodup_reverse.mp ordered
  rw [Journal.toList, List.mem_reverse] at member
  exact find?_of_distinct distinct member

/-- A trace in which an operation was logged is there. -/
theorem Tracks.isSome_trace?
    (tracks : Tracks past.summary forest.outline)
    {operation : LoggedOperation}
    (logged : operation ∈ past.operations) :
    (forest.trace? operation.trace).isSome := by
  cases found : forest.trace? operation.trace with
  | some trace => rfl
  | none =>
      have nothing := tracks.logged operation.trace operation.stage
      have absent : forest.outline.traces operation.trace = none :=
        congrArg (Option.map Trace.outline) found
      rw [absent] at nothing
      have member : operation ∈
          past.operations.filter (LoggedOperation.isIn operation.trace operation.stage) :=
        List.mem_filter.mpr ⟨logged, by simp [LoggedOperation.isIn]⟩
      rw [show past.operations.filter _ = [] from nothing.symm] at member
      cases member

/-- A descriptor is registered for a logged operation. -/
theorem Tracks.mem_of_registered
    (tracks : Tracks past.summary forest.outline)
    {descriptor : UInt64}
    {point : TracePoint}
    (registered : forest.descriptorPoints[descriptor]? = some point) :
    point ∈ past.operations.map LoggedOperation.point :=
  History.mem_of_registered? ((tracks.registered descriptor).symm.trans registered)

/-- A logged operation is in a trace which is there. -/
theorem Tracks.isSome_of_logged
    (tracks : Tracks past.summary forest.outline)
    {point : TracePoint}
    (logged : point ∈ past.operations.map LoggedOperation.point) :
    (forest.trace? point.trace).isSome := by
  obtain ⟨operation, member, rfl⟩ := List.mem_map.mp logged
  exact tracks.isSome_trace? member

/-- A registered point is in a trace which is there. -/
theorem Tracks.isSome_of_registered
    (tracks : Tracks past.summary forest.outline)
    {descriptor : UInt64}
    {point : TracePoint}
    (registered : forest.descriptorPoints[descriptor]? = some point) :
    (forest.trace? point.trace).isSome :=
  tracks.isSome_of_logged (tracks.mem_of_registered registered)

/-- A trace which is found by its start is there. -/
theorem Tracks.isSome_of_byStart
    (tracks : Tracks past.summary forest.outline)
    {address id : UInt64}
    (assembled : forest.byStart[address]? = some id) :
    (forest.trace? id).isSome := by
  have newest : past.summary.traceAt? address = some id :=
    (tracks.byStart address).symm.trans assembled
  have started := (List.mem_filter.mp (List.mem_of_getLast? newest)).1
  have known := (tracks.known id).mpr started
  simpa [outline] using known

/-! ## A log with a bridge -/

/-- Records by which a bridge is attached to a label, which is passed before a
counter. -/
def stitchedRecords : List Jitlog.Record :=
  [.opcodes [(1, labelName), (2, counterName)],
    .startTrace 1 "loop" 0 (some ""),
    .enterStage .asm 1,
    .operation 1 "" (some "") (some 5),
    .operation 2 "" (some "") none,
    .startTrace 2 "bridge" 5 (some ""),
    .bounds 64 96,
    .stitchBridge 5 64,
    .redirect 5 6 2,
    .counter 5 entryCounter 3]

/-- The header of the log with a bridge. -/
def stitchedHeader : Header :=
  { formatFlag := Jitlog.formatFlag, version := 3, words := .eight, machine := "" }

/-- A log with a bridge. -/
def stitchedLog : Bytes :=
  [0x23, 3, 0, 0, 0, 0, 0, 0] ++ stitchedRecords.flatMap (Jitlog.Record.encode .eight)

set_option maxRecDepth 8000 in
/-- The log with a bridge is decoded to its records.  The bridge has the other
trace as its parent and is found by the addresses of its machine code. -/
theorem reached_stitchedLog [Stream.Decompressor] :
    ∃ reader : LogReader Jitlog.format,
      LogReader.Reached (.ofBytes stitchedLog) 16 stitchedRecords.reverse reader ∧
      reader.model.traces.toList.map Trace.parent? = [none, some 1] ∧
      (reader.model.traceContaining? 80).map Trace.id = some 2 := by
  obtain ⟨markers, last, supported, written, parents, containing⟩ :
      ∃ markers last,
        Jitlog.format.markers? stitchedHeader.version = some markers ∧
        LogReader.Written Jitlog.format { header := stitchedHeader, markers }
          (Jitlog.format.start stitchedHeader) 8 (stitchedLog.drop 8) stitchedRecords last ∧
        last.traces.toList.map Trace.parent? = [none, some 1] ∧
        (last.traceContaining? 80).map Trace.id = some 2 := by
    exact ⟨_, _, rfl,
      .more (by decide) rfl rfl rfl (.more (by decide) rfl rfl rfl (.more (by decide) rfl rfl rfl
        (.more (by decide) rfl rfl rfl (.more (by decide) rfl rfl rfl
          (.more (by decide) rfl rfl rfl (.more (by decide) rfl rfl rfl
            (.more (by decide) rfl rfl rfl (.more (by decide) rfl rfl rfl
              (.more (by decide) rfl rfl rfl .none))))))))), rfl, rfl⟩
  obtain ⟨reader, reached, same⟩ :=
    LogReader.exists_reached_of_written (by decide) rfl supported written 16
  exact ⟨reader, reached, by rw [same]; exact parents, by rw [same]; exact containing⟩

end Forest
end RuntimeLog
