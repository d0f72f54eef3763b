import RuntimeLog.Proofs.Forest.Ties
import RuntimeLog.Proofs.Forest.Tracking
import RuntimeLog.Proofs.Jitlog.Attachments

/-!
# Links of points

The links out of a point are those to the traces which were attached to it since the
last redirect.  A record which attaches a trace to a point touches no link out of
another one.
-/

namespace RuntimeLog
namespace Forest

open Jitlog (Attachment History)

variable {past : History} {forest next : Forest} {origin target : TracePoint}

/-! ## Links out of a point -/

/-- The links out of a point are its links in the ties of its trace. -/
theorem linksFrom_congr (same : next.ties = forest.ties) (origin : TracePoint) :
    next.linksFrom origin = forest.linksFrom origin := by
  unfold linksFrom linksOut
  rw [same]

/-- A link which is made comes last among those out of its origin. -/
theorem linksFrom_link (known : (forest.trace? origin.trace).isSome) (target : TracePoint) :
    (forest.link origin target).linksFrom origin =
      forest.linksFrom origin ++ [TraceLink.mk origin target] := by
  unfold linksFrom
  rw [linksOut_link known, if_pos rfl, List.filter_append]
  simp

/-- No link is left out of a point whose links were dropped. -/
theorem linksFrom_unlink (forest : Forest) (origin : TracePoint) :
    (forest.unlink origin).linksFrom origin = [] := by
  unfold linksFrom linksOut
  rw [ties_unlink, List.filter_filter, List.filter_eq_nil_iff]
  intro link _
  simp

/-- Links which lead out of other points than some point. -/
def linksBeside (origin : TracePoint) (links : List TraceLink) : List TraceLink :=
  links.filter fun link => link.origin != origin

/-- The links out of another point are among those which lead out of other points. -/
theorem linksFrom_of_linksBeside
    {other : TracePoint}
    (different : other ≠ origin)
    (beside : ∀ id,
      linksBeside origin (next.linksOut id) = linksBeside origin (forest.linksOut id)) :
    next.linksFrom other = forest.linksFrom other := by
  have among (links : List TraceLink) :
      links.filter (fun link => link.origin == other) =
        (linksBeside origin links).filter fun link => link.origin == other := by
    unfold linksBeside
    rw [List.filter_filter]
    apply List.filter_congr
    intro link _
    by_cases here : link.origin = other
    · simp [here, different]
    · simp [here]
  unfold linksFrom
  rw [among, beside, ← among]

/-- A link which is made does not touch the links out of other points. -/
theorem linksBeside_link (forest : Forest) (origin target : TracePoint) (id : UInt64) :
    linksBeside origin ((forest.link origin target).linksOut id) =
        linksBeside origin (forest.linksOut id) ∧
      linksBeside origin ((forest.link origin target).linksIn id) =
        linksBeside origin (forest.linksIn id) := by
  unfold linksOut linksIn linksBeside
  rw [ties_link]
  unfold ties
  cases forest.trace? id with
  | none => exact ⟨rfl, rfl⟩
  | some trace =>
      simp only [Option.elim_some, Trace.ties]
      constructor <;> split <;> simp

/-- Links out of other points are not dropped with those out of a point. -/
theorem linksBeside_unlink (forest : Forest) (origin : TracePoint) (id : UInt64) :
    linksBeside origin ((forest.unlink origin).linksOut id) =
        linksBeside origin (forest.linksOut id) ∧
      linksBeside origin ((forest.unlink origin).linksIn id) =
        linksBeside origin (forest.linksIn id) := by
  have kept (link : TraceLink) (beside : link.origin ≠ origin) :
      link ∉ forest.linksFrom origin := by
    intro member
    exact beside (by simpa using (List.mem_filter.mp member).2)
  unfold linksBeside
  constructor
  · unfold linksOut
    rw [ties_unlink, List.filter_filter]
    apply List.filter_congr
    intro link _
    by_cases begins : link.origin = origin <;> simp [begins]
  · unfold linksIn
    rw [ties_unlink, List.filter_filter]
    apply List.filter_congr
    intro link _
    by_cases begins : link.origin = origin
    · simp [begins]
    · simp [kept link begins]

/-! ## Records -/

/-- What a stitched bridge attaches. -/
theorem Tracks.attachment?_stitchBridge
    (tracks : Tracks past.summary forest.outline)
    {descriptor address bridge : UInt64}
    (assembled : forest.byStart[address]? = some bridge) :
    past.attachment? (.stitchBridge descriptor address) =
      (forest.descriptorPoints[descriptor]?).map fun origin =>
        { origin, target := bridge, supersedes := false } := by
  have starts : past.summary.traceAt? address = some bridge :=
    (tracks.byStart address).symm.trans assembled
  have stands : past.summary.registered? descriptor = forest.descriptorPoints[descriptor]? :=
    (tracks.registered descriptor).symm
  unfold History.attachment?
  dsimp only
  rw [starts, stands]
  cases forest.descriptorPoints[descriptor]? <;> rfl

/-- What a redirect attaches. -/
theorem Tracks.attachment?_redirect
    (tracks : Tracks past.summary forest.outline)
    (before after target : UInt64) :
    past.attachment? (.redirect before after target) =
      (forest.descriptorPoints[before]?).map fun origin =>
        { origin, target, supersedes := true } :=
  congrArg (Option.map _) (tracks.registered before).symm

/-- What a record attaches is linked: behind the other links out of its origin, or
in place of them.  Links out of other points are not touched. -/
theorem Step.attaches
    {record : Jitlog.Record}
    {attachment : Attachment}
    (step : forest.Step record next)
    (tracks : Tracks past.summary forest.outline)
    (attached : past.attachment? record = some attachment) :
    next.linksFrom attachment.origin =
        (if attachment.supersedes then [] else forest.linksFrom attachment.origin) ++
          [⟨attachment.origin, .entry attachment.target⟩] ∧
      ∀ id,
        linksBeside attachment.origin (next.linksOut id) =
            linksBeside attachment.origin (forest.linksOut id) ∧
          linksBeside attachment.origin (next.linksIn id) =
            linksBeside attachment.origin (forest.linksIn id) := by
  cases step with
  | stitchBridge assembled registered =>
      rw [tracks.attachment?_stitchBridge assembled, registered] at attached
      cases attached
      exact ⟨linksFrom_link (tracks.isSome_of_registered registered) _,
        linksBeside_link forest _ _⟩
  | bridgeUnattached assembled unregistered =>
      rw [tracks.attachment?_stitchBridge assembled, unregistered] at attached
      cases attached
  | redirectIgnored unregistered =>
      rw [tracks.attachment?_redirect, unregistered] at attached
      cases attached
  | @redirect before after target trace origin known registered =>
      rw [tracks.attachment?_redirect, registered] at attached
      cases attached
      have kept := isSome_trace?_congr (outline_unlink forest origin) origin.trace
      have there := kept.trans (tracks.isSome_of_registered registered)
      have linked := linksFrom_link there (.entry target)
      rw [linksFrom_unlink] at linked
      have beside (id : UInt64) := linksBeside_link (forest.unlink origin) origin (.entry target) id
      simp only [linksBeside_unlink] at beside
      split
      · exact ⟨linked, beside⟩
      · have same := ties_congr (traces_registerDescriptor
          ((forest.unlink origin).link origin (.entry target)) after origin)
        unfold linksOut linksIn
        rw [linksFrom_congr same, same]
        exact ⟨linked, beside⟩
  | _ => cases attached

/-- A record which attaches nothing touches no link. -/
theorem Step.links_of_unattached
    {record : Jitlog.Record}
    (step : forest.Step record next)
    (tracks : Tracks past.summary forest.outline)
    (unattached : past.attachment? record = none)
    (id : UInt64) :
    next.linksOut id = forest.linksOut id ∧ next.linksIn id = forest.linksIn id := by
  by_cases tying : record.isTying
  · cases step with
    | counter => exact links_addCounter forest _ _ _ id
    | bridgeUnattached | redirectIgnored => exact ⟨rfl, rfl⟩
    | stitchBridge assembled registered =>
        rw [tracks.attachment?_stitchBridge assembled, registered] at unattached
        cases unattached
    | redirect known registered =>
        rw [tracks.attachment?_redirect, registered] at unattached
        cases unattached
    | _ => cases tying
  · unfold linksOut linksIn
    rw [step.ties_eq tying]
    exact ⟨rfl, rfl⟩

/-! ## Reached states -/

/-- A forest in which the links out of a point are those to its targets. -/
def Leads (history : History) (forest : Forest) : Prop :=
  ∀ origin, forest.linksFrom origin =
    (history.targets origin).map fun target => ⟨origin, .entry target⟩

/-- A record links what it attaches. -/
theorem Step.leads
    {record : Jitlog.Record}
    (step : forest.Step record next)
    (tracks : Tracks past.summary forest.outline)
    (leads : Leads past forest) :
    Leads (record :: past) next := by
  intro origin
  cases attached : past.attachment? record with
  | none =>
      have same : next.linksFrom origin = forest.linksFrom origin := by
        unfold linksFrom
        rw [(step.links_of_unattached tracks attached origin.trace).1]
      rw [same, History.targets_cons_of_none attached, leads origin]
  | some attachment =>
      obtain ⟨linked, beside⟩ := step.attaches tracks attached
      by_cases here : attachment.origin = origin
      · subst here
        rw [linked, leads attachment.origin, History.targets_cons_of_some attached]
        split <;> simp
      · rw [linksFrom_of_linksBeside (Ne.symm here) fun id => (beside id).1,
          History.targets_cons_of_ne attached here, leads origin]

/-- In every state of a reader the links out of a point are those to the traces which
were attached to it since the last redirect. -/
theorem leads_of_reached
    [Stream.Decompressor]
    {source : Stream.Source}
    {chunk : Nat}
    {history : History}
    {reader : LogReader Jitlog.format}
    (reached : LogReader.Reached source chunk history reader) :
    Leads history reader.model :=
  holds_of_reached reached (fun _ _ => rfl)
    (fun same leads origin => (linksFrom_congr (ties_congr same) origin).trans (leads origin))
    fun step tracks leads => step.leads tracks leads

/-- The trace to which a point was linked last is its last target. -/
theorem Leads.lastTarget?_eq (leads : Leads past forest) (origin : TracePoint) :
    forest.lastTarget? origin = past.lastTarget? origin := by
  have last : forest.lastTarget? origin =
      ((forest.linksFrom origin).getLast?).map fun link => link.target.trace := by
    unfold lastTarget? linksFrom linksOut ties
    cases forest.trace? origin.trace with
    | none => rfl
    | some trace =>
        simp only [Option.bind_some, Option.elim_some, Trace.ties, Journal.find?, Journal.toList,
          List.filter_reverse, List.getLast?_reverse, List.head?_filter]
  rw [last, leads origin, List.getLast?_map, Option.map_map]
  exact Option.map_id'

end Forest
end RuntimeLog
