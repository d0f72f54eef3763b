import Mathlib.Data.List.Count
import RuntimeLog.Proofs.Forest.Ties
import RuntimeLog.Proofs.Forest.Tracking
import RuntimeLog.Stream.Zstd.Decoder

/-!
# Mirrored links

A link is kept twice, at the trace it leads out of and at the trace it leads
into.  In every state of a reader it is kept equally often at both.
-/

namespace RuntimeLog
namespace Forest

open Jitlog (History LoggedOperation)

/-- A forest in which links stand where they begin and where they end, equally
often at both places. -/
structure Mirrored (forest : Forest) : Prop where
  origin : ∀ id, ∀ link ∈ forest.linksOut id, link.origin.trace = id
  target : ∀ id, ∀ link ∈ forest.linksIn id, link.target.trace = id
  count : ∀ link,
    (forest.linksOut link.origin.trace).count link = (forest.linksIn link.target.trace).count link

variable {past : History} {forest next : Forest}

/-- There are no links in a forest without traces. -/
theorem mirrored_start (header : Header) : (start header).Mirrored where
  origin _ _ member := by cases member
  target _ _ member := by cases member
  count _ := rfl

/-- Mirrored links do not depend on anything else. -/
theorem Mirrored.of_links
    (mirrored : forest.Mirrored)
    (out : ∀ id, next.linksOut id = forest.linksOut id)
    (into : ∀ id, next.linksIn id = forest.linksIn id) :
    next.Mirrored where
  origin id link member := mirrored.origin id link (out id ▸ member)
  target id link member := mirrored.target id link (into id ▸ member)
  count link := by rw [out, into, mirrored.count]

/-- Mirrored links do not depend on anything else but the ties. -/
theorem Mirrored.of_ties (mirrored : forest.Mirrored) (same : next.ties = forest.ties) :
    next.Mirrored :=
  mirrored.of_links
    (fun id => congrArg (fun ties => (ties id).linksOut) same)
    (fun id => congrArg (fun ties => (ties id).linksIn) same)

/-- A link between traces which are there stands at both of them. -/
theorem Mirrored.link
    (mirrored : forest.Mirrored)
    {origin target : TracePoint}
    (begins : (forest.trace? origin.trace).isSome)
    (ends : (forest.trace? target.trace).isSome) :
    (forest.link origin target).Mirrored where
  origin id link member := by
    rw [linksOut_link begins] at member
    rcases List.mem_append.mp member with old | new
    · exact mirrored.origin id link old
    · split at new
      · rename_i here
        cases List.mem_singleton.mp new
        exact here.symm
      · cases new
  target id link member := by
    rw [linksIn_link ends] at member
    rcases List.mem_append.mp member with old | new
    · exact mirrored.target id link old
    · split at new
      · rename_i here
        cases List.mem_singleton.mp new
        exact here.symm
      · cases new
  count link := by
    rw [linksOut_link begins, linksIn_link ends, List.count_append, List.count_append,
      mirrored.count]
    congr 1
    by_cases new : link = TraceLink.mk origin target
    · subst new
      simp
    · have different : TraceLink.mk origin target ≠ link := Ne.symm new
      split <;> split <;> simp [different]

/-- The links out of a point are dropped at both ends. -/
theorem Mirrored.unlink (mirrored : forest.Mirrored) (origin : TracePoint) :
    (forest.unlink origin).Mirrored where
  origin id link member := by
    unfold linksOut at member
    rw [ties_unlink] at member
    exact mirrored.origin id link (List.mem_of_mem_filter member)
  target id link member := by
    unfold linksIn at member
    rw [ties_unlink] at member
    exact mirrored.target id link (List.mem_of_mem_filter member)
  count link := by
    have before := mirrored.count link
    unfold linksOut linksIn
    rw [ties_unlink, ties_unlink]
    dsimp only
    by_cases dropped : link ∈ forest.linksFrom origin
    · have begins : link.origin = origin := by
        simpa using (List.mem_filter.mp dropped).2
      rw [List.count_eq_zero_of_not_mem, List.count_eq_zero_of_not_mem]
      · simp [dropped]
      · simp [begins]
    · rw [List.count_filter (l := forest.linksIn link.target.trace) (by simp [dropped]), ← before]
      by_cases begins : link.origin = origin
      · -- a link which begins at the point and is not dropped was not there
        have absent : link ∉ forest.linksOut link.origin.trace := by
          intro member
          rw [begins] at member
          exact dropped (List.mem_filter.mpr ⟨member, by simp [begins]⟩)
        rw [List.count_eq_zero_of_not_mem absent, List.count_eq_zero_of_not_mem]
        exact fun member => absent (List.mem_of_mem_filter member)
      · exact List.count_filter (by simp [begins])

/-- The links out of a point give way to a single one. -/
theorem Mirrored.relink
    (mirrored : forest.Mirrored)
    {origin target : TracePoint}
    (begins : (forest.trace? origin.trace).isSome)
    (ends : (forest.trace? target.trace).isSome) :
    ((forest.unlink origin).link origin target).Mirrored := by
  have kept (id : UInt64) := isSome_trace?_congr (outline_unlink forest origin) id
  exact (mirrored.unlink origin).link ((kept _).trans begins) ((kept _).trans ends)

/-- A record mirrors the links which it makes. -/
theorem Step.mirrored
    {record : Jitlog.Record}
    (step : forest.Step record next)
    (tracks : Tracks past.summary forest.outline)
    (mirrored : forest.Mirrored) :
    next.Mirrored := by
  by_cases tying : record.isTying
  · cases step with
    | bridgeUnattached => exact mirrored.of_ties rfl
    | stitchBridge assembled registered =>
        exact mirrored.link (tracks.isSome_of_registered registered)
          (tracks.isSome_of_byStart assembled)
    | counter =>
        exact mirrored.of_links
          (fun id => (links_addCounter forest _ _ _ id).1)
          (fun id => (links_addCounter forest _ _ _ id).2)
    | redirectIgnored => exact mirrored.of_ties rfl
    | redirect known registered =>
        have ends : (forest.trace? (TracePoint.entry _).trace).isSome :=
          Option.isSome_of_eq_some known
        have linked := mirrored.relink (tracks.isSome_of_registered registered) ends
        split
        · exact linked
        · exact linked.of_ties (ties_congr (traces_registerDescriptor _ _ _))
    | _ => cases tying
  · exact mirrored.of_ties (step.ties_eq tying)

/-! ## Reached states -/

/-- In every state of a reader the links are mirrored. -/
theorem mirrored_of_reached
    [Stream.Decompressor]
    {source : Stream.Source}
    {chunk : Nat}
    {history : History}
    {reader : LogReader Jitlog.format}
    (reached : LogReader.Reached source chunk history reader) :
    reader.model.Mirrored :=
  holds_of_reached reached mirrored_start
    (fun same mirrored => mirrored.of_ties (ties_congr same))
    fun step tracks mirrored => step.mirrored tracks mirrored

/-- A trace whose links are mirrored in a forest. -/
structure MirrorsLinks (forest : Forest) (trace : Trace) : Prop where
  /-- Links out of the trace begin in it. -/
  origin : ∀ link ∈ trace.linksOut.toList, link.origin.trace = trace.id
  /-- Links into the trace end in it. -/
  target : ∀ link ∈ trace.linksIn.toList, link.target.trace = trace.id
  /-- Both ends of every link are traces of the forest, which keep the link equally
  often. -/
  ends : ∀ link ∈ trace.linksOut.toList ++ trace.linksIn.toList,
    ∃ origin target,
      forest.trace? link.origin.trace = some origin ∧
      forest.trace? link.target.trace = some target ∧
      origin.linksOut.toList.count link = target.linksIn.toList.count link
  /-- The parent of the trace is another trace of the forest, which lists this one
  among its bridges. -/
  parent : ∀ id, trace.parent? = some id →
    id ≠ trace.id ∧ ∃ parent, forest.trace? id = some parent ∧ trace.id ∈ parent.bridges

variable {trace : Trace}

/-- A link which is kept at one end is kept at the other one. -/
theorem Mirrored.mem_iff (mirrored : forest.Mirrored) (link : TraceLink) :
    link ∈ forest.linksOut link.origin.trace ↔ link ∈ forest.linksIn link.target.trace := by
  rw [← List.count_pos_iff, ← List.count_pos_iff, mirrored.count]

/-- Both ends of a mirrored link are there. -/
theorem Mirrored.ends
    (mirrored : forest.Mirrored)
    {link : TraceLink}
    (member : link ∈ forest.linksOut link.origin.trace) :
    ∃ origin target,
      forest.trace? link.origin.trace = some origin ∧
      forest.trace? link.target.trace = some target ∧
      origin.linksOut.toList.count link = target.linksIn.toList.count link := by
  obtain ⟨origin, begins⟩ := exists_trace_of_mem Trace.Ties.linksOut rfl member
  obtain ⟨target, ends⟩ :=
    exists_trace_of_mem Trace.Ties.linksIn rfl ((mirrored.mem_iff link).mp member)
  refine ⟨origin, target, begins, ends, ?_⟩
  have same := mirrored.count link
  unfold linksOut linksIn at same
  rw [ties_of_trace? begins, ties_of_trace? ends] at same
  exact same

/-- The links of a trace which is found are mirrored. -/
theorem Mirrored.mirrorsLinks
    (mirrored : forest.Mirrored)
    (found : forest.trace? trace.id = some trace) :
    forest.MirrorsLinks trace := by
  have out : forest.linksOut trace.id = trace.linksOut.toList :=
    congrArg Trace.Ties.linksOut (ties_of_trace? found)
  have into : forest.linksIn trace.id = trace.linksIn.toList :=
    congrArg Trace.Ties.linksIn (ties_of_trace? found)
  have kept : ∀ link ∈ trace.linksIn.toList, link ∈ forest.linksOut link.origin.trace := by
    intro link member
    rw [← into] at member
    have ends := mirrored.target _ link member
    rw [mirrored.mem_iff, ends]
    exact member
  constructor
  case origin =>
    intro link member
    exact mirrored.origin _ link (out ▸ member)
  case target =>
    intro link member
    exact mirrored.target _ link (into ▸ member)
  case ends =>
    intro link member
    apply mirrored.ends
    rcases List.mem_append.mp member with leads | comes
    · rw [← out] at leads
      have begins := mirrored.origin _ link leads
      rw [begins]
      exact leads
    · exact kept link comes
  case parent =>
    intro id attached
    unfold Trace.parent? at attached
    have other := List.find?_some attached
    obtain ⟨link, comes, rfl⟩ := List.mem_map.mp (List.mem_of_find?_eq_some attached)
    refine ⟨by simpa using other, ?_⟩
    obtain ⟨parent, begins⟩ := exists_trace_of_mem Trace.Ties.linksOut rfl (kept link comes)
    refine ⟨parent, begins, ?_⟩
    have leads := kept link comes
    have ends := mirrored.target _ link (into ▸ comes)
    unfold linksOut at leads
    rw [ties_of_trace? begins] at leads
    exact ends ▸ List.mem_map_of_mem leads

/-- In every state of a reader of a trace log, the links of all traces are
mirrored. -/
theorem mirrorsLinks_of_reached
    [Stream.Decompressor]
    {source : Stream.Source}
    {chunk : Nat}
    {history : History}
    {reader : LogReader Jitlog.format}
    (reached : LogReader.Reached source chunk history reader) :
    ∀ trace ∈ reader.model.traces.toList, reader.model.MirrorsLinks trace := by
  intro trace member
  exact (mirrored_of_reached reached).mirrorsLinks
    ((tracks_of_reached reached).trace?_of_mem member)

attribute [local instance] Stream.Zstd.decompressor

/-- The links of the log with a bridge are mirrored. -/
theorem mirrorsLinks_of_stitchedLog :
    ∃ reader : LogReader Jitlog.format,
      LogReader.Reached (.ofBytes stitchedLog) 16 stitchedRecords.reverse reader ∧
      reader.model.traces.toList.map Trace.parent? = [none, some 1] ∧
      ∀ trace ∈ reader.model.traces.toList, reader.model.MirrorsLinks trace := by
  obtain ⟨reader, reached, parents, _⟩ := reached_stitchedLog
  exact ⟨reader, reached, parents, mirrorsLinks_of_reached reached⟩

end Forest
end RuntimeLog
