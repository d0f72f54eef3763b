import RuntimeLog.Proofs.CallTree.Counts
import RuntimeLog.Proofs.Pprof.Tables
import RuntimeLog.Proofs.Space.Lookup

/-!
# Consistency of exported profiles

Whatever is sampled in whatever address space, the messages of an exported profile
refer to each other as they should, and every stack can be read off them.
-/

namespace RuntimeLog
namespace Pprof

/-! ## Stages of an export -/

namespace Export

variable (stats : Stats)

/-- The names of the libraries, which are interned first. -/
def libraryNames : TextTable × List Int64 :=
  TextTable.start.internAll (stats.space.libraries.map Library.name)

/-- The key of labels for threads. -/
def threadKey : TextTable × Int64 :=
  (libraryNames stats).1.intern "thread"

/-- The key of labels for tags. -/
def tagKey : TextTable × Int64 :=
  (threadKey stats).1.intern "tag"

/-- The samples with the tables behind them. -/
def samples : Tables × List SampleMessage :=
  exportSamples stats.space { thread := (threadKey stats).2, tag := (tagKey stats).2 }
    { texts := (tagKey stats).1, keys := .empty, functions := .empty, locations := .empty }
    stats.samples

/-- The type of the values. -/
def type : TextTable × Int64 :=
  (samples stats).1.texts.intern "samples"

/-- The unit of the values. -/
def unit : TextTable × Int64 :=
  (type stats).1.intern "count"

/-- The metadata, which is interned last. -/
def comments : TextTable × List Int64 :=
  (unit stats).1.internAll
    (stats.profile.metadata.toList.map fun entry => entry.1 ++ "=" ++ entry.2)

/-- The tables behind all stages. -/
def tables : Tables :=
  { (samples stats).1 with texts := (comments stats).1 }

/-- A profile is built in stages. -/
theorem build_eq :
    build stats =
      { sampleTypes := [{ type := (type stats).2, unit := (unit stats).2 }]
        samples := (samples stats).2
        mappings := (stats.space.libraries.zipIdx.zip (libraryNames stats).2).map fun entry =>
          mappingOf entry.1.1 entry.1.2 entry.2
        locations := (tables stats).locations.toList
        functions := (tables stats).functions.toList
        texts := (tables stats).texts.texts.toList
        timeNanos := (stats.profile.startTime.map nanosOf).getD 0
        periodType := none
        period := 0
        comments := (comments stats).2 } :=
  rfl

end Export

/-! ## Built profiles -/

/-- A mapping of a library with a number. -/
structure Maps (texts : List String) (library : Library × Nat) (mapping : Mapping) : Prop where
  id : mapping.id = UInt64.ofNat (library.2 + 1)
  fileName : LeadsTo texts mapping.fileName library.1.name

/-- A profile which is made of the tables which were filled for some samples. -/
structure BuiltFrom (stats : Stats) (tables : Tables) (message : ProfileMessage) : Prop where
  sound : tables.Sound stats.space
  texts : message.texts = tables.texts.texts.toList
  functions : message.functions = tables.functions.toList
  locations : message.locations = tables.locations.toList
  mappings : List.Forall₂ (Maps message.texts) stats.space.libraries.zipIdx message.mappings
  samples : List.Forall₂ (Tells tables) stats.samples message.samples
  sampleTypes : ∃ type unit,
    message.sampleTypes = [{ type, unit }] ∧
    LeadsTo message.texts type "samples" ∧
    LeadsTo message.texts unit "count"
  comments : List.Forall₂
    (fun (entry : String × String) index =>
      LeadsTo message.texts index (entry.1 ++ "=" ++ entry.2))
    stats.profile.metadata.toList message.comments
  periodType : message.periodType = none

/-- Libraries are mapped to the names which were interned for them. -/
theorem maps_of_named
    {texts : List String}
    {libraries : List Library}
    {names : List Int64}
    (named : List.Forall₂ (fun text index => LeadsTo texts index text)
      (libraries.map Library.name) names)
    (number : Nat) :
    List.Forall₂ (Maps texts) (libraries.zipIdx number)
      (((libraries.zipIdx number).zip names).map fun entry =>
        mappingOf entry.1.1 entry.1.2 entry.2) := by
  induction libraries generalizing names number with
  | nil => exact .nil
  | cons library libraries inductionHypothesis =>
      cases named with
      | cons leads named => exact .cons ⟨rfl, leads⟩ (inductionHypothesis named (number + 1))

/-- What is exported is made of the tables behind all stages. -/
theorem builtFrom_tables
    {stats : Stats}
    (within : ∀ sample ∈ stats.samples, ∀ frame ∈ sample.frames,
      Tables.IsWithin stats.space frame) :
    BuiltFrom stats (Export.tables stats) (build stats) := by
  obtain ⟨start, names⟩ :=
    TextTable.internAll_spec (stats.space.libraries.map Library.name) .start
  obtain ⟨threadGrows, thread⟩ := (Export.libraryNames stats).1.intern_spec "thread"
  obtain ⟨tagGrows, tag⟩ := (Export.threadKey stats).1.intern_spec "tag"
  have sound : Tables.Sound stats.space
      { texts := (Export.tagKey stats).1
        keys := .empty
        functions := .empty
        locations := .empty } :=
    Tables.sound_empty (((start.trans threadGrows).trans tagGrows).sound TextTable.sound_start)
  have labelled : LabelKeys.Sound (Export.tagKey stats).1.texts.toList
      { thread := (Export.threadKey stats).2, tag := (Export.tagKey stats).2 } :=
    ⟨thread.mono tagGrows.kept, tag⟩
  obtain ⟨exportGrows, told⟩ := exportSamples_spec labelled sound within
  obtain ⟨typeGrows, type⟩ := (Export.samples stats).1.texts.intern_spec "samples"
  obtain ⟨unitGrows, unit⟩ := (Export.type stats).1.intern_spec "count"
  obtain ⟨commentGrows, comments⟩ := (Export.unit stats).1.internAll_spec
    (stats.profile.metadata.toList.map fun entry => entry.1 ++ "=" ++ entry.2)
  have behind : (Export.samples stats).1.Grows stats.space (Export.tables stats) :=
    Tables.grows_texts ((typeGrows.trans unitGrows).trans commentGrows)
  have named := ((threadGrows.trans tagGrows).trans exportGrows.texts).trans behind.texts
  rw [Export.build_eq]
  constructor
  case sound => exact behind.sound (exportGrows.sound sound)
  case texts => rfl
  case functions => rfl
  case locations => rfl
  case mappings => exact maps_of_named (names.imp fun _ _ leads => leads.mono named.kept) 0
  case samples => exact told.imp fun _ _ tells => tells.mono behind
  case sampleTypes =>
    exact ⟨_, _, rfl, type.mono (unitGrows.trans commentGrows).kept, unit.mono commentGrows.kept⟩
  case comments => exact List.forall₂_map_left_iff.mp comments
  case periodType => rfl

/-! ## Frames of resolved samples -/

/-- A frame which a lookup finds is in a library of the space, or in none. -/
theorem isWithin_lookup (space : AddressSpace) (address : UInt64) :
    Tables.IsWithin space (space.lookup address) := by
  intro number comes
  unfold AddressSpace.lookup at comes
  split at comes
  · rename_i frame exactly
    obtain ⟨⟨library, place⟩, member, found⟩ := List.exists_of_findSome?_eq_some exactly
    obtain ⟨symbol, _, rfl⟩ := Option.map_eq_some_iff.mp found
    cases comes
    exact ⟨library, List.mem_zipIdx_iff_getElem?.mp (List.mem_of_mem_filter member)⟩
  · split at comes
    · cases comes
    · rename_i library place below
      have known := AddressSpace.library?_of_rangedBelow? below
      split at comes
      · unfold AddressSpace.frameIn at comes
        split at comes
        all_goals
          cases comes
          exact ⟨library, known⟩
      · cases comes

/-- The number of the library of compiled traces is the one of a library. -/
theorem exists_library?_jitNumber (libraries : List Library) :
    ∃ library, (AddressSpace.ofLibraries libraries).library?
      (AddressSpace.ofLibraries libraries).jitNumber = some library := by
  obtain ⟨library, last⟩ := AddressSpace.exists_getLast?_jit libraries
  have chosen := List.mem_of_mem_filter (List.mem_of_getLast? last)
  exact ⟨library, List.mem_zipIdx_iff_getElem?.mp chosen⟩

/-- A resolved frame is in a library of the space, or in none. -/
theorem isWithin_resolveFrame (libraries : List Library) (raw : RawFrame) :
    Tables.IsWithin (AddressSpace.ofLibraries libraries)
      ((AddressSpace.ofLibraries libraries).resolveFrame raw) := by
  unfold AddressSpace.resolveFrame
  dsimp only
  split
  · intro number comes
    cases comes
    exact exists_library?_jitNumber libraries
  · exact isWithin_lookup _ _

/-! ## Ids -/

/-- A list whose entries have the ids from one on. -/
def Numbered {α : Type} (id : α → UInt64) (entries : List α) : Prop :=
  ∀ place entry, entries[place]? = some entry → id entry = UInt64.ofNat (place + 1)

section Numbered

variable {α : Type} {id : α → UInt64} {entries : List α}

/-- Ids which fit into words count from one on. -/
theorem Numbered.map_toNat (numbered : Numbered id entries) (bound : entries.length < 2 ^ 63) :
    entries.map (fun entry => (id entry).toNat) = List.range' 1 entries.length := by
  apply List.ext_getElem (by simp)
  intro place inside _
  have within : place < entries.length := by simpa using inside
  have here : entries[place]? = some entries[place] := List.getElem?_eq_getElem within
  rw [List.getElem_map, numbered place _ here, List.getElem_range', UInt64.toNat_ofNat']
  omega

/-- An entry is found by its id. -/
theorem Numbered.find?_id
    (numbered : Numbered id entries)
    (bound : entries.length < 2 ^ 63)
    {place : Nat}
    {entry : α}
    (here : entries[place]? = some entry) :
    entries.find? (fun other => id other == UInt64.ofNat (place + 1)) = some entry := by
  obtain ⟨inside, same⟩ := List.getElem?_eq_some_iff.mp here
  refine List.find?_eq_some_iff_getElem.mpr ⟨?_, place, inside, same, ?_⟩
  · rw [numbered place entry here]
    exact beq_self_eq_true _
  · intro before below
    have earlier : entries[before]? = some entries[before] := List.getElem?_eq_getElem _
    rw [numbered before _ earlier]
    have different : UInt64.ofNat (before + 1) ≠ UInt64.ofNat (place + 1) := by
      intro equal
      have numbers := congrArg UInt64.toNat equal
      rw [UInt64.toNat_ofNat', UInt64.toNat_ofNat'] at numbers
      omega
    rw [beq_false_of_ne different]
    rfl

end Numbered

/-- Different keys have different ids, as far as these fit into words. -/
theorem Identifies.key_eq
    {keys : List FrameKey}
    (bound : keys.length < 2 ^ 63)
    {id : UInt64}
    {first second : FrameKey}
    (one : Identifies keys id first)
    (other : Identifies keys id second) :
    first = second := by
  obtain ⟨place, found, rfl⟩ := one
  obtain ⟨again, foundAgain, equal⟩ := other
  have numbers := congrArg UInt64.toNat equal
  rw [UInt64.toNat_ofNat', UInt64.toNat_ofNat'] at numbers
  have inside := (List.getElem?_eq_some_iff.mp found).1
  have insideAgain := (List.getElem?_eq_some_iff.mp foundAgain).1
  obtain rfl : place = again := by omega
  exact Option.some.inj (found.symm.trans foundAgain)

/-- A key has one id, if no key is listed twice. -/
theorem Identifies.id_eq
    {keys : List FrameKey}
    (distinct : keys.Nodup)
    {key : FrameKey}
    {first second : UInt64}
    (one : Identifies keys first key)
    (other : Identifies keys second key) :
    first = second := by
  obtain ⟨place, found, rfl⟩ := one
  obtain ⟨again, foundAgain, rfl⟩ := other
  have inside := (List.getElem?_eq_some_iff.mp found).1
  rw [(List.getElem?_inj inside distinct).mp (found.trans foundAgain.symm)]

/-! ## Consistent profiles -/

namespace ProfileMessage

variable (message : ProfileMessage)

/-- All indexes of texts in a profile. -/
def textIndexes : List Int64 :=
  (message.sampleTypes ++ message.periodType.toList).flatMap (fun value =>
      [value.type, value.unit]) ++
    message.samples.flatMap (fun sample =>
      sample.labels.flatMap fun label => [label.key, label.text]) ++
    message.mappings.map Mapping.fileName ++
    message.functions.flatMap (fun function =>
      [function.name, function.systemName, function.fileName]) ++
    message.comments

/-- The text at an index. -/
def text? (index : Int64) : Option String :=
  (place? index).bind fun place => message.texts[place]?

/-- The name of the function at the location with an id. -/
def functionName? (id : UInt64) : Option String := do
  let location ← message.locations.find? fun location => location.id == id
  let line ← location.lines.head?
  let function ← message.functions.find? fun function => function.id == line.function
  message.text? function.name

/-- The lists of a profile which is held in memory: none of them has as many entries as
there are indexes from zero on. -/
structure InMemory : Prop where
  texts : message.texts.length < 2 ^ 63
  locations : message.locations.length < 2 ^ 63
  mappings : message.mappings.length < 2 ^ 63

end ProfileMessage

/-- An exported sample from which the resolved one can be read off. -/
structure Describes
    (message : ProfileMessage)
    (sample : ResolvedSample)
    (exported : SampleMessage) : Prop where
  /-- There is one location for each frame. -/
  length : exported.locations.length = sample.frames.length
  /-- The functions have the names of the frames, leaf first. -/
  stack : exported.locations.map message.functionName? =
    (sample.frames.map fun frame => some frame.name).reverse
  /-- The value is the count, cut at the greatest signed number. -/
  value : exported.values.map Int64.toInt = [((min sample.count.toNat (2 ^ 63 - 1) : Nat) : Int)]
  /-- The labels of tags are those of the topmost tag. -/
  tag : (exported.labels.filter fun label => message.text? label.key == some "tag").map
      (fun label => message.text? label.text) =
    sample.topmostTag?.toList.map fun tag => some tag.name
  /-- There is a topmost tag unless the stack is empty. -/
  tagged : sample.topmostTag? = none ↔ sample.frames = []

/-- The frames of all samples with the ids of their locations. -/
def occurrences (stats : Stats) (message : ProfileMessage) : List (Frame × UInt64) :=
  (stats.samples.zip message.samples).flatMap fun entry =>
    entry.1.frames.reverse.zip entry.2.locations

/-- An exported profile whose messages fit together, and which has all stacks. -/
structure Consistent (stats : Stats) (message : ProfileMessage) : Prop where
  /-- The first text is the empty one. -/
  first : message.texts.head? = some ""
  /-- No text is there twice. -/
  distinct : message.texts.Nodup
  /-- Every index of a text is one of the table. -/
  indexes : ∀ index ∈ message.textIndexes, 0 ≤ index.toInt ∧ index.toInt < message.texts.length
  /-- The ids of locations count from one on. -/
  locations :
    message.locations.map (fun location => location.id.toNat) =
      List.range' 1 message.locations.length
  /-- The ids of functions are those of the locations. -/
  functions :
    message.functions.map (fun function => function.id.toNat) =
      List.range' 1 message.locations.length
  /-- A location has one line, which is in the function with its id. -/
  lines : ∀ location ∈ message.locations,
    ∃ line, location.lines = [line] ∧ line.function = location.id
  /-- The ids of mappings count the libraries. -/
  mappings :
    message.mappings.map (fun mapping => mapping.id.toNat) =
      List.range' 1 stats.space.libraries.length
  /-- A location is in none of the mappings, or in one which is there. -/
  mapped : ∀ location ∈ message.locations,
    location.mapping.toNat ∈ 0 :: List.range' 1 stats.space.libraries.length
  /-- The samples are the resolved ones. -/
  samples : List.Forall₂ (Describes message) stats.samples message.samples
  /-- Frames have the same location exactly if they are the same function. -/
  shared : ∀ one ∈ occurrences stats message, ∀ other ∈ occurrences stats message,
    one.2 = other.2 ↔ one.1.name = other.1.name ∧ one.1.isVirtual = other.1.isVirtual

/-! ## Tables in memory -/

section InMemory

variable {stats : Stats} {tables : Tables} {message : ProfileMessage}

/-- An index which leads to a text is one of the table. -/
theorem bounds_of_leadsTo
    {texts : List String}
    {index : Int64}
    {text : String}
    (leads : LeadsTo texts index text)
    (bound : texts.length < 2 ^ 63) :
    0 ≤ index.toInt ∧ index.toInt < texts.length := by
  obtain ⟨place, found, rfl⟩ := leads
  have inside := (List.getElem?_eq_some_iff.mp found).1
  rw [Int64.toInt_ofNat_of_lt (by omega)]
  omega

/-- The text at an index is the one to which the index leads. -/
theorem text?_of_leadsTo
    {index : Int64}
    {text : String}
    (leads : LeadsTo message.texts index text)
    (bound : message.texts.length < 2 ^ 63) :
    message.text? index = some text := by
  obtain ⟨place, found, rfl⟩ := leads
  have inside := (List.getElem?_eq_some_iff.mp found).1
  unfold ProfileMessage.text?
  rw [place?_ofNat (by omega), Option.bind_some, found]

/-- What was made for the key at some place of sound tables. -/
theorem Tables.Sound.exists_key
    {space : AddressSpace}
    (sound : tables.Sound space)
    {place : Nat}
    (inside : place < tables.keys.size) :
    ∃ key function location,
      tables.keys.toList[place]? = some key ∧
      tables.functions.toList[place]? = some function ∧
      tables.locations.toList[place]? = some location ∧
      MadeFor space tables.texts.texts.toList place key function location := by
  rw [← Journal.length_toList] at inside
  have found : tables.keys.toList[place]? = some tables.keys.toList[place] :=
    List.getElem?_eq_getElem inside
  obtain ⟨function, location, made⟩ := sound.made place _ found
  exact ⟨_, function, location, found, made⟩

/-- The locations of sound tables are numbered, and so are their functions. -/
theorem Tables.Sound.numbered {space : AddressSpace} (sound : tables.Sound space) :
    Numbered Location.id tables.locations.toList ∧
      Numbered FunctionMessage.id tables.functions.toList := by
  constructor
  · intro place location here
    have inside := (List.getElem?_eq_some_iff.mp here).1
    rw [Journal.length_toList, sound.locations] at inside
    obtain ⟨_, _, _, _, _, again, made⟩ := sound.exists_key inside
    cases here.symm.trans again
    exact made.locationId
  · intro place function here
    have inside := (List.getElem?_eq_some_iff.mp here).1
    rw [Journal.length_toList, sound.functions] at inside
    obtain ⟨_, _, _, _, again, _, made⟩ := sound.exists_key inside
    cases here.symm.trans again
    exact made.functionId

/-- A location of sound tables was made for some key. -/
theorem Tables.Sound.exists_of_location
    {space : AddressSpace}
    (sound : tables.Sound space)
    {location : Location}
    (member : location ∈ tables.locations.toList) :
    ∃ place key function, MadeFor space tables.texts.texts.toList place key function location := by
  obtain ⟨place, here⟩ := List.mem_iff_getElem?.mp member
  have inside := (List.getElem?_eq_some_iff.mp here).1
  rw [Journal.length_toList, sound.locations] at inside
  obtain ⟨key, function, _, _, _, again, made⟩ := sound.exists_key inside
  cases here.symm.trans again
  exact ⟨place, key, function, made⟩

/-- A function of sound tables was made for some key. -/
theorem Tables.Sound.exists_of_function
    {space : AddressSpace}
    (sound : tables.Sound space)
    {function : FunctionMessage}
    (member : function ∈ tables.functions.toList) :
    ∃ place key location, MadeFor space tables.texts.texts.toList place key function location := by
  obtain ⟨place, here⟩ := List.mem_iff_getElem?.mp member
  have inside := (List.getElem?_eq_some_iff.mp here).1
  rw [Journal.length_toList, sound.functions] at inside
  obtain ⟨key, _, location, _, again, _, made⟩ := sound.exists_key inside
  cases here.symm.trans again
  exact ⟨place, key, location, made⟩

/-- The id of a key leads to the name of the key. -/
theorem BuiltFrom.functionName?_eq
    (built : BuiltFrom stats tables message)
    (held : message.InMemory)
    {id : UInt64}
    {key : FrameKey}
    (identifies : Identifies tables.keys.toList id key) :
    message.functionName? id = some key.name := by
  obtain ⟨place, found, rfl⟩ := identifies
  obtain ⟨function, location, hasFunction, hasLocation, made⟩ := built.sound.made place key found
  obtain ⟨numberedLocations, numberedFunctions⟩ := built.sound.numbered
  rw [← built.locations] at numberedLocations hasLocation
  rw [← built.functions] at numberedFunctions hasFunction
  have functionBound : message.functions.length < 2 ^ 63 := by
    have same : message.functions.length = message.locations.length := by
      simp [built.functions, built.locations, built.sound.functions, built.sound.locations]
    exact same ▸ held.locations
  unfold ProfileMessage.functionName?
  rw [numberedLocations.find?_id held.locations hasLocation]
  simp only [Option.bind_eq_bind, Option.bind_some, made.lines, List.head?_cons, made.locationId,
    numberedFunctions.find?_id functionBound hasFunction]
  exact text?_of_leadsTo (built.texts ▸ made.name) held.texts

/-- An entry on the right of related lists is related to one on the left. -/
theorem exists_of_mem_right
    {α β : Type}
    {related : α → β → Prop}
    {left : List α}
    {right : List β}
    (all : List.Forall₂ related left right)
    {entry : β}
    (member : entry ∈ right) :
    ∃ other ∈ left, related other entry := by
  induction all with
  | nil => cases member
  | cons first rest inductionHypothesis =>
      rcases List.mem_cons.mp member with rfl | behind
      · exact ⟨_, List.mem_cons_self, first⟩
      · obtain ⟨other, inside, same⟩ := inductionHypothesis behind
        exact ⟨other, List.mem_cons_of_mem _ inside, same⟩

/-- Every index of a built profile leads to some text. -/
theorem BuiltFrom.exists_leadsTo
    (built : BuiltFrom stats tables message)
    {index : Int64}
    (used : index ∈ message.textIndexes) :
    ∃ text, LeadsTo message.texts index text := by
  unfold ProfileMessage.textIndexes at used
  simp only [List.mem_append, or_assoc] at used
  rcases used with typed | labelled | mapped | called | commented
  · obtain ⟨type, unit, same, leadsType, leadsUnit⟩ := built.sampleTypes
    rw [same, built.periodType] at typed
    simp only [Option.toList_none, List.append_nil, List.flatMap_cons, List.flatMap_nil,
      List.mem_cons, List.not_mem_nil, or_false] at typed
    rcases typed with rfl | rfl
    · exact ⟨_, leadsType⟩
    · exact ⟨_, leadsUnit⟩
  · obtain ⟨exported, member, inSample⟩ := List.mem_flatMap.mp labelled
    obtain ⟨label, labels, inLabel⟩ := List.mem_flatMap.mp inSample
    obtain ⟨sample, _, tells⟩ := exists_of_mem_right built.samples member
    obtain ⟨thread, tags, same, threadTold, tagTold⟩ := tells.labels
    rw [← built.texts] at threadTold tagTold
    rw [same] at labels
    simp only [List.mem_cons, List.not_mem_nil, or_false] at labels inLabel
    rcases labels with rfl | tagged
    · rcases inLabel with rfl | rfl
      · exact ⟨_, threadTold.key⟩
      · exact ⟨_, threadTold.text⟩
    · obtain ⟨tag, _, told⟩ := exists_of_mem_right tagTold tagged
      rcases inLabel with rfl | rfl
      · exact ⟨_, told.key⟩
      · exact ⟨_, told.text⟩
  · obtain ⟨mapping, member, rfl⟩ := List.mem_map.mp mapped
    obtain ⟨library, _, maps⟩ := exists_of_mem_right built.mappings member
    exact ⟨_, maps.fileName⟩
  · obtain ⟨function, member, inFunction⟩ := List.mem_flatMap.mp called
    rw [built.functions] at member
    obtain ⟨place, key, location, made⟩ := built.sound.exists_of_function member
    have named := made.name
    have placed := made.origin
    rw [← built.texts] at named placed
    simp only [List.mem_cons, List.not_mem_nil, or_false, made.systemName] at inFunction
    rcases inFunction with rfl | rfl | rfl
    · exact ⟨_, named⟩
    · exact ⟨_, named⟩
    · rcases placed with ⟨_, unnamed⟩ | ⟨_, library, _, _, filed⟩
      · exact ⟨_, unnamed⟩
      · exact ⟨_, filed⟩
  · obtain ⟨entry, _, leads⟩ := exists_of_mem_right built.comments commented
    exact ⟨_, leads⟩

/-- The labels of tags have the key of tags, and the names of the tags as texts. -/
theorem map_text?_of_tellsTag
    (bound : message.texts.length < 2 ^ 63)
    {tags : List StackTag}
    {labels : List Label}
    (told : List.Forall₂ (TellsTag message.texts) tags labels) :
    (labels.filter fun label => message.text? label.key == some "tag").map
        (fun label => message.text? label.text) =
      tags.map fun tag => some tag.name := by
  induction told with
  | nil => rfl
  | cons first rest inductionHypothesis =>
      have key := text?_of_leadsTo first.key bound
      rw [List.filter_cons_of_pos (by simp [key]), List.map_cons, List.map_cons,
        inductionHypothesis, text?_of_leadsTo first.text bound]

/-- A resolved sample can be read off the message which tells it. -/
theorem BuiltFrom.describes
    (built : BuiltFrom stats tables message)
    (held : message.InMemory)
    {sample : ResolvedSample}
    {exported : SampleMessage}
    (tagged : sample.topmostTag? = none ↔ sample.frames = [])
    (tells : Tells tables sample exported) :
    Describes message sample exported := by
  constructor
  case length =>
    rw [← tells.locations.length_eq, List.length_reverse]
  case stack =>
    have named : List.Forall₂ (fun frame id => message.functionName? id = some (Frame.name frame))
        sample.frames.reverse exported.locations :=
      tells.locations.imp fun _ _ identifies => built.functionName?_eq held identifies
    have mapped : List.Forall₂ Eq (exported.locations.map message.functionName?)
        (sample.frames.reverse.map fun frame => some frame.name) :=
      List.forall₂_map_left_iff.mpr (List.forall₂_map_right_iff.mpr named.flip)
    rw [List.forall₂_eq_eq_eq] at mapped
    rw [mapped, List.map_reverse]
  case value =>
    rw [tells.values, List.map_singleton, toInt_clamp]
  case tag =>
    obtain ⟨thread, tags, same, threadTold, tagTold⟩ := tells.labels
    rw [← built.texts] at threadTold tagTold
    have threadKey := text?_of_leadsTo threadTold.key held.texts
    rw [same, List.filter_cons_of_neg (by simp [threadKey])]
    exact map_text?_of_tellsTag held.texts tagTold
  case tagged => exact tagged

/-- A frame occurs with an id of its key. -/
theorem BuiltFrom.identifies_of_occurrence
    (built : BuiltFrom stats tables message)
    {occurrence : Frame × UInt64}
    (occurs : occurrence ∈ occurrences stats message) :
    Identifies tables.keys.toList occurrence.2 occurrence.1.key := by
  obtain ⟨entry, member, inside⟩ := List.mem_flatMap.mp occurs
  exact List.forall₂_zip (List.forall₂_zip built.samples member).locations inside

/-- The mappings of a built profile are numbered. -/
theorem BuiltFrom.numbered_mappings (built : BuiltFrom stats tables message) :
    Numbered Mapping.id message.mappings ∧
      message.mappings.length = stats.space.libraries.length := by
  have length : message.mappings.length = stats.space.libraries.length := by
    rw [← built.mappings.length_eq, List.length_zipIdx]
  refine ⟨?_, length⟩
  intro place mapping here
  obtain ⟨inside, same⟩ := List.getElem?_eq_some_iff.mp here
  have maps := built.mappings.get (by simpa [length] using inside) inside
  simp only [List.get_eq_getElem, List.getElem_zipIdx, same, Nat.zero_add] at maps
  exact maps.id

/-- A built profile is consistent. -/
theorem BuiltFrom.consistent
    (built : BuiltFrom stats tables message)
    (held : message.InMemory)
    (tagged : ∀ sample ∈ stats.samples, sample.topmostTag? = none ↔ sample.frames = []) :
    Consistent stats message := by
  obtain ⟨numberedLocations, numberedFunctions⟩ := built.sound.numbered
  rw [← built.locations] at numberedLocations
  rw [← built.functions] at numberedFunctions
  have sameLength : message.functions.length = message.locations.length := by
    simp [built.functions, built.locations, built.sound.functions, built.sound.locations]
  obtain ⟨numberedMappings, mappingCount⟩ := built.numbered_mappings
  constructor
  case first => exact built.texts ▸ built.sound.texts.first
  case distinct => exact built.texts ▸ built.sound.texts.distinct
  case indexes =>
    intro index used
    obtain ⟨text, leads⟩ := built.exists_leadsTo used
    exact bounds_of_leadsTo leads held.texts
  case locations => exact numberedLocations.map_toNat held.locations
  case functions =>
    rw [← sameLength]
    exact numberedFunctions.map_toNat (sameLength ▸ held.locations)
  case lines =>
    intro location member
    rw [built.locations] at member
    obtain ⟨_, _, _, made⟩ := built.sound.exists_of_location member
    exact ⟨_, made.lines, rfl⟩
  case mappings =>
    rw [← mappingCount]
    exact numberedMappings.map_toNat held.mappings
  case mapped =>
    intro location member
    rw [built.locations] at member
    obtain ⟨_, _, _, made⟩ := built.sound.exists_of_location member
    rcases made.origin with ⟨unmapped, _⟩ | ⟨number, library, found, mapped, _⟩
    · rw [unmapped]
      exact List.mem_cons_self
    · have inside := (List.getElem?_eq_some_iff.mp found).1
      have bound := held.mappings
      rw [mapped, UInt64.toNat_ofNat', Nat.mod_eq_of_lt (by omega)]
      exact List.mem_cons_of_mem _ (List.mem_range'_1.mpr (by omega))
  case samples =>
    refine List.forall₂_iff_zip.mpr ⟨built.samples.length_eq, ?_⟩
    intro sample exported member
    exact built.describes held (tagged sample (List.of_mem_zip member).1)
      (List.forall₂_zip built.samples member)
  case shared =>
    intro one occursOne other occursOther
    have identifiesOne := built.identifies_of_occurrence occursOne
    have identifiesOther := built.identifies_of_occurrence occursOther
    have bound : tables.keys.toList.length < 2 ^ 63 := by
      have short := held.locations
      rw [built.locations, Journal.length_toList, built.sound.locations] at short
      rwa [Journal.length_toList]
    constructor
    · intro same
      have key := Identifies.key_eq bound (same ▸ identifiesOne) identifiesOther
      exact ⟨congrArg FrameKey.name key, congrArg FrameKey.isVirtual key⟩
    · rintro ⟨name, virtual⟩
      have key : one.1.key = other.1.key := FrameKey.mk.injEq .. ▸ ⟨name, virtual⟩
      exact Identifies.id_eq built.sound.keys (key ▸ identifiesOne) identifiesOther

end InMemory

/-! ## Exported profiles -/

/-- Whatever profile is exported in whatever address space, the exported profile is
consistent. -/
theorem consistent_build
    (profile : Profile)
    (libraries : List Library)
    (held : (build (.ofProfile profile (.ofLibraries libraries))).InMemory) :
    Consistent (.ofProfile profile (.ofLibraries libraries))
      (build (.ofProfile profile (.ofLibraries libraries))) := by
  have within : ∀ sample ∈ (Stats.ofProfile profile (.ofLibraries libraries)).samples,
      ∀ frame ∈ sample.frames, Tables.IsWithin (.ofLibraries libraries) frame := by
    intro sample member frame inside
    obtain ⟨raw, _, rfl⟩ := List.mem_map.mp member
    obtain ⟨address, _, rfl⟩ := List.mem_map.mp inside
    exact isWithin_resolveFrame libraries address
  refine (builtFrom_tables within).consistent held ?_
  intro sample member
  obtain ⟨raw, _, rfl⟩ := List.mem_map.mp member
  rw [ResolvedSample.topmostTag?, List.getLast?_eq_none_iff]
  exact SampledStack.tagStack_eq_nil

/-! ## A profile with a recursive stack -/

/-- A library of compiled traces with two functions. -/
def sampledLibrary : Library :=
  { Library.ofRange LibraryKind.jitName 16 64 with
    symbols :=
      [{ address := 16, finish := none, name := "main" },
        { address := 32, finish := none, name := "step" }] }

/-- A stack without frames, and a recursive one which was sampled very often. -/
def sampledProfile : Profile :=
  { Profile.start { formatFlag := 0x50, version := 3, words := .eight, machine := "" } with
    samples :=
      (Journal.empty.push
        { count := 2, frames := [], thread := 1, memory := none, compiling := false }).push
        { count := 0x8000000000000000
          frames := [⟨.code, 20⟩, ⟨.code, 40⟩, ⟨.code, 41⟩]
          thread := 1
          memory := none
          compiling := false } }

/-- A library of compiled traces makes a space on its own. -/
theorem ofLibraries_sampledLibrary :
    AddressSpace.ofLibraries [sampledLibrary] = ⟨[sampledLibrary]⟩ := by
  have jit : ([sampledLibrary].any fun library => library.kind = .jit) = true := rfl
  unfold AddressSpace.ofLibraries AddressSpace.sortLibraries
  simp only [jit, if_true, List.mergeSort_singleton]

set_option maxRecDepth 8000 in
/-- The profile with a recursive stack is exported consistently: both frames of the
recursive function have one location. -/
theorem consistent_build_of_sampledProfile :
    ∃ stats message,
      stats = Stats.ofProfile sampledProfile (.ofLibraries [sampledLibrary]) ∧
      message = build stats ∧
      message.InMemory ∧
      message.samples.map SampleMessage.locations = [[], [1, 1, 2]] ∧
      Consistent stats message := by
  have exported :
      (build (.ofProfile sampledProfile (.ofLibraries [sampledLibrary]))).InMemory ∧
        (build (.ofProfile sampledProfile (.ofLibraries [sampledLibrary]))).samples.map
          SampleMessage.locations = [[], [1, 1, 2]] := by
    rw [ofLibraries_sampledLibrary]
    exact ⟨⟨by decide, by decide, by decide⟩, by decide⟩
  exact ⟨_, _, rfl, rfl, exported.1, exported.2,
    consistent_build sampledProfile [sampledLibrary] exported.1⟩

end Pprof
end RuntimeLog
