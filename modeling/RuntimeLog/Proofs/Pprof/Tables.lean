import RuntimeLog.Proofs.Pprof.Texts

/-!
# Tables of functions and locations

While samples are exported, a function and a location are made for every key of a
frame which was not met before.  They stand at the same place of their tables as
the key, and their ids count from one on.
-/

namespace RuntimeLog
namespace Pprof

/-! ## Entries -/

/-- An id of a key in a list of keys. -/
def Identifies (keys : List FrameKey) (id : UInt64) (key : FrameKey) : Prop :=
  ∃ place, keys[place]? = some key ∧ id = UInt64.ofNat (place + 1)

/-- A mapping and a file name which stand for the same library, or for none. -/
def Origin (space : AddressSpace) (texts : List String) (mapping : UInt64) (fileName : Int64) :
    Prop :=
  mapping = 0 ∧ LeadsTo texts fileName "" ∨
    ∃ number library,
      space.library? number = some library ∧
      mapping = UInt64.ofNat (number + 1) ∧
      LeadsTo texts fileName library.name

/-- A function and a location which were made for a key at some place. -/
structure MadeFor
    (space : AddressSpace)
    (texts : List String)
    (place : Nat)
    (key : FrameKey)
    (function : FunctionMessage)
    (location : Location) : Prop where
  functionId : function.id = UInt64.ofNat (place + 1)
  name : LeadsTo texts function.name key.name
  systemName : function.systemName = function.name
  locationId : location.id = UInt64.ofNat (place + 1)
  lines : location.lines = [{ function := location.id, line := 0 }]
  origin : Origin space texts location.mapping function.fileName

variable {space : AddressSpace} {texts more : List String} {keys later : List FrameKey}
variable {id : UInt64} {key : FrameKey}

/-- An id is the one of the same key when keys are appended. -/
theorem Identifies.mono (identifies : Identifies keys id key) (kept : keys <+: later) :
    Identifies later id key := by
  obtain ⟨place, found, same⟩ := identifies
  exact ⟨place, getElem?_of_prefix kept found, same⟩

/-- Where a function comes from does not change when texts are appended. -/
theorem Origin.mono
    {mapping : UInt64}
    {fileName : Int64}
    (origin : Origin space texts mapping fileName)
    (kept : texts <+: more) :
    Origin space more mapping fileName := by
  rcases origin with ⟨unmapped, unnamed⟩ | ⟨number, library, found, mapped, named⟩
  · exact Or.inl ⟨unmapped, unnamed.mono kept⟩
  · exact Or.inr ⟨number, library, found, mapped, named.mono kept⟩

/-- What was made for a key is about the same texts when others are appended. -/
theorem MadeFor.mono
    {place : Nat}
    {function : FunctionMessage}
    {location : Location}
    (made : MadeFor space texts place key function location)
    (kept : texts <+: more) :
    MadeFor space more place key function location :=
  { made with
    name := made.name.mono kept
    origin := made.origin.mono kept }

/-! ## Tables -/

namespace Tables

/-- Tables which have a function and a location for each of their keys. -/
structure Sound (space : AddressSpace) (tables : Tables) : Prop where
  texts : tables.texts.Sound
  keys : tables.keys.toList.Nodup
  functions : tables.functions.size = tables.keys.size
  locations : tables.locations.size = tables.keys.size
  made : ∀ place key, tables.keys.toList[place]? = some key →
    ∃ function location,
      tables.functions.toList[place]? = some function ∧
      tables.locations.toList[place]? = some location ∧
      MadeFor space tables.texts.texts.toList place key function location

/-- Tables to which entries were added. -/
structure Grows (space : AddressSpace) (tables later : Tables) : Prop where
  texts : tables.texts.Grows later.texts
  keys : tables.keys.toList <+: later.keys.toList
  sound : tables.Sound space → later.Sound space

variable {tables middle last : Tables}

theorem Grows.refl (space : AddressSpace) (tables : Tables) : tables.Grows space tables where
  texts := .refl tables.texts
  keys := List.prefix_rfl
  sound := id

theorem Grows.trans (first : tables.Grows space middle) (second : middle.Grows space last) :
    tables.Grows space last where
  texts := first.texts.trans second.texts
  keys := first.keys.trans second.keys
  sound := second.sound ∘ first.sound

/-- Tables without keys are sound. -/
theorem sound_empty {texts : TextTable} (sound : texts.Sound) :
    Sound space { texts, keys := .empty, functions := .empty, locations := .empty } where
  texts := sound
  keys := List.nodup_nil
  functions := rfl
  locations := rfl
  made _ _ found := by simp at found

/-- The table of texts may grow on its own. -/
theorem grows_texts {texts : TextTable} (grows : tables.texts.Grows texts) :
    tables.Grows space { tables with texts } where
  texts := grows
  keys := List.prefix_rfl
  sound := by
    intro sound
    refine { sound with texts := grows.sound sound.texts, made := ?_ }
    intro place key found
    obtain ⟨function, location, hasFunction, hasLocation, made⟩ := sound.made place key found
    exact ⟨function, location, hasFunction, hasLocation, made.mono grows.kept⟩

/-- The entry of a longer list is an old one or the appended one. -/
theorem getElem?_concat_cases
    {α : Type}
    {entries : List α}
    {entry found : α}
    {place : Nat}
    (member : (entries ++ [entry])[place]? = some found) :
    entries[place]? = some found ∨ place = entries.length ∧ found = entry := by
  rcases Nat.lt_or_ge place entries.length with inside | behind
  · rw [List.getElem?_append_left inside] at member
    exact Or.inl member
  · rw [List.getElem?_append_right behind, List.getElem?_singleton] at member
    split at member
    · cases member
      exact Or.inr ⟨by omega, rfl⟩
    · cases member

/-- Tables stay sound when a function and a location are made for a new key. -/
theorem Sound.push
    (sound : tables.Sound space)
    {function : FunctionMessage}
    {location : Location}
    (new : key ∉ tables.keys.toList)
    (made : MadeFor space tables.texts.texts.toList tables.keys.size key function location) :
    Sound space
      { texts := tables.texts
        keys := tables.keys.push key
        functions := tables.functions.push function
        locations := tables.locations.push location } where
  texts := sound.texts
  keys := by
    rw [Journal.toList_push]
    refine List.nodup_append.mpr ⟨sound.keys, List.nodup_singleton key, ?_⟩
    intro old member other same equal
    exact new (List.mem_singleton.mp same ▸ equal ▸ member)
  functions := by simp [sound.functions]
  locations := by simp [sound.locations]
  made := by
    intro place other found
    simp only [Journal.toList_push] at found ⊢
    have functions : tables.functions.toList.length = tables.keys.toList.length := by
      simp [sound.functions]
    have locations : tables.locations.toList.length = tables.keys.toList.length := by
      simp [sound.locations]
    rcases getElem?_concat_cases found with old | ⟨rfl, rfl⟩
    · obtain ⟨function, location, hasFunction, hasLocation, made⟩ := sound.made place other old
      exact ⟨function, location, getElem?_of_prefix (List.prefix_append _ _) hasFunction,
        getElem?_of_prefix (List.prefix_append _ _) hasLocation, made⟩
    · refine ⟨function, location, ?_, ?_, Journal.length_toList _ ▸ made⟩
      · rw [← functions]
        exact List.getElem?_concat_length
      · rw [← locations]
        exact List.getElem?_concat_length

/-! ## Frames -/

/-- A frame which is in a library of a space, or in none. -/
def IsWithin (space : AddressSpace) (frame : Frame) : Prop :=
  ∀ number, frame.library = some number → ∃ library, space.library? number = some library

/-- The tables behind the first frame of a function: its name and file name are
interned, and a function and a location are made. -/
theorem grows_push
    {texts : TextTable}
    {function : FunctionMessage}
    {location : Location}
    (new : key ∉ tables.keys.toList)
    (grows : tables.texts.Grows texts)
    (made : texts.Sound →
      MadeFor space texts.texts.toList tables.keys.size key function location) :
    tables.Grows space
      { texts
        keys := tables.keys.push key
        functions := tables.functions.push function
        locations := tables.locations.push location } where
  texts := grows
  keys := by
    rw [Journal.toList_push]
    exact List.prefix_append _ _
  sound sound := ((grows_texts grows).sound sound).push new (made (grows.sound sound.texts))

/-- The location of a frame has an id of the key of the frame. -/
theorem locate_spec
    (tables : Tables)
    {frame : Frame}
    (within : IsWithin space frame) :
    tables.Grows space (tables.locate space frame).1 ∧
      Identifies (tables.locate space frame).1.keys.toList (tables.locate space frame).2
        frame.key := by
  unfold locate
  split
  · rename_i place found
    obtain ⟨bound, here, _⟩ := List.idxOf?_eq_some_iff.mp found
    exact ⟨.refl space tables, place, here ▸ List.getElem?_eq_getElem bound, rfl⟩
  · rename_i missing
    have new := List.idxOf?_eq_none_iff.mp missing
    have listed : (tables.keys.push frame.key).toList[tables.keys.size]? = some frame.key := by
      rw [Journal.toList_push, ← Journal.length_toList]
      exact List.getElem?_concat_length
    obtain ⟨named, leads⟩ := tables.texts.intern_spec frame.name
    cases comes : frame.library with
    | none =>
        refine ⟨grows_push new named fun sound => ?_, _, listed, rfl⟩
        exact ⟨rfl, leads, rfl, rfl, rfl, Or.inl ⟨rfl, TextTable.leadsTo_empty sound⟩⟩
    | some number =>
        obtain ⟨library, found⟩ := within number comes
        obtain ⟨filed, leadsOn⟩ := (tables.texts.intern frame.name).1.intern_spec library.name
        simp only [Option.bind_some, found]
        refine ⟨grows_push new (named.trans filed) fun sound => ?_, _, listed, rfl⟩
        exact ⟨rfl, leads.mono filed.kept, rfl, rfl, rfl,
          Or.inr ⟨number, library, found, rfl, leadsOn⟩⟩

/-- The locations of frames are made one after the other. -/
theorem locateAll_eq_each (space : AddressSpace) (tables : Tables) (frames : List Frame) :
    tables.locateAll space frames =
      each (fun tables frame => tables.locate space frame) tables frames := by
  have gathered := foldl_eq_each (fun tables frame => locate tables space frame) frames tables []
  unfold locateAll
  simp only [gathered, List.append_nil, List.reverse_reverse]

/-- The locations of frames have ids of the keys of the frames. -/
theorem locateAll_spec
    (tables : Tables)
    {frames : List Frame}
    (within : ∀ frame ∈ frames, IsWithin space frame) :
    tables.Grows space (tables.locateAll space frames).1 ∧
      List.Forall₂
        (fun frame id =>
          Identifies (tables.locateAll space frames).1.keys.toList id (Frame.key frame))
        frames (tables.locateAll space frames).2 := by
  rw [locateAll_eq_each]
  exact each_spec (Grows space)
    (fun tables frame id => Identifies tables.keys.toList id (Frame.key frame))
    (Grows.refl space) Grows.trans (fun identifies grows => identifies.mono grows.keys)
    (fun tables _ frame member => tables.locate_spec (within frame member))

end Tables

/-! ## Samples -/

/-- The keys of labels as they are in a list of texts. -/
structure LabelKeys.Sound (texts : List String) (keys : LabelKeys) : Prop where
  thread : LeadsTo texts keys.thread "thread"
  tag : LeadsTo texts keys.tag "tag"

/-- The label of a thread. -/
structure TellsThread (texts : List String) (label : Label) : Prop where
  key : LeadsTo texts label.key "thread"
  text : LeadsTo texts label.text ""

/-- The label of a tag. -/
structure TellsTag (texts : List String) (tag : StackTag) (label : Label) : Prop where
  key : LeadsTo texts label.key "tag"
  text : LeadsTo texts label.text tag.name

/-- A message which tells a sample in terms of some tables. -/
structure Tells (tables : Tables) (sample : ResolvedSample) (message : SampleMessage) : Prop where
  locations : List.Forall₂
    (fun frame id => Identifies tables.keys.toList id (Frame.key frame))
    sample.frames.reverse message.locations
  values : message.values = [clamp sample.count]
  labels : ∃ thread tags,
    message.labels = thread :: tags ∧
    TellsThread tables.texts.texts.toList thread ∧
    List.Forall₂ (TellsTag tables.texts.texts.toList) sample.topmostTag?.toList tags

variable {tables later : Tables} {sample : ResolvedSample} {message : SampleMessage}

/-- A message tells the same sample when the tables grow. -/
theorem Tells.mono (tells : Tells tables sample message) (grows : tables.Grows space later) :
    Tells later sample message where
  locations := tells.locations.imp fun _ _ identifies => identifies.mono grows.keys
  values := tells.values
  labels := by
    obtain ⟨thread, tags, labels, ⟨threadKey, threadText⟩, named⟩ := tells.labels
    have kept := grows.texts.kept
    refine ⟨thread, tags, labels, ⟨threadKey.mono kept, threadText.mono kept⟩, ?_⟩
    exact named.imp fun tag label told => ⟨told.key.mono kept, told.text.mono kept⟩

/-- A sample is told by the message to which it is exported. -/
theorem exportSample_spec
    {keys : LabelKeys}
    (labelled : LabelKeys.Sound tables.texts.texts.toList keys)
    (sound : tables.Sound space)
    (within : ∀ frame ∈ sample.frames, Tables.IsWithin space frame) :
    tables.Grows space (exportSample space keys tables sample).1 ∧
      Tells (exportSample space keys tables sample).1 sample
        (exportSample space keys tables sample).2 := by
  have leafFirst : ∀ frame ∈ sample.frames.reverse, Tables.IsWithin space frame :=
    fun frame member => within frame (List.mem_reverse.mp member)
  obtain ⟨located, identified⟩ := tables.locateAll_spec leafFirst
  have thread : TellsThread (tables.locateAll space sample.frames.reverse).1.texts.texts.toList
      { key := keys.thread, text := 0, number := clamp sample.thread } :=
    ⟨labelled.thread.mono located.texts.kept,
      TextTable.leadsTo_empty (located.sound sound).texts⟩
  unfold exportSample
  cases topmost : sample.topmostTag? with
  | none =>
      refine ⟨located, identified, rfl, _, [], rfl, thread, ?_⟩
      rw [topmost]
      exact .nil
  | some tag =>
      obtain ⟨named, leads⟩ :=
        (tables.locateAll space sample.frames.reverse).1.texts.intern_spec tag.name
      refine ⟨located.trans (Tables.grows_texts named), identified, rfl, _, [_], rfl,
        ⟨thread.key.mono named.kept, thread.text.mono named.kept⟩, ?_⟩
      rw [topmost]
      exact .cons ⟨(labelled.tag.mono located.texts.kept).mono named.kept, leads⟩ .nil

/-- Samples are told by the messages to which they are exported. -/
theorem exportSamples_spec
    {keys : LabelKeys}
    {samples : List ResolvedSample}
    (labelled : LabelKeys.Sound tables.texts.texts.toList keys)
    (sound : tables.Sound space)
    (within : ∀ sample ∈ samples, ∀ frame ∈ sample.frames, Tables.IsWithin space frame) :
    tables.Grows space (exportSamples space keys tables samples).1 ∧
      List.Forall₂ (Tells (exportSamples space keys tables samples).1) samples
        (exportSamples space keys tables samples).2 := by
  have gathered := foldl_eq_each (exportSample space keys) samples tables []
  unfold exportSamples
  simp only [gathered, List.append_nil, List.reverse_reverse]
  apply each_spec (Tables.Grows space) Tells (Tables.Grows.refl space) Tables.Grows.trans Tells.mono
  intro known grown sample member
  have kept := grown.texts.kept
  exact exportSample_spec ⟨labelled.thread.mono kept, labelled.tag.mono kept⟩
    (grown.sound sound) (within sample member)

end Pprof
end RuntimeLog
