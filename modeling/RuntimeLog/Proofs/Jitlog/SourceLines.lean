import RuntimeLog.Proofs.Jitlog.Replay
import RuntimeLog.Stream.Zstd.Decoder

/-!
# Source lines in trace logs

A cache of source lines which is written to a log is decoded to the same cache, in
however many records the lines of a file are written.  Where two caches are
written, the lines of the first one count before those of the second one.
-/

namespace RuntimeLog

/-- A line of a source file, with its place. -/
structure PlacedLine where
  file : String
  line : UInt16
  source : SourceLine
deriving DecidableEq, Repr

/-- A line whose text and the name of whose file are shorter than 2³² bytes. -/
structure PlacedLine.Short (entry : PlacedLine) : Prop where
  file_lt : (Text.toUtf8 entry.file).length < 2 ^ 32
  text_lt : (Text.toUtf8 entry.source.text).length < 2 ^ 32

namespace SourceCache

/-- Store lines one after the other. -/
def store (cache : SourceCache) (lines : List PlacedLine) : SourceCache :=
  lines.foldl (fun cache entry => cache.insert entry.file entry.line entry.source) cache

/-- The cache in which some lines were stored. -/
def ofLines (lines : List PlacedLine) : SourceCache :=
  empty.store lines

/-- The lines of a cache. -/
def lines (cache : SourceCache) : List PlacedLine :=
  cache.files.toList.flatMap fun entry =>
    entry.2.toList.map fun line => { file := entry.1, line := line.1, source := line.2 }

/-- A cache which only has files with lines. -/
def Tidy (cache : SourceCache) : Prop :=
  ∀ file lines, cache.file? file = some lines → lines ≠ ∅

variable {cache left right : SourceCache} {entry : PlacedLine} {lines : List PlacedLine}

/-! ## Look-ups -/

@[simp] theorem get?_empty (file : String) (line : UInt16) : empty.get? file line = none := by
  simp [get?, file?, empty]

/-- A line which is stored is there unless there was one before. -/
theorem get?_insert
    (cache : SourceCache)
    (file other : String)
    (line number : UInt16)
    (source : SourceLine) :
    (cache.insert file line source).get? other number =
      (cache.get? other number).or
        (if file = other ∧ line = number then some source else none) := by
  unfold insert
  cases known : cache.get? file line with
  | some kept =>
      by_cases here : file = other ∧ line = number
      · obtain ⟨rfl, rfl⟩ := here
        rw [known]
        rfl
      · rw [if_neg here, Option.or_none]
  | none =>
      by_cases same : file = other
      · subst same
        have before : cache.get? file number = ((cache.file? file).getD ∅)[number]? := by
          unfold get?
          cases cache.file? file <;> simp
        have after : (SourceCache.mk (cache.files.insert file
              (((cache.file? file).getD ∅).insert line source))).get? file number =
            (((cache.file? file).getD ∅).insert line source)[number]? := by
          simp [get?, file?]
        rw [after, before, Std.ExtTreeMap.getElem?_insert]
        by_cases here : line = number
        · subst here
          have missing := before.symm.trans known
          simp [missing]
        · simp [here]
      · have after : (SourceCache.mk (cache.files.insert file
              (((cache.file? file).getD ∅).insert line source))).get? other number =
            cache.get? other number := by
          simp [get?, file?, Std.ExtTreeMap.getElem?_insert, same]
        rw [after]
        simp [same]

/-- A line which is stored is there unless there was one before, or one for the same
place among those stored before it. -/
theorem get?_store
    (cache : SourceCache)
    (lines : List PlacedLine)
    (file : String)
    (line : UInt16) :
    (cache.store lines).get? file line =
      (cache.get? file line).or
        ((lines.find? fun entry => entry.file = file ∧ entry.line = line).map
          PlacedLine.source) := by
  induction lines generalizing cache with
  | nil => simp [store]
  | cons entry lines inductionHypothesis =>
      change ((cache.insert entry.file entry.line entry.source).store lines).get? file line = _
      rw [inductionHypothesis, get?_insert, Option.or_assoc, List.find?_cons]
      by_cases here : entry.file = file ∧ entry.line = line <;> simp [here]

/-- The first line which was stored for a place is found there. -/
theorem get?_ofLines (lines : List PlacedLine) (file : String) (line : UInt16) :
    (ofLines lines).get? file line =
      (lines.find? fun entry => entry.file = file ∧ entry.line = line).map PlacedLine.source := by
  rw [ofLines, get?_store, get?_empty, Option.none_or]

/-- Lines behind others are stored behind them. -/
theorem store_append (cache : SourceCache) (earlier later : List PlacedLine) :
    cache.store (earlier ++ later) = (cache.store earlier).store later :=
  List.foldl_append

/-- The lines of a cache are those which are found in it. -/
theorem mem_lines : entry ∈ cache.lines ↔ cache.get? entry.file entry.line = some entry.source := by
  simp only [SourceCache.lines, List.mem_flatMap, List.mem_map, Prod.exists,
    Std.ExtTreeMap.mem_toList_iff_getElem?_eq_some, get?, file?, Option.bind_eq_some_iff]
  constructor
  · rintro ⟨file, lines, known, line, source, found, rfl⟩
    exact ⟨lines, known, found⟩
  · rintro ⟨lines, known, found⟩
    exact ⟨entry.file, lines, known, entry.line, entry.source, found, rfl⟩

/-- Behind a cache, the lines of another one are found where the first one has
none. -/
theorem get?_store_lines (file : String) (line : UInt16) :
    (left.store right.lines).get? file line = (left.get? file line).or (right.get? file line) := by
  rw [get?_store]
  congr 1
  cases found : right.lines.find? fun entry => entry.file = file ∧ entry.line = line with
  | none =>
      rw [Option.map_none]
      symm
      apply Option.eq_none_iff_forall_ne_some.mpr
      intro source known
      have listed : (⟨file, line, source⟩ : PlacedLine) ∈ right.lines := mem_lines.mpr known
      simpa using List.find?_eq_none.mp found _ listed
  | some entry =>
      have place := List.find?_some found
      have known := mem_lines.mp (List.mem_of_find?_eq_some found)
      simp only [decide_eq_true_eq] at place
      rw [place.1, place.2] at known
      rw [known, Option.map_some]

/-! ## Caches without empty files -/

theorem tidy_empty : empty.Tidy := by
  intro file lines found
  simp [file?, empty] at found

theorem Tidy.insert (tidy : cache.Tidy) (file : String) (line : UInt16) (source : SourceLine) :
    (cache.insert file line source).Tidy := by
  unfold SourceCache.insert
  split
  · exact tidy
  · intro other lines found
    simp only [file?, Std.ExtTreeMap.getElem?_insert, Std.LawfulEqCmp.compare_eq_iff_eq] at found
    split at found
    · cases found
      intro none
      have there : line ∈ (∅ : FileLines) := by
        rw [← none]
        exact Std.ExtTreeMap.mem_insert_self
      exact Std.ExtTreeMap.not_mem_empty there
    · exact tidy other lines found

theorem Tidy.store (tidy : cache.Tidy) (lines : List PlacedLine) : (cache.store lines).Tidy := by
  induction lines generalizing cache with
  | nil => exact tidy
  | cons entry lines inductionHypothesis =>
      exact inductionHypothesis (tidy.insert entry.file entry.line entry.source)

theorem tidy_ofLines (lines : List PlacedLine) : (ofLines lines).Tidy :=
  tidy_empty.store lines

/-- A file of a cache is one of every cache in which the same lines are found. -/
theorem Tidy.file?_eq_some
    (tidy : left.Tidy)
    (same : ∀ file line, left.get? file line = right.get? file line)
    {file : String}
    {lines : FileLines}
    (found : left.file? file = some lines) :
    right.file? file = some lines := by
  have lookup (line : UInt16) : lines[line]? = right.get? file line := by
    rw [← same, get?, found, Option.bind_some]
  cases other : right.file? file with
  | none =>
      have none : lines = ∅ := by
        apply Std.ExtTreeMap.ext_getElem?
        intro line
        rw [lookup, get?, other]
        simp
      exact absurd none (tidy file lines found)
  | some others =>
      congr 1
      apply Std.ExtTreeMap.ext_getElem?
      intro line
      rw [lookup, get?, other, Option.bind_some]

/-- Caches in which the same lines are found are the same. -/
theorem Tidy.ext
    (tidy : left.Tidy)
    (tidyRight : right.Tidy)
    (same : ∀ file line, left.get? file line = right.get? file line) :
    left = right := by
  cases left
  cases right
  congr 1
  apply Std.ExtTreeMap.ext_getElem?
  intro file
  apply Option.ext
  intro lines
  exact ⟨tidy.file?_eq_some same, tidyRight.file?_eq_some fun file line => (same file line).symm⟩

/-! ## Pages -/

/-- Pieces of a list make up the list. -/
theorem flatten_pieces
    {α : Type}
    {size : Nat}
    (positive : size ≠ 0)
    (entries : List α) :
    (pieces size entries).flatten = entries := by
  fun_induction pieces size entries with
  | case1 entries ended =>
      have none : entries = [] := by simpa [positive] using ended
      rw [none, List.flatten_nil]
  | case2 entries more inductionHypothesis =>
      rw [List.flatten_cons, inductionHypothesis, List.take_append_drop]

/-- Pieces of a list are not empty, and no longer than they may be. -/
theorem length_of_mem_pieces
    {α : Type}
    {size : Nat}
    {entries piece : List α}
    (member : piece ∈ pieces size entries) :
    piece ≠ [] ∧ piece.length ≤ size := by
  fun_induction pieces size entries with
  | case1 => cases member
  | case2 entries more inductionHypothesis =>
      rcases List.mem_cons.mp member with rfl | later
      · refine ⟨?_, List.length_take_le _ _⟩
        simpa [and_comm, not_or] using more
      · exact inductionHypothesis later

/-- Lines of one file which are written in one record. -/
structure Page where
  file : String
  lines : List (UInt16 × SourceLine)

/-- The lines of a page with their places. -/
def Page.placed (page : Page) : List PlacedLine :=
  page.lines.map fun line => { file := page.file, line := line.1, source := line.2 }

/-- The pages of a cache. -/
def pages (cache : SourceCache) : List Page :=
  cache.files.toList.flatMap fun entry =>
    (pieces greatestCount entry.2.toList).map fun lines => { file := entry.1, lines }

/-- The pages of a cache have its lines. -/
theorem flatMap_placed_pages (cache : SourceCache) :
    cache.pages.flatMap Page.placed = cache.lines := by
  unfold pages SourceCache.lines
  rw [List.flatMap_assoc]
  congr 1
  funext entry
  have whole : (pieces greatestCount entry.2.toList).flatten = entry.2.toList :=
    flatten_pieces (by decide) _
  rw [List.flatMap_map, List.flatMap_def]
  unfold Page.placed
  dsimp only
  rw [← List.map_flatten, whole]

/-- A page of a cache has lines, no more than one record can have. -/
theorem length_of_mem_pages {page : Page} (member : page ∈ cache.pages) :
    page.lines ≠ [] ∧ page.lines.length ≤ greatestCount := by
  obtain ⟨entry, _, among⟩ := List.mem_flatMap.mp member
  obtain ⟨lines, piece, rfl⟩ := List.mem_map.mp among
  exact length_of_mem_pieces piece

/-- A page of a cache whose lines are short can be written in one record. -/
theorem fits_of_mem_pages
    {page : Page}
    (member : page ∈ cache.pages)
    (short : ∀ entry ∈ cache.lines, entry.Short)
    (words : WordSize) :
    ∀ field ∈ recordFields page.file page.lines, field.Fits words := by
  have listed : ∀ line ∈ page.lines,
      ({ file := page.file, line := line.1, source := line.2 } : PlacedLine).Short := by
    intro line among
    apply short
    rw [← flatMap_placed_pages]
    exact List.mem_flatMap.mpr ⟨page, member, List.mem_map_of_mem among⟩
  obtain ⟨first, among⟩ := List.exists_mem_of_ne_nil _ (length_of_mem_pages member).1
  intro field part
  rcases List.mem_append.mp part with head | tail
  · rcases List.mem_cons.mp head with rfl | count
    · exact (listed first among).file_lt
    · cases List.mem_singleton.mp count
      trivial
  · obtain ⟨line, inside, part⟩ := List.mem_flatMap.mp tail
    simp only [lineFields, List.mem_cons, List.not_mem_nil, or_false] at part
    rcases part with rfl | rfl | rfl
    · trivial
    · trivial
    · exact (listed line inside).text_lt

/-- The lines of a cache are among those which were stored in it. -/
theorem mem_of_mem_ofLines (among : entry ∈ (ofLines lines).lines) : entry ∈ lines := by
  have found := mem_lines.mp among
  rw [get?_ofLines] at found
  obtain ⟨stored, first, same⟩ := Option.map_eq_some_iff.mp found
  have place := List.find?_some first
  simp only [decide_eq_true_eq] at place
  have whole : stored = entry := by
    cases stored
    cases entry
    simp_all
  exact whole ▸ List.mem_of_find?_eq_some first

/-- A cache with the lines of another one, and only with files which have lines, is
the other one. -/
theorem store_lines_empty (tidy : cache.Tidy) : empty.store cache.lines = cache := by
  apply (tidy_empty.store cache.lines).ext tidy
  intro file line
  rw [get?_store_lines, get?_empty, Option.none_or]

/-- To store the lines of a second cache behind those of a first one is to store what
was stored in the second one there. -/
theorem store_lines_ofLines (first second : List PlacedLine) :
    (ofLines first).store (ofLines second).lines = ofLines (first ++ second) := by
  have joined : ofLines (first ++ second) = (ofLines first).store second := store_append _ _ _
  rw [joined]
  apply ((tidy_ofLines first).store _).ext ((tidy_ofLines first).store _)
  intro file line
  rw [get?_store_lines, get?_store, get?_ofLines second]

end SourceCache

namespace Jitlog

open RuntimeLog.SourceCache (Page)

variable {header : Header} {forest : Forest} {pages : List Page}

/-- The record in which a page is written. -/
def recordOf (page : Page) : Record :=
  .sourceLines page.file page.lines

/-- A cache is written in the records of its pages. -/
theorem encodeAll_pages (cache : SourceCache) (words : WordSize) :
    (script words).encodeAll (cache.pages.map recordOf) = cache.encode words := by
  unfold SourceCache.encode SourceCache.fields SourceCache.pages Script.encodeAll
  rw [List.flatMap_map, List.flatMap_assoc, Field.encodeAll_flatMap]
  congr 1
  funext entry
  rw [List.flatMap_map, Field.encodeAll_flatMap]
  rfl

/-- Records of source lines have no merge points among them. -/
theorem followsLayouts_pages (forest : Forest) (pages : List Page) :
    FollowsLayouts forest (pages.map recordOf) := by
  have others : ∀ page ∈ pages, (recordOf page).marker ≠ .mergePoint := by
    intro page _
    change Marker.sourceLines ≠ .mergePoint
    decide
  exact followsLayouts_of_others (List.forall_mem_map.mpr others) forest

/-- Records of source lines are all applied, and store their lines in order. -/
theorem replay_pages (used : Script Record) (offset : Nat) :
    (format.replay used forest offset (pages.map recordOf)).phase = .streaming ∧
      (format.replay used forest offset (pages.map recordOf)).model.sourceCache =
        forest.sourceCache.store (pages.flatMap Page.placed) := by
  induction pages generalizing forest offset with
  | nil => exact ⟨rfl, rfl⟩
  | cons page pages inductionHypothesis =>
      have applied : (format.apply (offset + 1) (recordOf page)).run forest =
          .ok () (forest.addSourceLines page.file page.lines) := rfl
      have stored (behind : Nat) :
          (format.advance (forest.addSourceLines page.file page.lines) behind).sourceCache =
            forest.sourceCache.store page.placed := by
        rw [SourceCache.store, Page.placed, List.foldl_map]
        rfl
      rw [List.map_cons, LogFormat.replay_of_ok applied, List.flatMap_cons,
        SourceCache.store_append, ← stored]
      exact inductionHypothesis _

/-- A log in which short pages are written is decoded without a fault to the cache
in which their lines were stored. -/
theorem decodeSource_pages
    [Stream.Decompressor]
    (begins : header.Begins formatFlag)
    (few : ∀ page ∈ pages, page.lines.length ≤ SourceCache.greatestCount)
    (fits : ∀ page ∈ pages,
      ∀ field ∈ SourceCache.recordFields page.file page.lines, field.Fits header.words)
    (chunk : Nat) :
    ∃ forest,
      format.decodeSource
          (.ofBytes (header.encode ++ (script header.words).encodeAll (pages.map recordOf)))
          chunk = .ok (.ok forest) ∧
      forest.fault = none ∧
      forest.sourceCache = SourceCache.empty.store (pages.flatMap Page.placed) := by
  have writable : ∀ record ∈ pages.map recordOf,
      record.Writable header.words header.version := by
    intro record member
    obtain ⟨page, among, rfl⟩ := List.mem_map.mp member
    exact ⟨Or.inl (show Marker.sourceLines ∈ Marker.early by decide),
      Nat.lt_succ_of_le (few page among), fits page among⟩
  obtain ⟨reader, answered, _, ended⟩ :=
    exists_replays begins writable (followsLayouts_pages _ _) [] chunk
  rw [toBytes_write, List.append_nil] at answered
  obtain ⟨streaming, stored⟩ :=
    @replay_pages (format.start header) pages (script header.words) header.encode.length
  refine ⟨(replay header (pages.map recordOf)).model, ?_, ?_, stored⟩
  · rw [LogFormat.decodeSource, answered]
    exact congrArg Except.ok (ended (Or.inl rfl))
  · exact (fault_replay rfl _ _).mpr streaming

/-- A cache in which lines were stored is written behind a header of any version and
word size and decoded without a fault to the same cache.  Behind it, a second cache
adds the lines which the first one does not have. -/
theorem sourceCache_of_encode
    [Stream.Decompressor]
    {header : Header}
    (begins : header.Begins formatFlag)
    {first second : List PlacedLine}
    (short : ∀ entry ∈ first, entry.Short)
    (shortSecond : ∀ entry ∈ second, entry.Short)
    (chunk : Nat) :
    (∃ forest,
      format.decodeSource
          (.ofBytes (header.encode ++ (SourceCache.ofLines first).encode header.words)) chunk =
        .ok (.ok forest) ∧
      forest.fault = none ∧
      forest.sourceCache = .ofLines first) ∧
    ∃ forest,
      format.decodeSource
          (.ofBytes (header.encode ++ (SourceCache.ofLines first).encode header.words ++
            (SourceCache.ofLines second).encode header.words)) chunk =
        .ok (.ok forest) ∧
      forest.fault = none ∧
      forest.sourceCache = .ofLines (first ++ second) ∧
      ∀ file line,
        forest.sourceCache.get? file line =
          ((SourceCache.ofLines first).get? file line).or
            ((SourceCache.ofLines second).get? file line) := by
  have fits {lines : List PlacedLine} (short : ∀ entry ∈ lines, entry.Short) :
      ∀ page ∈ (SourceCache.ofLines lines).pages,
        ∀ field ∈ SourceCache.recordFields page.file page.lines, field.Fits header.words :=
    fun page member => SourceCache.fits_of_mem_pages member
      (fun entry among => short entry (SourceCache.mem_of_mem_ofLines among)) header.words
  have few {lines : List PlacedLine} :
      ∀ page ∈ (SourceCache.ofLines lines).pages,
        page.lines.length ≤ SourceCache.greatestCount :=
    fun page member => (SourceCache.length_of_mem_pages member).2
  constructor
  · obtain ⟨forest, decoded, sound, stored⟩ :=
      decodeSource_pages begins few (fits short) chunk
    rw [encodeAll_pages] at decoded
    rw [SourceCache.flatMap_placed_pages,
      SourceCache.store_lines_empty (SourceCache.tidy_ofLines first)] at stored
    exact ⟨forest, decoded, sound, stored⟩
  · obtain ⟨forest, decoded, sound, stored⟩ :=
      decodeSource_pages begins (List.forall_mem_append.mpr ⟨few, few⟩)
        (List.forall_mem_append.mpr ⟨fits short, fits shortSecond⟩) chunk
    rw [List.map_append, Script.encodeAll_append, encodeAll_pages, encodeAll_pages,
      ← List.append_assoc] at decoded
    rw [List.flatMap_append, SourceCache.store_append, SourceCache.flatMap_placed_pages,
      SourceCache.flatMap_placed_pages,
      SourceCache.store_lines_empty (SourceCache.tidy_ofLines first)] at stored
    refine ⟨forest, decoded, sound, stored.trans (SourceCache.store_lines_ofLines _ _), ?_⟩
    intro file line
    rw [stored, SourceCache.get?_store_lines]

attribute [local instance] Stream.Zstd.decompressor

/-- A log with two caches, each of which has the first line of one file. -/
theorem sourceCache_of_twoCaches :
    ∃ forest,
      format.decodeSource
          (.ofBytes
            (({ formatFlag, version := 1, words := .four, machine := "" } : Header).encode ++
              (SourceCache.ofLines [⟨"a.py", 1, ⟨0, "x = 1"⟩⟩]).encode .four ++
              (SourceCache.ofLines [⟨"a.py", 1, ⟨4, "y"⟩⟩, ⟨"b.py", 65535, ⟨0, ""⟩⟩]).encode
                .four)) 16 = .ok (.ok forest) ∧
      forest.fault = none ∧
      forest.sourceCache.get? "a.py" 1 = some ⟨0, "x = 1"⟩ ∧
      forest.sourceCache.get? "b.py" 65535 = some ⟨0, ""⟩ := by
  have begins : ({ formatFlag, version := 1, words := .four, machine := "" } : Header).Begins
      formatFlag := ⟨rfl, ⟨by decide, by decide⟩, by decide⟩
  have short : ∀ entry ∈ [(⟨"a.py", 1, ⟨0, "x = 1"⟩⟩ : PlacedLine)], entry.Short := by
    intro entry member
    cases List.mem_singleton.mp member
    exact ⟨by decide, by decide⟩
  have shortSecond : ∀ entry ∈
      [(⟨"a.py", 1, ⟨4, "y"⟩⟩ : PlacedLine), ⟨"b.py", 65535, ⟨0, ""⟩⟩], entry.Short := by
    intro entry member
    simp only [List.mem_cons, List.not_mem_nil, or_false] at member
    rcases member with rfl | rfl <;> exact ⟨by decide, by decide⟩
  obtain ⟨forest, decoded, sound, _, found⟩ :=
    (sourceCache_of_encode begins short shortSecond 16).2
  refine ⟨forest, decoded, sound, ?_, ?_⟩ <;> rw [found] <;> rfl

end Jitlog
end RuntimeLog
