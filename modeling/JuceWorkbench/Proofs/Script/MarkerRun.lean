import JuceWorkbench.Proofs.Scaffold.Script
import JuceWorkbench.Proofs.Script.Registration

/-! Runs of registrations between a usable pair of markers. The pair stays usable whatever the
entries are; when none of them holds the end marker, it also stays in its place, and the
entries pile up in front of it: `run_between_markers`. -/

namespace JuceWorkbench.Script

theorem contains_trim_endMarker (entry : List Char) :
    Text.contains (Text.trim entry) endMarker = Text.contains entry endMarker := by
  obtain ⟨front, back, padded, blankFront, blankBack⟩ := Text.exists_padding entry
  rw [Bool.eq_iff_iff, Text.contains_iff, Text.contains_iff]
  conv => rhs; rw [padded]
  exact (Text.infix_padded_iff _ _ _ _ isTrimmed_endMarker blankFront blankBack).symm

namespace MarkerPair

variable {document entry : List Char} (pair : MarkerPair)

theorem hash_mem_closing : '#' ∈ pair.closing := by
  have found := (Text.contains_iff _ _).1 pair.ends
  exact found.subset (by decide)

theorem closing_ne_feed : pair.closing ≠ ['\n'] := by
  intro feed
  have hash := pair.hash_mem_closing
  rw [feed] at hash
  exact absurd hash (by decide)

theorem indentOf_closing_clean (whole : pair.lines = Text.lines document) :
    ∀ c ∈ indentOf pair.closing, Text.isLineBreak c = false := by
  apply indentOf_clean document pair.closing _ '#' pair.hash_mem_closing (by decide)
  rw [← whole]
  simp [lines]

def lineFor (entry newline : List Char) : List Char := indentOf pair.closing ++ entry ++ newline

theorem standsOn_lineFor (whole : pair.lines = Text.lines document) {newline : List Char}
    (known : newline ∈ Text.endings) : StandsOn entry (pair.lineFor entry newline) :=
  ⟨indentOf pair.closing, newline, rfl,
    fun c member => ⟨indentOf_blank _ c member, pair.indentOf_closing_clean whole c member⟩, known⟩

theorem lines_place (bare : IsBare entry) (unlisted : isListed document entry = false)
    (whole : pair.lines = Text.lines document) :
    Text.lines (place document entry).text =
      pair.above ++ pair.lineFor entry (Text.newlineOf (Text.lines document)) ::
        pair.closing :: pair.below := by
  rw [place_of_pair unlisted pair whole]
  rw [lines_insert_of_apart whole.symm (by simp) (by simpa using pair.closing_ne_feed) bare
    (pair.indentOf_closing_clean whole) (Text.newlineOf_mem_endings _)]
  simp [lineFor]

/-- The new line takes the place of the end marker or stands above it. -/
theorem hasMarkers_insert (line : List Char) :
    HasMarkers (pair.above ++ line :: pair.closing :: pair.below) := by
  rw [hasMarkers_iff_exists_pair]
  cases ends : Text.contains line endMarker with
  | true => exact ⟨⟨pair.above, line, pair.closing :: pair.below, pair.begins, pair.first, ends⟩, rfl⟩
  | false =>
    refine ⟨⟨pair.above ++ [line], pair.closing, pair.below, ?_, ?_, pair.ends⟩, by simp [lines]⟩
    · obtain ⟨start, member, hit⟩ := pair.begins
      exact ⟨start, List.mem_append_left _ member, hit⟩
    · intro other member
      rcases List.mem_append.1 member with old | new
      · exact pair.first other old
      · rw [List.mem_singleton.1 new]
        exact ends

end MarkerPair

theorem hasMarkers_place {document entry : List Char} (bare : IsBare entry)
    (usable : HasMarkers (Text.lines document)) :
    ((place document entry).strategy = .present ∨ (place document entry).strategy = .markers) ∧
      HasMarkers (Text.lines (place document entry).text) := by
  by_cases listed : isListed document entry = true
  · rw [place_of_listed listed]
    exact ⟨Or.inl rfl, usable⟩
  · have unlisted := Bool.eq_false_iff.2 listed
    obtain ⟨pair, whole⟩ := (hasMarkers_iff_exists_pair _).1 usable
    constructor
    · rw [place_of_pair unlisted pair whole]
      exact Or.inr rfl
    · rw [pair.lines_place bare unlisted whole]
      exact pair.hasMarkers_insert _

/-! The closed form. -/

/-- A script that got some entries in front of the end marker of a pair, each on a line without
an end marker, and that still gives new lines the same ending. -/
structure MarkerPair.Holds (pair : MarkerPair) (newline : List Char) (added : List (List Char))
    (text : List Char) : Prop where
  lines : Text.lines text =
    pair.above ++ (added.map fun entry => pair.lineFor entry newline) ++ pair.closing :: pair.below
  ending : Text.newlineOf (Text.lines text) = newline
  plain : ∀ entry ∈ added, Text.contains (pair.lineFor entry newline) endMarker = false

namespace MarkerPair.Holds

variable {pair : MarkerPair} {newline : List Char} {added : List (List Char)} {text : List Char}

def pairNow (holds : pair.Holds newline added text) : MarkerPair where
  above := pair.above ++ added.map fun entry => pair.lineFor entry newline
  closing := pair.closing
  below := pair.below
  begins := by
    obtain ⟨start, member, hit⟩ := pair.begins
    exact ⟨start, List.mem_append_left _ member, hit⟩
  first := by
    intro line member
    rcases List.mem_append.1 member with old | new
    · exact pair.first line old
    · obtain ⟨entry, there, rfl⟩ := List.mem_map.1 new
      exact holds.plain entry there
  ends := pair.ends

theorem flatten (holds : pair.Holds newline added text) :
    text = pair.above.flatten ++ added.flatMap (fun entry => pair.lineFor entry newline) ++
      (pair.closing :: pair.below).flatten := by
  have whole := Text.flatten_lines text
  rw [holds.lines, List.flatten_append, List.flatten_append] at whole
  exact whole.symm

theorem place {entry : List Char} (holds : pair.Holds newline added text) (bare : IsBare entry)
    (plain : Text.contains entry endMarker = false) :
    pair.Holds newline (if isListed text entry then added else added ++ [entry])
      (Script.place text entry).text := by
  by_cases listed : isListed text entry = true
  · rw [place_of_listed listed, if_pos listed]
    exact holds
  · have whole : holds.pairNow.lines = Text.lines text := holds.lines.symm
    have split := holds.pairNow.lines_place bare (Bool.eq_false_iff.2 listed) whole
    rw [holds.ending] at split
    have stands : StandsOn entry (pair.lineFor entry newline) :=
      holds.pairNow.standsOn_lineFor whole (holds.ending ▸ Text.newlineOf_mem_endings _)
    rw [if_neg listed]
    refine ⟨?_, ?_, ?_⟩
    · rw [split]
      simp [pairNow, lineFor]
    · obtain ⟨front, d, last, dark⟩ := bare.trimmed.last
      rw [split]
      apply Text.newlineOf_insert _ _ _ _ d (by simp [last]) dark
      exact (congrArg Text.newlineOf whole).trans holds.ending
    · intro other member
      rcases List.mem_append.1 member with old | new
      · exact holds.plain other old
      · rw [List.mem_singleton.1 new, stands.contains _ isTrimmed_endMarker]
        exact plain

end MarkerPair.Holds

/-- A usable pair of markers takes every entry of every run. When no entry holds the end marker,
the text in front of it and the text from it on stay as they were, and between them stands a line
for each entry that was not listed yet, with the indentation of the end marker and the line ending
of the document. The scripts of new projects have such a pair. -/
theorem run_between_markers :
    (∀ kind, ∀ file ∈ Scaffold.sourceFiles kind, file.name = Scaffold.scriptName →
      HasMarkers (Text.lines file.text.toList)) ∧
    ∀ (document : List Char) (entries : List (List Char)), HasMarkers (Text.lines document) →
      (∀ entry ∈ entries, IsEntry entry) →
      ∃ run, injectAll document entries = some run ∧
        (∀ step ∈ run.steps, (step.strategy = .present ∨ step.strategy = .markers) ∧
          step.warning? = none) ∧
        ((∀ entry ∈ entries, Text.contains entry endMarker = false) →
          ∀ closing line, findFrom? (Text.contains · endMarker) (Text.lines document) 0 = some closing →
            (Text.lines document)[closing]? = some line →
            run.text = ((Text.lines document).take closing).flatten ++
              (unlistedOf document entries).flatMap (fun entry =>
                indentOf line ++ entry ++ Text.newlineOf (Text.lines document)) ++
              ((Text.lines document).drop closing).flatten) := by
  refine ⟨Scaffold.hasMarkers_of_mem_sourceFiles, ?_⟩
  intro document entries usable valid
  obtain ⟨run, found, reported, -⟩ := exists_run
    (fun _ text => HasMarkers (Text.lines text))
    (fun step => step.strategy = .present ∨ step.strategy = .markers) (fun _ => True)
    (fun _ _ _ usable valid _ => hasMarkers_place valid.isBare usable)
    entries [] document usable valid (fun _ _ => trivial)
  refine ⟨run, found, ?_, ?_⟩
  -- the pair stays usable whatever the entries are, the closed form needs them without an end marker
  · intro step member
    refine ⟨reported step member, ?_⟩
    unfold Injection.warning?
    rcases reported step member with same | same
    · rw [same]
      rfl
    · rw [same]
      rfl
  · intro plain closing line ends there
    obtain ⟨pair, whole⟩ := (hasMarkers_iff_exists_pair _).1 usable
    have start : pair.Holds (Text.newlineOf (Text.lines document)) [] document :=
      ⟨by simp [← whole, MarkerPair.lines], rfl, by simp⟩
    obtain ⟨again, same, -, holds⟩ := exists_run (pair.Holds (Text.newlineOf (Text.lines document)))
      (fun _ => True) (fun entry => Text.contains entry endMarker = false)
      (fun added text entry holds valid plain => ⟨trivial, holds.place valid.isBare
        ((contains_trim_endMarker entry).trans plain)⟩)
      entries [] document start valid plain
    obtain rfl : run = again := Option.some.inj (found.symm.trans same)
    rw [← whole, pair.findFrom?_end] at ends
    obtain rfl := Option.some.inj ends
    obtain rfl : pair.closing = line := by simpa [← whole, MarkerPair.lines] using there
    rw [holds.flatten, ← whole, MarkerPair.lines, List.take_left, List.drop_left]
    rfl

theorem run_between_markers_carriage_returns :
    HasMarkers (Text.lines
      "# JUCEBUILDER_SOURCES_BEGIN\rA.cpp\r  # JUCEBUILDER_SOURCES_END\r)".toList) ∧
    (∀ entry ∈ ["B.cpp ".toList, "A.cpp".toList, "C.cpp".toList], IsEntry entry) ∧
      ∃ run, injectAll "# JUCEBUILDER_SOURCES_BEGIN\rA.cpp\r  # JUCEBUILDER_SOURCES_END\r)".toList
          ["B.cpp ".toList, "A.cpp".toList, "C.cpp".toList] = some run ∧
        run.text = ("# JUCEBUILDER_SOURCES_BEGIN\rA.cpp\r  B.cpp\r  C.cpp\r" ++
          "  # JUCEBUILDER_SOURCES_END\r)").toList := by
  have usable : HasMarkers (Text.lines
      "# JUCEBUILDER_SOURCES_BEGIN\rA.cpp\r  # JUCEBUILDER_SOURCES_END\r)".toList) :=
    ⟨0, 2, by decide, by decide, by decide⟩
  have valid : ∀ entry ∈ ["B.cpp ".toList, "A.cpp".toList, "C.cpp".toList], IsEntry entry := by
    decide
  obtain ⟨run, found, -, closed⟩ := run_between_markers.2 _ _ usable valid
  refine ⟨usable, valid, run, found, ?_⟩
  rw [closed (by decide) 2 "  # JUCEBUILDER_SOURCES_END\r".toList (by decide)
    (by decide)]
  decide

end JuceWorkbench.Script
