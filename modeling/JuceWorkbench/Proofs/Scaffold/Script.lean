import JuceWorkbench.Proofs.Script.Listing
import JuceWorkbench.Proofs.Script.MarkerPair
import JuceWorkbench.Scaffold.Project

/-! The build scripts of new projects. Each has a usable pair of markers, so its sources are
registered between them from the start: `hasMarkers_of_mem_sourceFiles`. The sources that come with
it stand there already: `isListed_of_mem_sourceFiles`. -/

namespace JuceWorkbench.Scaffold

def fed (line : String) : List Char := line.toList ++ ['\n']

theorem toList_fileText (lines : List String) :
    (fileText lines).toList = (lines.map fed).flatten := by
  induction lines with
  | nil => rfl
  | cons line lines ih =>
    have step : fileText (line :: lines) = line ++ "\n" ++ fileText lines := by simp [fileText]
    rw [step, String.toList_append, String.toList_append, ih]
    rfl

theorem lines_fed (lines : List String) (text : List Char)
    (clean : ∀ line ∈ lines, line.toList.any Text.isLineBreak = false) :
    Text.lines ((lines.map fed).flatten ++ text) = lines.map fed ++ Text.lines text := by
  induction lines with
  | nil => rfl
  | cons line lines ih =>
    have whole : ((line :: lines).map fed).flatten ++ text =
        line.toList ++ ['\n'] ++ ((lines.map fed).flatten ++ text) := by simp [fed]
    rw [whole, Text.lines_ended_append _ _ _ 
      (Text.forall_eq_false_of_any (clean line List.mem_cons_self)) (by decide) (by simp),
      ih fun other member => clean other (List.mem_cons_of_mem line member)]
    rfl

def beginLine : String := "        # JUCEBUILDER_SOURCES_BEGIN"

def endLine : String := "        # JUCEBUILDER_SOURCES_END"

def isPlain (line : String) : Bool := line.toList.all fun c => c != '#' && !Text.isLineBreak c

theorem clean_beginLine : beginLine.toList.any Text.isLineBreak = false := by decide

theorem clean_endLine : endLine.toList.any Text.isLineBreak = false := by decide

theorem begins_beginLine : Text.contains (fed beginLine) Script.beginMarker = true := by decide

theorem unmarked_beginLine : Text.contains (fed beginLine) Script.endMarker = false := by decide

theorem ends_endLine : Text.contains (fed endLine) Script.endMarker = true := by decide

theorem clean_of_isPlain {line : String} (plain : isPlain line = true) :
    line.toList.any Text.isLineBreak = false := by
  rw [List.any_eq_false]
  intro c member
  have both := List.all_eq_true.1 plain c member
  simp only [Bool.and_eq_true, Bool.not_eq_true'] at both
  exact Bool.eq_false_iff.1 both.2

theorem unmarked_of_isPlain {line : String} (plain : isPlain line = true) :
    Text.contains (fed line) Script.endMarker = false := by
  rw [Bool.eq_false_iff, Ne, Text.contains_iff]
  intro found
  have hash : '#' ∈ fed line := found.subset (by decide)
  rcases List.mem_append.1 hash with member | feed
  · have both := List.all_eq_true.1 plain '#' member
    simp at both
  · exact absurd feed (by decide)

/-- A script with a usable pair of markers around indented lines that end in line feeds. -/
structure Offers (text : List Char) (pair : Script.MarkerPair) : Prop where
  lines : pair.lines = Text.lines text
  closing : pair.closing = fed endLine
  ending : Text.newlineOf (Text.lines text) = ['\n']

/-- Whether a file has such a pair of markers shows in the lines down to its end marker. -/
theorem exists_offers_fileText (first : String) (lines : List String) (n : Nat)
    (front : (first.toList.getLast?.any fun c => !Text.isBlank c) = true)
    (begins : beginLine ∈ lines.take n) (there : lines[n]? = some endLine)
    (plain : ∀ line ∈ first :: lines.take n, line = beginLine ∨ isPlain line = true) :
    ∃ pair, Offers (fileText (first :: lines)).toList pair := by
  have cut : first :: lines = first :: lines.take n ++ [endLine] ++ lines.drop (n + 1) := by
    have step := List.take_add_one (l := lines) (i := n)
    rw [there, Option.toList_some] at step
    rw [List.cons_append, List.cons_append, ← step, List.take_append_drop]
  have clean : ∀ line ∈ first :: lines.take n ++ [endLine], line.toList.any Text.isLineBreak = false := by
    intro line member
    rcases List.mem_append.1 member with early | last
    · rcases plain line early with rfl | other
      · exact clean_beginLine
      · exact clean_of_isPlain other
    · rw [List.mem_singleton.1 last]
      exact clean_endLine
  have split : Text.lines (fileText (first :: lines)).toList =
      (first :: lines.take n).map fed ++
        fed endLine :: Text.lines ((lines.drop (n + 1)).map fed).flatten := by
    rw [toList_fileText, cut, List.map_append, List.flatten_append, lines_fed _ _ clean]
    simp
  refine ⟨⟨(first :: lines.take n).map fed, fed endLine, Text.lines ((lines.drop (n + 1)).map fed).flatten,
    ?_, ?_, ends_endLine⟩, split.symm, rfl, ?_⟩
  · exact ⟨fed beginLine, List.mem_map_of_mem (List.mem_cons_of_mem first begins), begins_beginLine⟩
  · intro line member
    obtain ⟨written, among, rfl⟩ := List.mem_map.1 member
    rcases plain written among with rfl | other
    · exact unmarked_beginLine
    · exact unmarked_of_isPlain other
  · obtain ⟨c, last, dark⟩ : ∃ c, first.toList.getLast? = some c ∧ Text.isBlank c = false := by
      cases last : first.toList.getLast? with
      | none =>
        rw [last] at front
        cases front
      | some c =>
        rw [last] at front
        exact ⟨c, rfl, by simpa using front⟩
    rw [split, List.map_cons, List.cons_append]
    exact Text.newlineOf_ended first.toList ['\n'] _ (Text.not_returns_of_dark last dark) (by decide)

theorem exists_offers_guiApplicationScript : ∃ pair, Offers guiApplicationScript.toList pair :=
  exists_offers_fileText _ _ 9 (by decide) (by decide) rfl (by decide)

theorem exists_offers_audioPluginScript : ∃ pair, Offers audioPluginScript.toList pair :=
  exists_offers_fileText _ _ 18 (by decide) (by decide) rfl (by decide)

theorem exists_offers_consoleAppScript : ∃ pair, Offers consoleAppScript.toList pair :=
  exists_offers_fileText _ _ 8 (by decide) (by decide) rfl (by decide)

theorem isListed_fileText {lines : List String} {name : String} (there : "        " ++ name ∈ lines) :
    Script.isListed (fileText lines).toList name.toList = true := by
  obtain ⟨above, below, rfl⟩ := List.append_of_mem there
  have split : (fileText (above ++ ("        " ++ name) :: below)).toList =
      (above.map fed).flatten ++ "        ".toList ++ name.toList ++ '\n' :: (below.map fed).flatten := by
    rw [toList_fileText]
    simp [fed]
  rw [split]
  apply Script.isListed_between
  · intro c last
    rw [List.getLast?_append] at last
    obtain rfl := Option.some.inj last
    decide
  · intro c head
    obtain rfl := Option.some.inj head
    decide

theorem isListed_of_lines {files : List TemplateFile} {lines : List String}
    (each : ∀ file ∈ files, ".cpp".toList <:+ file.name.toList → "        " ++ file.name ∈ lines) :
    ∀ file ∈ files, ".cpp".toList <:+ file.name.toList →
      Script.isListed (fileText lines).toList file.name.toList = true :=
  fun file member source => isListed_fileText (each file member source)

section Kind

variable {kind : Project.Kind} {script file : TemplateFile} (among : script ∈ sourceFiles kind)
  (called : script.name = scriptName)
include among called

theorem text_of_called {only : String} {others : List TemplateFile}
    (first : sourceFiles kind = ⟨scriptName, only⟩ :: others)
    (names : ∀ other ∈ others, other.name ≠ scriptName) : script.text = only := by
  rw [first] at among
  rcases List.mem_cons.1 among with rfl | later
  · rfl
  · exact absurd called (names script later)

theorem exists_offers_of_mem_sourceFiles : ∃ pair, Offers script.text.toList pair := by
  cases kind with
  | guiApplication =>
    rw [text_of_called among called rfl (by decide)]
    exact exists_offers_guiApplicationScript
  | audioPlugin =>
    rw [text_of_called among called rfl (by decide)]
    exact exists_offers_audioPluginScript
  | consoleApp =>
    rw [text_of_called among called rfl (by decide)]
    exact exists_offers_consoleAppScript
  | unknown => cases among

theorem isListed_of_mem_sourceFiles (member : file ∈ sourceFiles kind)
    (source : ".cpp".toList <:+ file.name.toList) :
    Script.isListed script.text.toList file.name.toList = true := by
  cases kind with
  | guiApplication =>
    rw [text_of_called among called rfl (by decide)]
    exact isListed_of_lines (by decide) file member source
  | audioPlugin =>
    rw [text_of_called among called rfl (by decide)]
    exact isListed_of_lines (by decide) file member source
  | consoleApp =>
    rw [text_of_called among called rfl (by decide)]
    exact isListed_of_lines (by decide) file member source
  | unknown => cases among

end Kind

/-- The build script in the source folder of a new project has a usable pair of markers. -/
theorem hasMarkers_of_mem_sourceFiles (kind : Project.Kind) (file : TemplateFile)
    (member : file ∈ sourceFiles kind) (named : file.name = scriptName) :
    Script.HasMarkers (Text.lines file.text.toList) := by
  obtain ⟨pair, offers⟩ := exists_offers_of_mem_sourceFiles member named
  exact offers.lines ▸ pair.hasMarkers

end JuceWorkbench.Scaffold
