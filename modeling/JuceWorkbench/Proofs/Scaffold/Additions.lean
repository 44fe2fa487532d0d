import JuceWorkbench.Proofs.Project.Metadata
import JuceWorkbench.Proofs.Scaffold.Creation

/-! Runs of additions to a new project. Each is refused and changes nothing, or it is done. The script
gets a line for each new source in front of its end marker, in their order, and lists every source in
the folder; nothing else that was written is written again. -/

namespace JuceWorkbench.Scaffold
open JuceWorkbench.Path Work Project

def afterAdditions (metadata : Metadata) : Bench → List Addition → Bench
  | bench, [] => bench
  | bench, addition :: more => afterAdditions metadata (outcome (addition.work metadata) bench).2 more

def newSources (metadata : Metadata) : Bench → List Addition → List String
  | _, [] => []
  | bench, addition :: more =>
    (addition.newSource? metadata bench).toList ++
      newSources metadata (outcome (addition.work metadata) bench).2 more

def sourceLine (name : String) : List Char := fed ("        " ++ name)

/-- What a run of additions makes of a new project with the source folder `source`, whose script is cut
in front of its end marker. -/
structure StaysRegistered (metadata : Metadata) (bench start : Bench) (additions : List Addition)
    (script : TemplateFile) (pair : Script.MarkerPair) (source log : Place) : Prop where
  shipped : script ∈ sourceFiles metadata.kind ∧ script.name = scriptName
  cut : pair.lines = Text.lines script.text.toList ∧ pair.closing = fed endLine
  folder : start.tree.locate true start.surroundings.place metadata.sourceFolder = .ok (.taken source .folder)
  record : ∃ location, Opens start.tree start.surroundings start.surroundings.logFile location ∧
    location.place = log
  answered : ∀ front addition back, additions = front ++ addition :: back →
    addition.IsRefused metadata (afterAdditions metadata start front) ∨ ∃ paths,
      (outcome (addition.work metadata) (afterAdditions metadata start front)).1 = .ok paths
  grown : scriptText? metadata (afterAdditions metadata start additions) =
    some (pair.above.flatten ++ (newSources metadata start additions).flatMap sourceLine ++
      fed endLine ++ pair.below.flatten)
  listed : ∀ name, IsSource name →
    (afterAdditions metadata start additions).tree.get? (source ++ [name]) ≠ none →
      (scriptText? metadata (afterAdditions metadata start additions)).any
        (Script.isListed · name.toList) = true
  spared : Spares bench start log (source ++ [scriptName]) ∧
    ∀ front mid back, additions = front ++ mid ++ back →
      Spares (afterAdditions metadata start front) (afterAdditions metadata start (front ++ mid)) log
        (source ++ [scriptName])

theorem afterAdditions_append (metadata : Metadata) (bench : Bench) (front back : List Addition) :
    afterAdditions metadata bench (front ++ back) =
      afterAdditions metadata (afterAdditions metadata bench front) back := by
  induction front generalizing bench with
  | nil => rfl
  | cons addition front ih => exact ih _

section Run

variable {metadata : Metadata} {bench : Bench} {root : Route} {home log : Place}
  {pair : Script.MarkerPair} {added : List String} {text : List Char} {additions : List Addition}
  (rooted : metadata.root = root.path) (named : ∀ addition ∈ additions, IsElementName addition.name)
  (fits : ∀ front addition back, additions = front ++ addition :: back →
    addition.Fits metadata bench.surroundings (afterAdditions metadata bench front))
include rooted named fits

theorem Stocked.run (stocked : Stocked bench root home log pair added text) :
    (∃ text', Stocked (afterAdditions metadata bench additions) root home log pair
      (added ++ newSources metadata bench additions) text') ∧
      Spares bench (afterAdditions metadata bench additions) log (home ++ ["src"] ++ [scriptName]) := by
  induction additions generalizing bench added text with
  | nil => exact ⟨⟨text, by simpa [newSources, afterAdditions] using stocked⟩, .refl ..⟩
  | cons addition more ih =>
    obtain ⟨-, ⟨text', still⟩, spares⟩ := stocked.step rooted (named addition List.mem_cons_self)
      (fits [] addition more rfl)
    obtain ⟨⟨last, stays⟩, later⟩ := ih
      (fun other member => named other (List.mem_cons_of_mem addition member))
      (by
        intro front other back split
        rw [spares.surroundings]
        exact fits (addition :: front) other back (by rw [split, List.cons_append])) still
    rw [List.append_assoc] at stays
    exact ⟨⟨last, stays⟩, spares.trans later⟩

theorem Stocked.run_front (stocked : Stocked bench root home log pair added text)
    {front back : List Addition} (split : additions = front ++ back) :
    (∃ added text, Stocked (afterAdditions metadata bench front) root home log pair added text) ∧
      (afterAdditions metadata bench front).surroundings = bench.surroundings := by
  subst split
  obtain ⟨⟨last, stays⟩, spares⟩ := stocked.run rooted
    (fun addition member => named addition (List.mem_append_left back member))
    (fun early addition late same => fits early addition (late ++ back) (by rw [same]; simp))
  exact ⟨⟨_, last, stays⟩, spares.surroundings⟩

theorem Stocked.run_answered (stocked : Stocked bench root home log pair added text)
    {front back : List Addition} {addition : Addition} (split : additions = front ++ addition :: back) :
    addition.IsRefused metadata (afterAdditions metadata bench front) ∨ ∃ paths,
      (outcome (addition.work metadata) (afterAdditions metadata bench front)).1 = .ok paths := by
  obtain ⟨⟨_, _, stays⟩, same⟩ := stocked.run_front rooted named fits split
  have valid : IsElementName addition.name := named addition (by rw [split]; simp)
  have fit := fits front addition back split
  rw [← same] at fit
  exact (stays.step rooted valid fit).1

/-- What is there at some point of a run is still there at a later one. -/
theorem Stocked.run_spares (stocked : Stocked bench root home log pair added text)
    {front mid back : List Addition} (split : additions = front ++ mid ++ back) :
    Spares (afterAdditions metadata bench front) (afterAdditions metadata bench (front ++ mid)) log
      (home ++ ["src"] ++ [scriptName]) := by
  have parts : additions = front ++ (mid ++ back) := by rw [split, List.append_assoc]
  obtain ⟨⟨_, _, stays⟩, same⟩ := stocked.run_front rooted named fits parts
  rw [afterAdditions_append]
  have within : ∀ addition ∈ mid, IsElementName addition.name := by
    intro addition member
    exact named addition (by rw [split]; simp [member])
  refine (stays.run rooted within ?_).2
  intro early addition late cut
  rw [same, ← afterAdditions_append]
  exact fits (front ++ early) addition (late ++ back) (by rw [split, cut]; simp)

end Run

theorem lineFor_eq {pair : Script.MarkerPair} (closing : pair.closing = fed endLine) (name : String) :
    pair.lineFor name.toList ['\n'] = sourceLine name := by
  have indent : Script.indentOf (fed endLine) = "        ".toList := by decide
  unfold Script.MarkerPair.lineFor sourceLine fed
  rw [closing, indent, String.toList_append]

theorem Stocked.script_eq {bench : Bench} {root : Route} {home log : Place}
    {pair : Script.MarkerPair} {added : List String} {text : List Char}
    (stocked : Stocked bench root home log pair added text) (closing : pair.closing = fed endLine) :
    text = pair.above.flatten ++ added.flatMap sourceLine ++ fed endLine ++ pair.below.flatten := by
  have whole := stocked.holds.flatten
  rw [List.flatMap_map, List.flatten_cons, closing, ← List.append_assoc] at whole
  rw [whole]
  simp only [lineFor_eq closing]

theorem exists_root {here : String} {name folder kind type : Raw} {metadata : Metadata}
    (absolute : Path.isAbsolute here = true) (made : Metadata.make here name folder kind type = .ok metadata) :
    ∃ root : Route, metadata.root = root.path := by
  obtain ⟨root, same⟩ := (Metadata.isNormal_of_make absolute made).rooted.exists_route
  exact ⟨root, same.symm⟩

theorem Stocked.locate_source {bench : Bench} {root : Route} {home log : Place} {pair : Script.MarkerPair}
    {added : List String} {text : List Char} (stocked : Stocked bench root home log pair added text) :
    bench.tree.locate true bench.surroundings.place (sourceRoute root).path =
      .ok (.taken (home ++ ["src"]) .folder) := by
  have short : ¬FileTree.maxPathOctets < (sourceRoute root).path.utf8ByteSize := by
    have fits := stocked.short
    have grows := Route.utf8ByteSize_le_under (sourceRoute root) isPlain_scriptName
    unfold scriptRoute at fits
    omega
  rw [Route.locate_path, if_neg short]
  exact FileTree.Way.locateFrom stocked.houses.reaches_source

/-- The sources of a new project stay registered. Whatever is added to it, each addition is refused and
changes nothing, or it is done; in the end the script is the one of the template with a line for each
new source in front of its end marker, it lists every source in the folder, and no other file but the
log was changed after it was there. -/
theorem createProject_staysRegistered {bench start : Bench} {name folder kind type : Raw}
    {metadata : Metadata} {value : String} {additions : List Addition} (closed : bench.tree.Closed)
    (here : bench.tree.get? bench.surroundings.place = some .folder)
    (absolute : Path.isAbsolute bench.surroundings.here = true)
    (made : Metadata.make bench.surroundings.here name folder kind type = .ok metadata)
    (creates : outcome (createProject metadata) bench = (.ok value, start))
    (named : ∀ addition ∈ additions, IsElementName addition.name)
    (fits : ∀ front addition back, additions = front ++ addition :: back →
      addition.Fits metadata bench.surroundings (afterAdditions metadata start front)) :
    ∃ script pair source log,
      StaysRegistered metadata bench start additions script pair source log := by
  obtain ⟨root, rooted⟩ := exists_root absolute made
  obtain ⟨home, log, pair, script, among, called, offers, stocked, spares⟩ :=
    stocked_of_createProject closed here rooted creates
  rw [← spares.surroundings] at fits
  obtain ⟨⟨text, last⟩, -⟩ := stocked.run rooted named fits
  rw [List.nil_append] at last
  have grown := last.scriptText?_eq rooted
  refine ⟨script, pair, home ++ ["src"], log, ⟨among, called⟩, ⟨offers.lines, offers.closing⟩, ?_,
    stocked.houses.records, ?_, ?_, ?_, spares, ?_⟩
  · rw [sourceFolder_eq rooted]
    exact stocked.locate_source
  · exact fun front addition back split => stocked.run_answered rooted named fits split
  · rw [grown, last.script_eq offers.closing]
  · intro name source there
    rw [grown, Option.any_some]
    exact (last.listed name source there).2
  · exact fun front mid back split => stocked.run_spares rooted named fits split

/-! A desk with nothing on it but the folder it stands in and the one for the log. -/

def emptyDesk : Bench where
  tree := (FileTree.bare.put ["W"] .folder).put ["L"] .folder
  surroundings := {}

theorem closed_emptyDesk : emptyDesk.tree.Closed := by
  have first : (FileTree.bare.put ([] ++ ["W"]) .folder).Closed :=
    FileTree.closed_bare.put rfl .folder (by decide)
  have second : ((FileTree.bare.put ([] ++ ["W"]) .folder).put ([] ++ ["L"]) .folder).Closed :=
    first.put (by decide) .folder (by decide)
  exact second

def synth : Metadata := ⟨"Synth", "/W/Synth", .audioPlugin, .debug⟩

/-- A class, an element of no type that is known, and two of the same class name. -/
def voices : List Addition :=
  [⟨"class", "Voice", false⟩, ⟨"knob", "Voice", false⟩, ⟨"component", "Voice", true⟩,
    ⟨"class", "VoiceComponent", false⟩]

theorem created_synth : (outcome (createProject synth) emptyDesk).1.toOption = some "/W/Synth" := by
  decide +kernel

instance (surroundings : Surroundings) (path name : String) : Decidable (Takes surroundings path name) :=
  decidable_of_iff (surroundings.canWrite path = true ∧ path.utf8ByteSize ≤ FileTree.maxPathOctets ∧
    name.utf8ByteSize ≤ FileTree.maxNameOctets)
    ⟨fun ⟨writes, short, named⟩ => ⟨writes, short, named⟩, fun takes => ⟨takes.writes, takes.short, takes.named⟩⟩

theorem named_voices : ∀ addition ∈ voices, IsElementName addition.name := by
  intro addition member
  have each : ∀ name ∈ ["Voice", "VoiceComponent"], IsElementName name := by
    intro name among
    have shape : ∀ name ∈ ["Voice", "VoiceComponent"], name ≠ "" ∧ '/' ∉ name.toList ∧ '\x00' ∉ name.toList ∧
        name.toList.any Text.isLineBreak = false ∧ name.toList.head? = some 'V' ∧
          Text.contains name.toList Script.endMarker = false := by
      decide
    obtain ⟨filled, apart, clean, single, first, unmarked⟩ := shape name among
    refine ⟨filled, apart, clean, Text.forall_eq_false_of_any single, ?_, unmarked⟩
    intro c head
    obtain rfl := Option.some.inj (head.symm.trans first)
    decide
  have names : ∀ addition ∈ voices, addition.name ∈ ["Voice", "VoiceComponent"] := by decide
  exact each _ (names addition member)

theorem fits_voices (bench : Bench) :
    ∀ addition ∈ voices, addition.Fits synth emptyDesk.surroundings bench := by
  have each : ∀ addition ∈ voices, ∀ element ∈ Element.all,
      Takes emptyDesk.surroundings (headerPath synth element addition.name) (headerName element addition.name) ∧
      Takes emptyDesk.surroundings (sourcePath synth element addition.name) (sourceName element addition.name) := by
    decide
  intro addition member element known absent
  obtain ⟨header, source⟩ := each addition member element (List.mem_of_find?_eq_some known)
  exact ⟨header, fun _ => ⟨source, by decide, by decide⟩⟩

theorem makes_synth : Metadata.make emptyDesk.surroundings.here (.text "Synth") (.text "Synth")
    (.text "AudioPlugin") (.text "Debug") = .ok synth :=
  toOption_eq_some_iff.1 (by decide)

theorem createProject_staysRegistered_synth : ∃ start script pair source log,
    outcome (createProject synth) emptyDesk = (.ok "/W/Synth", start) ∧
      StaysRegistered synth emptyDesk start voices script pair source log := by
  have creates := eq_of_toOption created_synth
  obtain ⟨script, pair, source, log, stays⟩ := createProject_staysRegistered closed_emptyDesk (by decide)
    (by decide) makes_synth creates named_voices
    (fun front addition back split => fits_voices _ addition (by rw [split]; simp))
  exact ⟨_, script, pair, source, log, creates, stays⟩

end JuceWorkbench.Scaffold
