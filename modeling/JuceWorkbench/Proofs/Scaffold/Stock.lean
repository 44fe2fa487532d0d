import JuceWorkbench.Proofs.Scaffold.ElementName
import JuceWorkbench.Proofs.Scaffold.Site

/-! The source folder of a project: its script is the shipped one with a line for each registered
source, and every source in the folder is listed. An addition is refused and changes nothing, or it
is done and keeps the folder so: `Stocked.step`. -/

namespace JuceWorkbench.Scaffold
open JuceWorkbench.Path Work Project

structure Addition where
  type : String
  name : String
  headerOnly : Bool
  deriving DecidableEq, Repr

def Addition.work (addition : Addition) (metadata : Metadata) : Work (List String) :=
  addElement metadata addition.type addition.name addition.headerOnly

/-- Nothing keeps an addition whose files are not there from writing them, and from replacing the
script if it has a source. -/
def Addition.Fits (addition : Addition) (metadata : Metadata) (surroundings : Surroundings)
    (bench : Bench) : Prop :=
  ∀ element, Element.ofWord? addition.type = some element →
    isPresent bench metadata element addition.name = false →
      Takes surroundings (headerPath metadata element addition.name) (headerName element addition.name) ∧
      (addition.headerOnly = false →
        Takes surroundings (sourcePath metadata element addition.name) (sourceName element addition.name) ∧
        surroundings.canRead (scriptPath metadata) = true ∧
        Takes surroundings (Script.draftPath (scriptPath metadata)) draftName)

def IsSource (name : String) : Prop := ".cpp".toList <:+ name.toList

/-- A source folder with a script that holds the lines of some sources between its markers. -/
structure Stocked (bench : Bench) (root : Route) (home log : Place) (pair : Script.MarkerPair)
    (added : List String) (text : List Char) : Prop where
  houses : Houses bench root home log
  clean : '\x00' ∉ (sourceRoute root).text
  short : ¬FileTree.maxPathOctets < (scriptRoute root).path.utf8ByteSize
  script : ∃ mode, bench.tree.get? (home ++ ["src"] ++ [scriptName]) = some (.file (Text.Utf8.encode text) mode)
  holds : pair.Holds ['\n'] (added.map String.toList) text
  draft : bench.tree.get? (home ++ ["src"] ++ [draftName]) = none
  listed : ∀ name, IsSource name → bench.tree.get? (home ++ ["src"] ++ [name]) ≠ none →
    Script.IsBare name.toList ∧ Script.isListed text name.toList = true

section Names

variable {metadata : Metadata} {root : Route} (rooted : metadata.root = root.path)
include rooted

theorem sourceFolder_eq : metadata.sourceFolder = (sourceRoute root).path := by
  unfold Metadata.sourceFolder
  rw [rooted]
  exact Route.join_path root isPlain_src

theorem scriptPath_eq : scriptPath metadata = (scriptRoute root).path := by
  unfold scriptPath
  rw [sourceFolder_eq rooted]
  exact Route.join_path _ isPlain_scriptName

theorem headerPath_eq {element : Element} {name : String} (plain : IsPlain (headerName element name).toList) :
    headerPath metadata element name = ((sourceRoute root).under (headerName element name) plain).path := by
  unfold headerPath
  rw [sourceFolder_eq rooted]
  exact Route.join_path _ plain

theorem sourcePath_eq {element : Element} {name : String} (plain : IsPlain (sourceName element name).toList) :
    sourcePath metadata element name = ((sourceRoute root).under (sourceName element name) plain).path := by
  unfold sourcePath
  rw [sourceFolder_eq rooted]
  exact Route.join_path _ plain

end Names

theorem isSource_sourceName (element : Element) (name : String) : IsSource (sourceName element name) := by
  unfold IsSource sourceName
  rw [String.toList_append]
  exact List.suffix_append ..

theorem getLast?_headerName (element : Element) (name : String) :
    (headerName element name).toList.getLast? = some 'h' := by
  unfold headerName
  rw [String.toList_append, List.getLast?_append]
  rfl

theorem IsSource.getLast? {name : String} (source : IsSource name) : name.toList.getLast? = some 'p' := by
  obtain ⟨front, split⟩ := source
  rw [← split, List.getLast?_append]
  rfl

theorem IsSource.ne_header {name : String} (source : IsSource name) (element : Element) (other : String) :
    name ≠ headerName element other := by
  rintro rfl
  have last := source.getLast?
  rw [getLast?_headerName] at last
  exact absurd last (by decide)

theorem not_isSource_scriptName : ¬IsSource scriptName := by
  unfold IsSource
  decide

theorem not_isSource_draftName : ¬IsSource draftName := by
  unfold IsSource
  decide

theorem headerName_ne_scriptName (element : Element) (name : String) : headerName element name ≠ scriptName := by
  intro same
  have last := getLast?_headerName element name
  rw [same] at last
  exact absurd last (by decide)

theorem headerName_ne_draftName (element : Element) (name : String) : headerName element name ≠ draftName := by
  intro same
  have last := getLast?_headerName element name
  rw [same] at last
  exact absurd last (by decide)

theorem clean_under {route : Route} {name : String} (plain : IsPlain name.toList)
    (clean : '\x00' ∉ route.text) (named : '\x00' ∉ name.toList) :
    (route.under name plain).path.toList.contains '\x00' = false := by
  rw [Bool.eq_false_iff, Ne, List.contains_iff_mem, Route.toList_path]
  by_cases root : route.names = []
  · rw [Route.text_under_of_root root, List.mem_append, not_or]
    exact ⟨clean, named⟩
  · rw [Route.text_under root, List.mem_append, List.mem_cons, not_or, not_or]
    exact ⟨clean, by decide, named⟩

theorem spot_inj {home : Place} {name other : String} :
    home ++ ["src"] ++ [name] = home ++ ["src"] ++ [other] ↔ name = other := by
  rw [List.append_cancel_left_eq, List.singleton_inj]

section Houses

variable {bench after : Bench} {root : Route} {home log : Place} {name : String}
  {plain : IsPlain name.toList} {spots : List Place}

theorem Houses.exists_eq (houses : Houses bench root home log)
    (takes : Takes bench.surroundings ((sourceRoute root).under name plain).path name) :
    bench.tree.exists? bench.surroundings.place ((sourceRoute root).under name plain).path =
      (bench.tree.get? (home ++ ["src"] ++ [name])).isSome := by
  obtain ⟨filled, stays⟩ := isPart_of_isPlain plain
  have leads := houses.reaches_source.locate plain ⟨filled, stays, Nat.not_lt.2 takes.named⟩
    (Nat.not_lt.2 takes.short) (by
      intro target linked
      obtain ⟨contents, mode, file⟩ := houses.files linked
      cases file) bench.surroundings.place true
  unfold FileTree.exists? FileTree.node?
  rw [leads]
  cases bench.tree.get? (home ++ ["src"] ++ [name]) <;> rfl

theorem Houses.free_of_absent (houses : Houses bench root home log)
    (takes : Takes bench.surroundings ((sourceRoute root).under name plain).path name)
    (absent : bench.tree.exists? bench.surroundings.place ((sourceRoute root).under name plain).path = false) :
    bench.tree.get? (home ++ ["src"] ++ [name]) = none := by
  rw [houses.exists_eq takes] at absent
  exact Option.isSome_eq_false_iff.1 absent |> Option.isNone_iff_eq_none.1

theorem Changed.in_source (changed : Changed bench after log spots) (houses : Houses bench root home log)
    (elsewhere : home ++ ["src"] ++ [name] ∉ spots) :
    after.tree.get? (home ++ ["src"] ++ [name]) = bench.tree.get? (home ++ ["src"] ++ [name]) :=
  changed.same _ (houses.apart name).2.symm elsewhere

end Houses

section Stocked

variable {bench after : Bench} {root : Route} {home log : Place} {pair : Script.MarkerPair}
  {added : List String} {text : List Char} (stocked : Stocked bench root home log pair added text)
include stocked

theorem Stocked.changed (houses : Houses after root home log) {spots : List Place}
    (changed : Changed bench after log spots)
    (aside : ∀ name, home ++ ["src"] ++ [name] ∈ spots →
      ¬IsSource name ∧ name ≠ scriptName ∧ name ≠ draftName) :
    Stocked after root home log pair added text where
  houses := houses
  clean := stocked.clean
  short := stocked.short
  script := by
    rw [changed.in_source stocked.houses fun member => (aside _ member).2.1 rfl]
    exact stocked.script
  holds := stocked.holds
  draft := by
    rw [changed.in_source stocked.houses fun member => (aside _ member).2.2 rfl]
    exact stocked.draft
  listed := by
    intro name source there
    rw [changed.in_source stocked.houses fun member => (aside name member).1 source] at there
    exact stocked.listed name source there

theorem Stocked.logged {message : Message} (ends : outcome (Work.log message) bench = (.ok (), after)) :
    Stocked after root home log pair added text ∧ Changed bench after log [] := by
  obtain ⟨last, done, houses, changed⟩ := stocked.houses.exists_logged message
  cases ends.symm.trans done
  exact ⟨stocked.changed houses changed (by simp), changed⟩

theorem Stocked.exists_writeFile {name : String} {plain : IsPlain name.toList}
    (free : bench.tree.get? (home ++ ["src"] ++ [name]) = none)
    (takes : Takes bench.surroundings ((sourceRoute root).under name plain).path name)
    (clean : ((sourceRoute root).under name plain).path.toList.contains '\x00' = false)
    (aside : ¬IsSource name ∧ name ≠ scriptName ∧ name ≠ draftName) (written : String) : ∃ after,
    outcome (Scaffold.writeFile ((sourceRoute root).under name plain).path written) bench = (.ok (), after) ∧
      Stocked after root home log pair added text ∧
        Changed bench after log [home ++ ["src"] ++ [name]] := by
  have houses := stocked.houses
  obtain ⟨after, writes⟩ := houses.exists_writeFile houses.reaches_source free takes clean written
  obtain ⟨still, changed, -⟩ :=
    houses.of_writeFile houses.reaches_source free (houses.apart name).2 writes
  refine ⟨after, writes, stocked.changed still changed fun other member => ?_, changed⟩
  obtain rfl := spot_inj.1 (List.mem_singleton.1 member)
  exact aside

theorem Stocked.exists_registered {name : String} {plain : IsPlain name.toList}
    (free : bench.tree.get? (home ++ ["src"] ++ [name]) = none)
    (takes : Takes bench.surroundings ((sourceRoute root).under name plain).path name)
    (clean : ((sourceRoute root).under name plain).path.toList.contains '\x00' = false)
    (replaces : Replaces bench.surroundings root) (source : IsSource name)
    (valid : Script.IsEntry name.toList) (bare : Text.trim name.toList = name.toList)
    (unmarked : Text.contains name.toList Script.endMarker = false) (written : String) :
    ∃ mid injection after,
      outcome (Scaffold.writeFile ((sourceRoute root).under name plain).path written) bench = (.ok (), mid) ∧
      outcome (Script.register (scriptRoute root).path (.text name)) mid = (.ok injection, after) ∧
      Stocked after root home log pair
        (if Script.isListed text name.toList then added else added ++ [name])
        (Script.place text name.toList).text ∧
      Changed bench after log [home ++ ["src"] ++ [name], home ++ ["src"] ++ [scriptName],
        home ++ ["src"] ++ [draftName]] := by
  have houses := stocked.houses
  obtain ⟨mode, script⟩ := stocked.script
  -- the new source is neither the script nor its draft, so both stay while it is written
  have scriptOther : scriptName ≠ name := by
    rintro rfl
    exact not_isSource_scriptName source
  have draftOther : draftName ≠ name := by
    rintro rfl
    exact not_isSource_draftName source
  obtain ⟨mid, writes⟩ := houses.exists_writeFile houses.reaches_source free takes clean written
  obtain ⟨still, wrote, there⟩ :=
    houses.of_writeFile houses.reaches_source free (houses.apart name).2 writes
  have scriptStays := (wrote.in_source houses (by simpa [spot_inj] using scriptOther)).trans script
  have draftStays := (wrote.in_source houses (by simpa [spot_inj] using draftOther)).trans stocked.draft
  have marked : Script.HasMarkers (Text.lines text) := by
    rw [stocked.holds.lines]
    exact stocked.holds.pairNow.hasMarkers
  rw [← wrote.surroundings] at replaces
  obtain ⟨injection, after, registers, houses', registered, draft, bits, script'⟩ :=
    still.register scriptStays replaces valid bare marked draftStays
  have changed := wrote.trans registered
  have isBare : Script.IsBare name.toList := bare ▸ valid.isBare
  refine ⟨mid, injection, after, writes, registers,
    ⟨houses', stocked.clean, stocked.short, ⟨bits, script'⟩, ?_, draft, ?_⟩, changed⟩
  · have holds := stocked.holds.place isBare unmarked
    split at holds
    · rwa [if_pos ‹_›]
    · rw [if_neg ‹_›, List.map_append]
      exact holds
  · intro other otherSource taken
    by_cases same : other = name
    · subst same
      exact ⟨isBare, Script.isListed_place_self text _⟩
    · rw [changed.in_source houses ?_] at taken
      · obtain ⟨otherBare, listed⟩ := stocked.listed other otherSource taken
        exact ⟨otherBare, Script.isListed_place otherBare listed⟩
      · simp only [List.mem_append, List.mem_cons, List.not_mem_nil, or_false, spot_inj, not_or]
        refine ⟨same, ?_, ?_⟩
        · rintro rfl
          exact not_isSource_scriptName otherSource
        · rintro rfl
          exact not_isSource_draftName otherSource

theorem Stocked.exists_finished (message : Message) (paths : List String) : ∃ after,
    outcome (do Work.log message; return paths : Work (List String)) bench = (.ok paths, after) ∧
      Stocked after root home log pair added text ∧ Changed bench after log [] := by
  obtain ⟨after, logs, -⟩ := stocked.houses.exists_logged message
  obtain ⟨still, changed⟩ := stocked.logged logs
  exact ⟨after, outcome_bind_ok logs _, still, changed⟩

end Stocked

structure Spares (bench after : Bench) (log script : Place) : Prop where
  surroundings : after.surroundings = bench.surroundings
  stays : ∀ {place : Place} {node : Node}, bench.tree.get? place = some node → place ≠ log →
    place ≠ script → after.tree.get? place = some node

theorem Spares.refl (bench : Bench) (log script : Place) : Spares bench bench log script :=
  ⟨rfl, fun there _ _ => there⟩

theorem Spares.trans {bench mid after : Bench} {log script : Place} (first : Spares bench mid log script)
    (second : Spares mid after log script) : Spares bench after log script :=
  ⟨second.surroundings.trans first.surroundings, fun there other apart =>
    second.stays (first.stays there other apart) other apart⟩

theorem Changed.spares {bench after : Bench} {log script : Place} {spots : List Place}
    (changed : Changed bench after log spots)
    (free : ∀ place ∈ spots, place = script ∨ bench.tree.get? place = none) :
    Spares bench after log script := by
  refine ⟨changed.surroundings, fun {place node} there other apart => ?_⟩
  rw [changed.same place other ?_, there]
  intro member
  rcases free place member with same | none
  · exact apart same
  · cases none.symm.trans there

theorem Houses.makes_source {bench : Bench} {root : Route} {home log : Place}
    (houses : Houses bench root home log) (clean : '\x00' ∉ (sourceRoute root).text)
    (short : ¬FileTree.maxPathOctets < (sourceRoute root).path.utf8ByteSize) :
    outcome (Work.makeFolders (sourceRoute root).path true) bench = (.ok (), bench) := by
  refine outcome_makeFolders_of_reaches houses.reaches (by decide) houses.source short ?_
  rw [Bool.eq_false_iff, Ne, List.contains_iff_mem, Route.toList_path]
  exact clean

def Addition.IsRefused (addition : Addition) (metadata : Metadata) (bench : Bench) : Prop :=
  ∃ fault, outcome (addition.work metadata) bench = (.error (.fault fault), bench) ∧
    (fault = .unknownElement addition.type ∨ ∃ element,
      Element.ofWord? addition.type = some element ∧
        fault = .elementExists addition.type (element.className addition.name))

def scriptText? (metadata : Metadata) (bench : Bench) : Option (List Char) :=
  match bench.tree.node? bench.surroundings.place (scriptPath metadata) with
  | some (.file contents _) => (Text.Utf8.decode contents).toOption
  | _ => none

/-- The source that an addition registers: the addition is done, it is not one of a header alone,
and the source is not listed yet. -/
def Addition.newSource? (addition : Addition) (metadata : Metadata) (bench : Bench) : Option String :=
  match Element.ofWord? addition.type, (outcome (addition.work metadata) bench).1 with
  | some element, .ok _ =>
    let source := sourceName element addition.name
    if addition.headerOnly || (scriptText? metadata bench).any (Script.isListed · source.toList) then none
    else some source
  | _, _ => none

section Addition

variable {metadata : Metadata} {bench : Bench} {root : Route} {home log : Place}
  {pair : Script.MarkerPair} {added : List String} {text : List Char} {addition : Addition}
  {element : Element} (rooted : metadata.root = root.path)
  (stocked : Stocked bench root home log pair added text)
include rooted stocked

theorem Stocked.scriptText?_eq : scriptText? metadata bench = some text := by
  obtain ⟨mode, script⟩ := stocked.script
  unfold scriptText? FileTree.node?
  rw [scriptPath_eq rooted, stocked.houses.locate_script script stocked.short true]
  dsimp only
  rw [Text.Utf8.decode_encode]
  rfl

variable (valid : IsElementName addition.name)
include valid

theorem Stocked.exists_header (absent : isPresent bench metadata element addition.name = false)
    (takes : Takes bench.surroundings (headerPath metadata element addition.name)
      (headerName element addition.name)) (headerOnly : Bool) : ∃ mid,
    outcome (layElement metadata element addition.type addition.name headerOnly) bench =
      outcome (finishElement metadata element addition.type addition.name headerOnly) mid ∧
    Stocked mid root home log pair added text ∧
      bench.tree.get? (home ++ ["src"] ++ [headerName element addition.name]) = none ∧
        Changed bench mid log [home ++ ["src"] ++ [headerName element addition.name]] := by
  obtain ⟨tail, split, tailed⟩ := exists_tail_header element addition.name
  have plain := isPlain_fileName valid tailed split
  have path := headerPath_eq rooted plain
  have clean := clean_under plain stocked.clean (clean_fileName valid tailed split)
  have looked : bench.tree.exists? bench.surroundings.place (headerPath metadata element addition.name) = false := by
    unfold isPresent at absent
    exact (Bool.or_eq_false_iff.1 absent).1
  rw [path] at looked takes
  have free := stocked.houses.free_of_absent takes looked
  have aside : ¬IsSource (headerName element addition.name) ∧
      headerName element addition.name ≠ scriptName ∧ headerName element addition.name ≠ draftName :=
    ⟨fun source => source.ne_header element addition.name rfl, headerName_ne_scriptName element _,
      headerName_ne_draftName element _⟩
  obtain ⟨mid, writes, still, changed⟩ :=
    stocked.exists_writeFile free takes clean aside (named element.header (element.className addition.name))
  have short : ¬FileTree.maxPathOctets < (sourceRoute root).path.utf8ByteSize := by
    have grows := Route.utf8ByteSize_le_under (sourceRoute root) plain
    have fits := takes.short
    omega
  refine ⟨mid, ?_, still, free, changed⟩
  unfold layElement
  rw [sourceFolder_eq rooted, outcome_bind_ok (stocked.houses.makes_source stocked.clean short), path,
    outcome_bind_ok writes]

theorem Stocked.exists_source
    (free : bench.tree.get? (home ++ ["src"] ++ [sourceName element addition.name]) = none)
    (takes : Takes bench.surroundings (sourcePath metadata element addition.name)
      (sourceName element addition.name))
    (reads : bench.surroundings.canRead (scriptPath metadata) = true)
    (draft : Takes bench.surroundings (Script.draftPath (scriptPath metadata)) draftName) :
    ∃ paths after,
      outcome (finishElement metadata element addition.type addition.name false) bench = (.ok paths, after) ∧
      Stocked after root home log pair
        (if Script.isListed text (sourceName element addition.name).toList then added
          else added ++ [sourceName element addition.name])
        (Script.place text (sourceName element addition.name).toList).text ∧
      Changed bench after log [home ++ ["src"] ++ [sourceName element addition.name],
        home ++ ["src"] ++ [scriptName], home ++ ["src"] ++ [draftName]] := by
  obtain ⟨tail, split, tailed⟩ := exists_tail_source element addition.name
  have plain := isPlain_fileName valid tailed split
  have path := sourcePath_eq rooted plain
  have clean := clean_under plain stocked.clean (clean_fileName valid tailed split)
  rw [scriptPath_eq rooted] at reads draft
  rw [draftPath_scriptRoute] at draft
  rw [path] at takes
  have replaces : Replaces bench.surroundings root :=
    ⟨reads, draft, clean_under isPlain_draftName stocked.clean (by decide)⟩
  obtain ⟨mid, injection, last, writes, registers, still, changed⟩ :=
    stocked.exists_registered free takes clean replaces
    (isSource_sourceName element _) (isEntry_fileName valid tailed split)
    (trim_fileName valid tailed split) (unmarked_fileName valid tailed split)
    (named element.source (element.className addition.name))
  obtain ⟨after, logs, final, logged⟩ := still.exists_finished
    { level := .success, text := addition.type ++ " '" ++ element.className addition.name ++ "' added successfully!" }
    [headerPath metadata element addition.name, sourcePath metadata element addition.name]
  rw [← path] at writes
  rw [← scriptPath_eq rooted] at registers
  refine ⟨[headerPath metadata element addition.name, sourcePath metadata element addition.name], after, ?_,
    final, changed.trans logged⟩
  exact (outcome_bind_ok writes _).trans ((outcome_bind_ok registers _).trans logs)

/-- An addition whose files are not there is done: the folder stays stocked, with the source in its
script unless the addition is one of a header alone. -/
theorem Stocked.exists_laid (known : Element.ofWord? addition.type = some element)
    (absent : isPresent bench metadata element addition.name = false)
    (fits : addition.Fits metadata bench.surroundings bench) :
    ∃ paths after text',
      outcome (layElement metadata element addition.type addition.name addition.headerOnly) bench =
        (.ok paths, after) ∧
      Stocked after root home log pair
        (if addition.headerOnly || Script.isListed text (sourceName element addition.name).toList then added
          else added ++ [sourceName element addition.name]) text' ∧
      Spares bench after log (home ++ ["src"] ++ [scriptName]) := by
  obtain ⟨headerFits, sourceFits⟩ := fits element known absent
  obtain ⟨mid, lays, still, headerFree, headed⟩ :=
    stocked.exists_header rooted valid absent headerFits addition.headerOnly
  rw [lays]
  cases only : addition.headerOnly with
  | true =>
    obtain ⟨after, logs, last, logged⟩ := still.exists_finished
      { level := .success, text := addition.type ++ " '" ++ element.className addition.name ++ "' added successfully!" }
      [headerPath metadata element addition.name]
    refine ⟨_, after, text, logs, last, (headed.trans logged).spares ?_⟩
    intro place member
    rw [List.append_nil, List.mem_singleton] at member
    exact Or.inr (member ▸ headerFree)
  | false =>
    obtain ⟨takes, reads, draft⟩ := sourceFits only
    obtain ⟨tail, split, tailed⟩ := exists_tail_source element addition.name
    have plain := isPlain_fileName valid tailed split
    have path := sourcePath_eq rooted plain
    have looked : bench.tree.exists? bench.surroundings.place (sourcePath metadata element addition.name) = false := by
      unfold isPresent at absent
      exact (Bool.or_eq_false_iff.1 absent).2
    have sourceFree : bench.tree.get? (home ++ ["src"] ++ [sourceName element addition.name]) = none := by
      rw [path] at looked takes
      exact stocked.houses.free_of_absent takes looked
    have other : sourceName element addition.name ≠ headerName element addition.name :=
      (isSource_sourceName element _).ne_header element _
    have free := (headed.in_source stocked.houses (by simpa [spot_inj] using other)).trans sourceFree
    rw [← headed.surroundings] at takes reads draft
    obtain ⟨paths, after, finishes, last, changed⟩ :=
      still.exists_source rooted valid free takes reads draft
    refine ⟨paths, after, _, finishes, last, (headed.trans changed).spares ?_⟩
    intro place member
    simp only [List.mem_append, List.mem_cons, List.not_mem_nil, or_false] at member
    rcases member with rfl | rfl | rfl | rfl
    · exact Or.inr headerFree
    · exact Or.inr sourceFree
    · exact Or.inl rfl
    · exact Or.inr stocked.draft

/-- An addition is refused and changes nothing, or it is done; then the folder stays stocked, with a
new source in its script if there is one, and what was there stays as it is. -/
theorem Stocked.step (fits : addition.Fits metadata bench.surroundings bench) :
    (addition.IsRefused metadata bench ∨ ∃ paths, (outcome (addition.work metadata) bench).1 = .ok paths) ∧
      (∃ text', Stocked (outcome (addition.work metadata) bench).2 root home log pair
        (added ++ (addition.newSource? metadata bench).toList) text') ∧
      Spares bench (outcome (addition.work metadata) bench).2 log (home ++ ["src"] ++ [scriptName]) := by
  cases known : Element.ofWord? addition.type with
  | none =>
    have refused : outcome (addition.work metadata) bench = _ := outcome_addElement_of_unknown known bench
    have nothing : addition.newSource? metadata bench = none := by
      unfold Addition.newSource?
      rw [known]
    rw [nothing, refused]
    refine ⟨Or.inl ⟨_, refused, Or.inl rfl⟩, ⟨text, ?_⟩, .refl ..⟩
    simpa using stocked
  | some element =>
    cases present : isPresent bench metadata element addition.name with
    | true =>
      have refused : outcome (addition.work metadata) bench = _ :=
        outcome_addElement_of_present known present
      have nothing : addition.newSource? metadata bench = none := by
        unfold Addition.newSource?
        rw [known, refused]
      rw [nothing, refused]
      refine ⟨Or.inl ⟨_, refused, Or.inr ⟨element, known, rfl⟩⟩, ⟨text, ?_⟩, .refl ..⟩
      simpa using stocked
    | false =>
      obtain ⟨paths, after, text', lays, last, spares⟩ := stocked.exists_laid rooted valid known present fits
      have done : outcome (addition.work metadata) bench = (.ok paths, after) :=
        (outcome_addElement_of_absent known present).trans lays
      have registered : added ++ (addition.newSource? metadata bench).toList =
          if addition.headerOnly || Script.isListed text (sourceName element addition.name).toList then added
            else added ++ [sourceName element addition.name] := by
        unfold Addition.newSource?
        rw [known, done, stocked.scriptText?_eq rooted]
        dsimp only [Option.any_some]
        split <;> simp
      rw [registered, done]
      exact ⟨Or.inr ⟨paths, rfl⟩, ⟨text', last⟩, spares⟩

end Addition

end JuceWorkbench.Scaffold
