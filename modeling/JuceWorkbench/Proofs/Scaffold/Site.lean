import JuceWorkbench.Proofs.Bench.Folders
import JuceWorkbench.Proofs.Scaffold.Addition
import JuceWorkbench.Proofs.Script.MarkerRun
import JuceWorkbench.Proofs.Text.Utf8

/-! The folders of a project that was laid out: the source folder holds nothing but files, and the
log is written elsewhere. Writing a file that is not there yet changes nothing else but the log. -/

namespace JuceWorkbench.Scaffold
open JuceWorkbench.Path Work Project

theorem isPlain_src : IsPlain "src".toList := ⟨by decide, by decide, by decide⟩

def sourceRoute (root : Route) : Route := root.under "src" isPlain_src

/-- The project folder stands at the place `home`, and the log is written to the place `log`. -/
structure Houses (bench : Bench) (root : Route) (home log : Place) : Prop where
  reaches : bench.tree.Reaches root home
  source : bench.tree.get? (home ++ ["src"]) = some .folder
  files : ∀ {name : String} {node : Node}, bench.tree.get? (home ++ ["src"] ++ [name]) = some node →
    ∃ contents mode, node = .file contents mode
  records : ∃ location, Opens bench.tree bench.surroundings bench.surroundings.logFile location ∧
    location.place = log
  apart : ∀ name, log ≠ home ++ [name] ∧ log ≠ home ++ ["src"] ++ [name]

/-- Between two benches nothing changed but the log and what stands at some places. -/
structure Changed (bench after : Bench) (log : Place) (spots : List Place) : Prop where
  surroundings : after.surroundings = bench.surroundings
  same : ∀ place, place ≠ log → place ∉ spots → after.tree.get? place = bench.tree.get? place

theorem Changed.refl (bench : Bench) (log : Place) : Changed bench bench log [] := ⟨rfl, fun _ _ _ => rfl⟩

theorem Changed.trans {bench mid after : Bench} {log : Place} {spots more : List Place}
    (first : Changed bench mid log spots) (second : Changed mid after log more) :
    Changed bench after log (spots ++ more) := by
  refine ⟨second.surroundings.trans first.surroundings, fun place other outside => ?_⟩
  rw [List.mem_append, not_or] at outside
  exact (second.same place other outside.2).trans (first.same place other outside.1)

section Houses

variable {bench after : Bench} {root : Route} {home log spot : Place}

theorem Houses.put (houses : Houses bench root home log) (takes : bench.tree.TakesFile spot)
    (contents : List UInt8) (mode : Nat) :
    Houses (bench.onTree (·.put spot (.file contents mode))) root home log where
  reaches := FileTree.Way.same houses.reaches (.put takes _) (by rintro ⟨⟩)
  source := (FileTree.Passes.put takes _).folder houses.source
  files := by
    intro name node there
    by_cases same : home ++ ["src"] ++ [name] = spot
    · rw [same, FileTree.get?_put_self] at there
      exact ⟨contents, mode, (Option.some.inj there).symm⟩
    · exact houses.files ((FileTree.get?_put_of_ne bench.tree same _).symm.trans there)
  records := by
    obtain ⟨location, opens, same⟩ := houses.records
    refine ⟨_, ⟨⟨opens.named, FileTree.locate_put opens.leads takes contents mode⟩, opens.writes, ?_⟩,
      (location.place_after spot _).trans same⟩
    unfold FileTree.Location.after
    split
    · rfl
    · exact opens.file
  apart := houses.apart

theorem Houses.erase (houses : Houses bench root home log) {contents : List UInt8} {mode : Nat}
    (there : bench.tree.get? spot = some (.file contents mode)) (elsewhere : log ≠ spot) :
    Houses (bench.onTree (·.erase spot)) root home log where
  reaches := FileTree.Way.same houses.reaches (.erase there) (by rintro ⟨⟩)
  source := (FileTree.Passes.erase there).folder houses.source
  files := by
    intro name node found
    by_cases same : home ++ ["src"] ++ [name] = spot
    · rw [same, FileTree.get?_erase_self] at found
      cases found
    · exact houses.files ((FileTree.get?_erase_of_ne bench.tree same).symm.trans found)
  records := by
    obtain ⟨location, opens, same⟩ := houses.records
    obtain ⟨start, goes, way⟩ := FileTree.way_of_locate opens.leads
    refine ⟨location, ⟨⟨opens.named, goes _ _ _ (way.same (.erase there) fun _ => ?_)⟩, opens.writes,
      opens.file⟩, same⟩
    exact FileTree.get?_erase_of_ne bench.tree (same ▸ elsewhere)
  apart := houses.apart

theorem Houses.log_takes (houses : Houses bench root home log) : bench.tree.TakesFile log := by
  obtain ⟨location, opens, rfl⟩ := houses.records
  exact FileTree.takesFile_of_locate opens.leads opens.file

theorem Houses.logged (houses : Houses bench root home log) (logged : Logged bench after) :
    Houses after root home log ∧ Changed bench after log [] := by
  have takes := houses.log_takes
  obtain ⟨location, opens, same⟩ := houses.records
  rcases logged.tree with unchanged | ⟨other, contents, mode, opened, written⟩
  · refine ⟨?_, logged.surroundings, fun place _ _ => by rw [unchanged]⟩
    exact ⟨unchanged ▸ houses.reaches, unchanged ▸ houses.source, by rw [unchanged]; exact houses.files,
      by rw [unchanged, logged.surroundings]; exact houses.records, houses.apart⟩
  · obtain rfl := opens.toLeads.unique opened.toLeads
    rw [same] at written
    have put := houses.put takes contents mode
    refine ⟨?_, logged.surroundings, fun place elsewhere _ => ?_⟩
    · exact ⟨written ▸ put.reaches, written ▸ put.source, by rw [written]; exact put.files,
        by rw [written, logged.surroundings]; exact put.records, houses.apart⟩
    · rw [written, FileTree.get?_put_of_ne _ elsewhere]

theorem Houses.exists_logged (houses : Houses bench root home log) (message : Message) : ∃ after,
    outcome (Work.log message) bench = (.ok (), after) ∧ Houses after root home log ∧
      Changed bench after log [] := by
  obtain ⟨location, opens, -⟩ := houses.records
  obtain ⟨after, ends, logged⟩ := log_of_canRecord ⟨location, opens⟩ message
  exact ⟨after, ends, houses.logged logged⟩

end Houses

/-- A file can be written at a path that ends in a name: it is not protected, and neither the path nor
the name is too long. -/
structure Takes (surroundings : Surroundings) (path name : String) : Prop where
  writes : surroundings.canWrite path = true
  short : path.utf8ByteSize ≤ FileTree.maxPathOctets
  named : name.utf8ByteSize ≤ FileTree.maxNameOctets

section WriteFile

variable {bench after : Bench} {root folder : Route} {home log place : Place} {name text : String}
  {plain : IsPlain name.toList} (houses : Houses bench root home log)
  (reaches : bench.tree.Reaches folder place) (free : bench.tree.get? (place ++ [name]) = none)
include houses reaches free

theorem Houses.of_writeText {written : List Char}
    (ends : outcome (Work.writeText (folder.under name plain).path written) bench = (.ok (), after)) :
    Houses after root home log ∧ Changed bench after log [place ++ [name]] ∧
      after.tree.get? (place ++ [name]) = some (.file (Text.Utf8.encode written) newFileMode) := by
  by_cases opens : ∃ location, Opens bench.tree bench.surroundings (folder.under name plain).path location
  · obtain ⟨location, opens⟩ := opens
    obtain rfl : location = .free (place ++ [name]) := by
      have same := reaches.eq_at opens.leads (by
        intro target
        rw [free]
        rintro ⟨⟩)
      rwa [free] at same
    cases ends.symm.trans (outcome_writeOctets opens (Text.Utf8.encode written))
    refine ⟨houses.put (FileTree.takesFile_of_locate opens.leads opens.file) _ newFileMode,
      ⟨rfl, fun other _ outside => ?_⟩, FileTree.get?_put_self ..⟩
    have apart : other ≠ place ++ [name] := by simpa using outside
    exact FileTree.get?_put_of_ne bench.tree apart _
  · obtain ⟨fault, stops⟩ := outcome_writeOctets_of_not_opens (not_exists.1 opens) (Text.Utf8.encode written)
    cases ends.symm.trans stops

theorem Houses.of_writeFile (elsewhere : log ≠ place ++ [name])
    (ends : outcome (Scaffold.writeFile (folder.under name plain).path text) bench = (.ok (), after)) :
    Houses after root home log ∧ Changed bench after log [place ++ [name]] ∧
      after.tree.get? (place ++ [name]) = some (.file (Text.Utf8.encode text.toList) newFileMode) := by
  obtain ⟨⟨⟩, mid, writes, logs⟩ := exists_mid ends
  obtain ⟨still, changed, there⟩ := houses.of_writeText reaches free writes
  obtain ⟨last, done, again, logged⟩ := still.exists_logged
    { level := .step, text := "Created file: " ++ (folder.under name plain).path, indent := 2, timed := false }
  cases logs.symm.trans done
  exact ⟨again, changed.trans logged, (logged.same _ elsewhere.symm List.not_mem_nil).trans there⟩

omit houses in
theorem exists_writeText (takes : Takes bench.surroundings (folder.under name plain).path name)
    (clean : (folder.under name plain).path.toList.contains '\x00' = false) (written : List Char) :
    ∃ after, outcome (Work.writeText (folder.under name plain).path written) bench = (.ok (), after) := by
  obtain ⟨filled, stays⟩ := isPart_of_isPlain plain
  have leads := reaches.locate plain ⟨filled, stays, Nat.not_lt.2 takes.named⟩ (Nat.not_lt.2 takes.short) (by
    intro target
    rw [free]
    rintro ⟨⟩) bench.surroundings.place true
  rw [free] at leads
  have opens : Opens bench.tree bench.surroundings (folder.under name plain).path _ :=
    ⟨⟨clean, leads⟩, takes.writes, rfl⟩
  exact ⟨_, outcome_writeOctets opens _⟩

theorem Houses.exists_writeFile (takes : Takes bench.surroundings (folder.under name plain).path name)
    (clean : (folder.under name plain).path.toList.contains '\x00' = false) (text : String) :
    ∃ after, outcome (Scaffold.writeFile (folder.under name plain).path text) bench = (.ok (), after) := by
  obtain ⟨mid, writes⟩ := exists_writeText reaches free takes clean text.toList
  obtain ⟨after, logs, -⟩ := (houses.of_writeText reaches free writes).1.exists_logged
    { level := .step, text := "Created file: " ++ (folder.under name plain).path, indent := 2, timed := false }
  exact ⟨after, (outcome_bind_ok writes _).trans logs⟩

end WriteFile

/-! Registering a source. -/

def draftName : String := scriptName ++ ".tmp"

theorem isPlain_scriptName : IsPlain scriptName.toList := ⟨by decide, by decide, by decide⟩

theorem isPlain_draftName : IsPlain draftName.toList := ⟨by decide, by decide, by decide⟩

def scriptRoute (root : Route) : Route := (sourceRoute root).under scriptName isPlain_scriptName

def draftRoute (root : Route) : Route := (sourceRoute root).under draftName isPlain_draftName

theorem script_ne_draft (folder : Place) : folder ++ [scriptName] ≠ folder ++ [draftName] := by
  intro same
  exact absurd (List.singleton_inj.1 (List.append_inj' same rfl).2) (by decide)

theorem draftPath_scriptRoute (root : Route) : Script.draftPath (scriptRoute root).path = (draftRoute root).path :=
  Route.path_append _ isPlain_scriptName isPlain_draftName

structure Replaces (surroundings : Surroundings) (root : Route) : Prop where
  reads : surroundings.canRead (scriptRoute root).path = true
  draft : Takes surroundings (draftRoute root).path draftName
  clean : (draftRoute root).path.toList.contains '\x00' = false

theorem Replaces.script_short {surroundings : Surroundings} {root : Route}
    (replaces : Replaces surroundings root) :
    ¬FileTree.maxPathOctets < (scriptRoute root).path.utf8ByteSize := by
  have short := replaces.draft.short
  rw [← draftPath_scriptRoute, Script.draftPath, String.utf8ByteSize_append] at short
  omega

theorem Replaces.script_clean {surroundings : Surroundings} {root : Route}
    (replaces : Replaces surroundings root) :
    (scriptRoute root).path.toList.contains '\x00' = false := by
  have clean := replaces.clean
  rw [← draftPath_scriptRoute, Script.draftPath, String.toList_append] at clean
  rw [Bool.eq_false_iff, Ne, List.contains_iff_mem] at clean ⊢
  exact fun member => clean (List.mem_append_left _ member)

section Register

variable {bench : Bench} {root : Route} {home log : Place} {text entry : List Char} {mode : Nat}

theorem Houses.reaches_source (houses : Houses bench root home log) :
    bench.tree.Reaches (sourceRoute root) (home ++ ["src"]) := by
  have goes := FileTree.Way.step houses.reaches rfl (show FileTree.IsName "src" by decide) (by
    intro target
    rw [houses.source]
    rintro ⟨⟩) true
  rwa [houses.source] at goes

variable (houses : Houses bench root home log)
  (script : bench.tree.get? (home ++ ["src"] ++ [scriptName]) = some (.file (Text.Utf8.encode text) mode))
include houses script

theorem Houses.locate_script (short : ¬FileTree.maxPathOctets < (scriptRoute root).path.utf8ByteSize)
    (follow : Bool) : bench.tree.locate follow bench.surroundings.place (scriptRoute root).path =
      .ok (.taken (home ++ ["src"] ++ [scriptName]) (.file (Text.Utf8.encode text) mode)) := by
  have leads := houses.reaches_source.locate isPlain_scriptName
    (show FileTree.IsName scriptName by decide) short (by
      intro target
      rw [script]
      rintro ⟨⟩) bench.surroundings.place follow
  rwa [script] at leads

variable (replaces : Replaces bench.surroundings root)
include replaces

theorem Houses.readExact_script :
    outcome (Work.readExact (scriptRoute root).path) bench = (.ok text, bench) := by
  have leads : Leads bench.tree bench.surroundings (scriptRoute root).path _ :=
    ⟨replaces.script_clean, houses.locate_script script replaces.script_short true⟩
  exact outcome_readExact (outcome_readOctets leads replaces.reads) (Text.Utf8.decode_encode text)

theorem Houses.move_draft {written : List UInt8} {bits : Nat}
    (draft : bench.tree.get? (home ++ ["src"] ++ [draftName]) = some (.file written bits)) : ∃ after,
      outcome (Work.moveFile (draftRoute root).path (scriptRoute root).path) bench = (.ok (), after) ∧
        Houses after root home log ∧
          Changed bench after log [home ++ ["src"] ++ [scriptName], home ++ ["src"] ++ [draftName]] ∧
            after.tree.get? (home ++ ["src"] ++ [draftName]) = none ∧
              after.tree.get? (home ++ ["src"] ++ [scriptName]) = some (.file written bits) := by
  have finds := houses.reaches_source.locate isPlain_draftName
    (show FileTree.IsName draftName by decide) (Nat.not_lt.2 replaces.draft.short) (by
      intro target
      rw [draft]
      rintro ⟨⟩) bench.surroundings.place false
  rw [draft] at finds
  have moves := outcome_moveFile finds (houses.locate_script script replaces.script_short false) (by rintro ⟨⟩)
  have erased := houses.erase draft (houses.apart draftName).2
  have stays : (bench.tree.erase (home ++ ["src"] ++ [draftName])).get? (home ++ ["src"] ++ [scriptName]) = _ :=
    (FileTree.get?_erase_of_ne bench.tree (script_ne_draft _)).trans script
  have takes : (bench.tree.erase (home ++ ["src"] ++ [draftName])).TakesFile (home ++ ["src"] ++ [scriptName]) := by
    intro node there
    exact ⟨_, _, Option.some.inj (there.symm.trans stays)⟩
  refine ⟨_, moves, erased.put takes written bits, ⟨rfl, fun place _ outside => ?_⟩, ?_,
    FileTree.get?_put_self ..⟩
  · simp only [List.mem_cons, List.not_mem_nil, or_false, not_or] at outside
    exact (FileTree.get?_put_of_ne _ outside.1 _).trans (FileTree.get?_erase_of_ne _ outside.2)
  · exact (FileTree.get?_put_of_ne _ (script_ne_draft _).symm _).trans (FileTree.get?_erase_self ..)

theorem Houses.write_script (draft : bench.tree.get? (home ++ ["src"] ++ [draftName]) = none)
    (written : List Char) : ∃ after,
      outcome (Script.write (scriptRoute root).path written) bench = (.ok (), after) ∧
        Houses after root home log ∧
          Changed bench after log [home ++ ["src"] ++ [scriptName], home ++ ["src"] ++ [draftName]] ∧
            after.tree.get? (home ++ ["src"] ++ [draftName]) = none ∧
              after.tree.get? (home ++ ["src"] ++ [scriptName]) =
                some (.file (Text.Utf8.encode written) newFileMode) := by
  obtain ⟨mid, writes⟩ := exists_writeText houses.reaches_source draft replaces.draft replaces.clean written
  obtain ⟨still, changed, drafted⟩ := houses.of_writeText houses.reaches_source draft writes
  have stays := (changed.same _ (houses.apart scriptName).2.symm
    (by simpa using script_ne_draft (home ++ ["src"]))).trans script
  rw [← changed.surroundings] at replaces
  obtain ⟨after, moves, last, moved, gone, there⟩ := still.move_draft stays replaces drafted
  refine ⟨after, ?_, last, ⟨moved.surroundings.trans changed.surroundings, ?_⟩, gone, there⟩
  · unfold Script.write Script.writeBy
    rw [draftPath_scriptRoute]
    exact outcome_bind_ok (outcome_attempt_of_ok ((outcome_bind_ok writes _).trans moves)) _
  · intro place elsewhere outside
    refine (moved.same place elsewhere outside).trans (changed.same place elsewhere ?_)
    exact fun member => outside (List.mem_cons_of_mem _ member)

/-- A source is registered in a script with markers: the script gets it, and nothing else changes but
the log. -/
theorem Houses.register {entry : String} (valid : Script.IsEntry entry.toList)
    (bare : Text.trim entry.toList = entry.toList) (marked : Script.HasMarkers (Text.lines text))
    (draft : bench.tree.get? (home ++ ["src"] ++ [draftName]) = none) : ∃ injection after,
      outcome (Script.register (scriptRoute root).path (.text entry)) bench = (.ok injection, after) ∧
        Houses after root home log ∧
          Changed bench after log [home ++ ["src"] ++ [scriptName], home ++ ["src"] ++ [draftName]] ∧
            after.tree.get? (home ++ ["src"] ++ [draftName]) = none ∧ ∃ bits,
              after.tree.get? (home ++ ["src"] ++ [scriptName]) =
                some (.file (Text.Utf8.encode (Script.place text entry.toList).text) bits) := by
  have reads := houses.readExact_script script replaces
  have injects : outcome (ofExcept (Script.injectEntry text (.text entry))) bench =
      (.ok (Script.place text entry.toList), bench) := by
    unfold Script.injectEntry
    dsimp only
    rw [Script.inject_of_isEntry text valid, bare]
    rfl
  obtain ⟨strategy, -⟩ := Script.hasMarkers_place (bare ▸ valid.isBare) marked
  unfold Script.register Script.registerBy
  rw [outcome_bind_ok reads, outcome_bind_ok injects]
  dsimp only
  rcases strategy with present | inserted
  · have same := Script.place_of_listed (Script.listed_of_present present)
    have unchanged : (Script.place text entry.toList).changed = false := by rw [same]; rfl
    obtain ⟨after, logs, still, logged⟩ := houses.exists_logged
      { level := .info, text := (Datum.text entry).shown ++ " is already listed in " ++ (scriptRoute root).path }
    have stays := (logged.same _ (houses.apart scriptName).2.symm List.not_mem_nil).trans script
    rw [unchanged, if_neg Bool.false_ne_true]
    refine ⟨_, after, outcome_bind_ok logs _, still, ⟨logged.surroundings, ?_⟩, ?_, mode, ?_⟩
    · exact fun place elsewhere _ => logged.same place elsewhere List.not_mem_nil
    · exact (logged.same _ (houses.apart draftName).2.symm List.not_mem_nil).trans draft
    · rw [stays, same]
  · have changes : (Script.place text entry.toList).changed = true := by
      unfold Script.Injection.changed Script.Injection.outcome
      rw [inserted]
      rfl
    have quiet : (Script.place text entry.toList).warning? = none := by
      unfold Script.Injection.warning?
      rw [inserted]
      rfl
    obtain ⟨mid, writes, still, changed, gone, there⟩ := houses.write_script script replaces draft
      (Script.place text entry.toList).text
    obtain ⟨after, logs, last, logged⟩ := still.exists_logged
      { level := .info, text := "Added " ++ (Datum.text entry).shown ++ " to " ++ (scriptRoute root).path }
    rw [changes, if_pos rfl, outcome_bind_ok writes, quiet]
    refine ⟨_, after, outcome_bind_ok logs _, last, ⟨logged.surroundings.trans changed.surroundings, ?_⟩,
      ?_, newFileMode, ?_⟩
    · intro place elsewhere outside
      exact (logged.same place elsewhere List.not_mem_nil).trans (changed.same place elsewhere outside)
    · exact (logged.same _ (houses.apart draftName).2.symm List.not_mem_nil).trans gone
    · exact (logged.same _ (houses.apart scriptName).2.symm List.not_mem_nil).trans there

end Register

end JuceWorkbench.Scaffold
