import JuceWorkbench.Proofs.Scaffold.Stock

/-! What a new project is like: its source folder is stocked with the files of its template and
nothing else, and nothing that was there before changed but the log. -/

namespace JuceWorkbench.Scaffold
open JuceWorkbench.Path Work Project

structure Records (bench : Bench) (log : Place) : Prop where
  opens : ∃ location, Opens bench.tree bench.surroundings bench.surroundings.logFile location ∧
    location.place = log
  there : ∃ contents mode, bench.tree.get? log = some (.file contents mode)

theorem records_of_log {bench after : Bench} {message : Message} (closed : bench.tree.Closed)
    (here : bench.tree.get? bench.surroundings.place = some .folder)
    (ends : outcome (Work.log message) bench = (.ok (), after)) :
    ∃ log, Records after log ∧ after.tree.Closed ∧ after.tree.Passes bench.tree ∧
      Changed bench after log [] := by
  by_cases records : ∃ location, Opens bench.tree bench.surroundings bench.surroundings.logFile location
  · obtain ⟨location, opens⟩ := records
    cases ends.symm.trans (outcome_log_of_opens opens message)
    have takes := FileTree.takesFile_of_locate opens.leads opens.file
    unfold Bench.write
    rw [shown_tree, shown_surroundings]
    refine ⟨location.place, ⟨⟨_, opens.put _ location.written.2, rfl⟩, _, _, FileTree.get?_put_self ..⟩,
      ?_, .of_put .., rfl, ?_⟩
    · obtain ⟨-, folder⟩ | ⟨-, folder, name, place, upper⟩ := closed.stands_of_locate here opens.leads
      · obtain ⟨contents, mode, file⟩ := takes _ folder
        cases file
      · rw [place] at takes ⊢
        refine closed.put upper _ fun folder => ?_
        obtain ⟨contents, mode, file⟩ := takes _ folder
        cases file
    · intro place other _
      exact FileTree.get?_put_of_ne bench.tree other _
  · obtain ⟨fault, last, stops, -⟩ := log_of_not_canRecord records message
    cases ends.symm.trans stops

section Founded

variable {bench after : Bench} {root : Route} {home log : Place}

theorem Records.houses (records : Records bench log) (founded : Founded bench after root "src" home) :
    Houses after root home log where
  reaches := founded.reaches
  source := founded.folder
  files := by
    intro name node there
    cases (founded.empty name).symm.trans there
  records := by
    obtain ⟨⟨location, opens, same⟩, contents, mode, there⟩ := records
    obtain ⟨start, goes, way⟩ := FileTree.way_of_locate opens.leads
    refine ⟨location, ⟨⟨founded.grew.surroundings ▸ opens.named, ?_⟩, ?_, opens.file⟩, same⟩
    · rw [founded.grew.surroundings]
      refine goes _ _ _ (way.same ⟨founded.grew.stays, founded.grew.stays⟩ fun _ => ?_)
      rw [same, there, founded.grew.stays there]
    · rw [founded.grew.surroundings]
      exact opens.writes
  apart := by
    obtain ⟨-, contents, mode, there⟩ := records
    have stays := founded.grew.stays there
    intro name
    refine ⟨?_, ?_⟩
    · rintro rfl
      by_cases source : name = "src"
      · subst source
        cases founded.folder.symm.trans stays
      · cases (founded.alone name source).symm.trans stays
    · rintro rfl
      cases (founded.empty name).symm.trans stays

end Founded

/-! The files of a new project. -/

theorem isShort_of_writeFile {bench after : Bench} {path text : String}
    (ends : outcome (Scaffold.writeFile path text) bench = (.ok (), after)) :
    path.toList.contains '\x00' = false ∧ ¬FileTree.maxPathOctets < path.utf8ByteSize := by
  obtain ⟨⟨⟩, mid, writes, -⟩ := exists_mid ends
  by_cases opens : ∃ location, Opens bench.tree bench.surroundings path location
  · obtain ⟨location, opens⟩ := opens
    refine ⟨opens.named, fun long => ?_⟩
    have leads := opens.leads
    unfold FileTree.locate at leads
    split at leads
    · cases leads
    · cases leads
  · obtain ⟨fault, stops⟩ := outcome_writeOctets_of_not_opens (not_exists.1 opens) (Text.Utf8.encode text.toList)
    cases writes.symm.trans stops

section Lay

variable {bench after : Bench} {root : Route} {home log : Place}

/-- Files of different names are laid in a source folder where none of them stood. -/
theorem Houses.of_forM {files : List TemplateFile} (houses : Houses bench root home log)
    (plain : ∀ file ∈ files, IsPlain file.name.toList) (distinct : (files.map (·.name)).Nodup)
    (free : ∀ file ∈ files, bench.tree.get? (home ++ ["src"] ++ [file.name]) = none)
    (ends : outcome (files.forM fun file =>
      Scaffold.writeFile (Path.join (sourceRoute root).path file.name) file.text) bench = (.ok (), after)) :
    Houses after root home log ∧
      Changed bench after log (files.map fun file => home ++ ["src"] ++ [file.name]) ∧
      ∀ file ∈ files,
        after.tree.get? (home ++ ["src"] ++ [file.name]) =
          some (.file (Text.Utf8.encode file.text.toList) newFileMode) ∧
        (Path.join (sourceRoute root).path file.name).toList.contains '\x00' = false ∧
          ¬FileTree.maxPathOctets < (Path.join (sourceRoute root).path file.name).utf8ByteSize := by
  induction files generalizing bench with
  | nil =>
    cases ends
    exact ⟨houses, .refl .., by simp⟩
  | cons file files ih =>
    rw [List.forM] at ends
    obtain ⟨⟨⟩, mid, writes, more⟩ := exists_mid ends
    have first := plain file List.mem_cons_self
    rw [List.map_cons, List.nodup_cons] at distinct
    have path : Path.join (sourceRoute root).path file.name = _ := Route.join_path _ first
    have shape := isShort_of_writeFile writes
    rw [path] at writes
    obtain ⟨still, changed, there⟩ := houses.of_writeFile houses.reaches_source
      (free file List.mem_cons_self) (houses.apart file.name).2 writes
    have other : ∀ later ∈ files, later.name ≠ file.name := by
      intro later member same
      exact distinct.1 (same ▸ List.mem_map_of_mem member)
    obtain ⟨last, further, laid⟩ := ih still (fun later member => plain later (List.mem_cons_of_mem file member))
      distinct.2 (fun later member => by
        rw [changed.in_source houses (by simpa [spot_inj] using other later member)]
        exact free later (List.mem_cons_of_mem file member)) more
    refine ⟨last, changed.trans further, fun later member => ?_⟩
    rcases List.mem_cons.1 member with rfl | deeper
    · refine ⟨?_, shape⟩
      rw [further.in_source still ?_, there]
      rw [List.mem_map]
      rintro ⟨twin, among, same⟩
      exact other twin among (spot_inj.1 same)
    · exact laid later deeper

end Lay

/-! The side file. -/

theorem isPlain_sideFile : IsPlain SideFile.fileName.toList := ⟨by decide, by decide, by decide⟩

/-- What may change while the side file of a project is saved. -/
structure Saving (base : Bench) (root : Route) (home log : Place) (bench : Bench) : Prop where
  houses : Houses bench root home log
  changed : Changed base bench log [home ++ [SideFile.fileName]]
  unlinked : ∀ target, bench.tree.get? (home ++ [SideFile.fileName]) ≠ some (.link target)

section Saving

variable {base bench after : Bench} {root : Route} {home log : Place}

theorem Saving.logged (saving : Saving base root home log bench) (logged : Logged bench after) :
    Saving base root home log after := by
  obtain ⟨still, changed⟩ := saving.houses.logged logged
  refine ⟨still, saving.changed.trans changed, ?_⟩
  rw [changed.same _ (saving.houses.apart SideFile.fileName).1.symm List.not_mem_nil]
  exact saving.unlinked

theorem keeps_writeText_sideFile (base : Bench) (root : Route) (home log : Place) (text : List Char) :
    Keeps (Saving base root home log) (Work.writeText (root.under SideFile.fileName isPlain_sideFile).path text) := by
  refine Keeps.writeOctets _ _ fun bench location saving opens => ?_
  have place : location.place = home ++ [SideFile.fileName] := by
    rw [saving.houses.reaches.eq_at opens.leads saving.unlinked, FileTree.Location.place_at]
  have takes := FileTree.takesFile_of_locate opens.leads opens.file
  rw [place] at takes
  unfold Bench.write
  rw [place]
  have put := saving.houses.put takes (Text.Utf8.encode text) location.written.2
  refine ⟨put, ⟨saving.changed.surroundings, fun other elsewhere outside => ?_⟩, ?_⟩
  · refine (FileTree.get?_put_of_ne bench.tree ?_ _).trans (saving.changed.same other elsewhere outside)
    rintro rfl
    exact outside List.mem_cons_self
  · intro target
    rw [FileTree.get?_put_self]
    rintro ⟨⟩

theorem keeps_save (base : Bench) (root : Route) (home log : Place) (entries : Entries) :
    Keeps (Saving base root home log) (SideFile.save entries root.path) := by
  have path : SideFile.path root.path = _ := Route.join_path root isPlain_sideFile
  have logs : ∀ message, Keeps (Saving base root home log) (Work.log message) :=
    Keeps.log Saving.logged
  have writes : Keeps (Saving base root home log)
      (SideFile.write (root.under SideFile.fileName isPlain_sideFile).path entries) := by
    refine Keeps.bind (keeps_writeText_sideFile base root home log _) fun _ => ?_
    refine Keeps.bind (.of_unchanged outcome_surroundings) fun _ => ?_
    refine Keeps.bind (Yields.ofExcept fun _ _ => trivial) fun _ => ?_
    exact keeps_writeText_sideFile base root home log _
  unfold SideFile.save
  rw [path]
  refine Yields.bind writes.attempt fun result _ => ?_
  split
  · exact Keeps.pure _
  · split
    · exact Keeps.bind (logs _) fun _ => Keeps.bind (logs _) fun _ => Keeps.pure _
    · exact Yields.fail _

theorem Houses.of_save (houses : Houses bench root home log)
    (free : bench.tree.get? (home ++ [SideFile.fileName]) = none) {entries : Entries} {saved : Bool}
    (ends : outcome (SideFile.save entries root.path) bench = (.ok saved, after)) :
    Houses after root home log ∧ Changed bench after log [home ++ [SideFile.fileName]] := by
  have start : Saving bench root home log bench := by
    refine ⟨houses, ⟨rfl, fun _ _ _ => rfl⟩, ?_⟩
    rw [free]
    rintro target ⟨⟩
  have saving := (keeps_save bench root home log entries bench start).1
  rw [ends] at saving
  exact ⟨saving.houses, saving.changed⟩

end Saving

/-! The whole project. -/

theorem stages_of_createProject {metadata : Metadata} {bench start : Bench} {value : String}
    (ends : outcome (createProject metadata) bench = (.ok value, start)) :
    metadata.kind ≠ .unknown ∧ bench.tree.exists? bench.surroundings.place metadata.root = false ∧
      ∃ message announced founded rooted laid saved,
        outcome (Work.log message) bench = (.ok (), announced) ∧
        outcome (Work.makeFolders metadata.sourceFolder false) announced = (.ok (), founded) ∧
        outcome (Scaffold.writeFile (Path.join metadata.root scriptName) (rootScript metadata)) founded =
          (.ok (), rooted) ∧
        outcome ((sourceFiles metadata.kind).forM fun file =>
          Scaffold.writeFile (Path.join metadata.sourceFolder file.name) file.text) rooted = (.ok (), laid) ∧
        outcome (SideFile.save (SideFile.initial metadata) metadata.root) laid = (.ok saved, start) := by
  unfold createProject at ends
  split at ends
  · cases ends
  · rename_i known
    obtain ⟨there, looked, looks, ends⟩ := exists_mid ends
    cases looks
    split at ends
    · cases ends
    · rename_i absent
      obtain ⟨⟨⟩, announced, announces, ends⟩ := exists_mid ends
      obtain ⟨⟨⟩, founded, founds, ends⟩ := exists_mid ends
      obtain ⟨⟨⟩, rooted, roots, ends⟩ := exists_mid ends
      obtain ⟨⟨⟩, laid, lays, ends⟩ := exists_mid ends
      obtain ⟨saved, last, saves, ends⟩ := exists_mid ends
      cases ends
      exact ⟨known, Bool.eq_false_iff.2 absent, _, announced, founded, rooted, laid, saved, announces, founds, roots,
        lays, saves⟩

/-! What holds of the files of every template. -/

section Template

variable {kind : Kind}

theorem exists_script (known : kind ≠ .unknown) : ∃ script ∈ sourceFiles kind, script.name = scriptName := by
  cases kind with
  | unknown => exact absurd rfl known
  | _ => exact ⟨_, List.mem_cons_self, rfl⟩

theorem isPlain_of_mem_sourceFiles : ∀ file ∈ sourceFiles kind, IsPlain file.name.toList := by
  have each : ∀ file ∈ sourceFiles kind, ¬(file.name.toList = [] ∨ file.name.toList = ['.']) ∧
      file.name.toList ≠ ['.', '.'] ∧ '/' ∉ file.name.toList := by
    cases kind <;> decide
  intro file member
  obtain ⟨filled, stays, apart⟩ := each file member
  exact ⟨filled, stays, apart⟩

theorem nodup_sourceFiles : ((sourceFiles kind).map (·.name)).Nodup := by cases kind <;> decide

theorem ne_draftName_of_mem_sourceFiles : ∀ file ∈ sourceFiles kind, file.name ≠ draftName := by
  cases kind <;> decide

theorem isBare_of_mem_sourceFiles : ∀ file ∈ sourceFiles kind, Script.IsBare file.name.toList := by
  have each : ∀ file ∈ sourceFiles kind, Script.IsEntry file.name.toList ∧
      Text.trim file.name.toList = file.name.toList := by
    cases kind <;> decide
  intro file member
  obtain ⟨valid, bare⟩ := each file member
  exact bare ▸ valid.isBare

end Template

/-! The project as it is before its side file is saved. -/

/-- The files of a template were laid in a new source folder. Nothing that was there before changed but
the log. -/
structure Laid (kind : Kind) (bench laid : Bench) (root : Route) (home log : Place) : Prop where
  houses : Houses laid root home log
  clean : '\x00' ∉ (sourceRoute root).text
  short : ¬FileTree.maxPathOctets < (scriptRoute root).path.utf8ByteSize
  files : ∀ file ∈ sourceFiles kind, laid.tree.get? (home ++ ["src"] ++ [file.name]) =
    some (.file (Text.Utf8.encode file.text.toList) newFileMode)
  alone : ∀ name, (∀ file ∈ sourceFiles kind, file.name ≠ name) →
    laid.tree.get? (home ++ ["src"] ++ [name]) = none
  sideFree : laid.tree.get? (home ++ [SideFile.fileName]) = none
  spares : Spares bench laid log (home ++ ["src"] ++ [scriptName])

section Creation

variable {metadata : Metadata} {bench start : Bench} {value : String} {root : Route}

theorem spares_of_grew {bench after : Bench} (grew : Grew bench after) (log script : Place) :
    Spares bench after log script :=
  ⟨grew.surroundings, fun there _ _ => grew.stays there⟩

/-- A creation that succeeds lays out the project and saves its side file. -/
theorem laid_of_createProject (closed : bench.tree.Closed)
    (here : bench.tree.get? bench.surroundings.place = some .folder) (rooted : metadata.root = root.path)
    (ends : outcome (createProject metadata) bench = (.ok value, start)) :
    metadata.kind ≠ .unknown ∧ ∃ home log laid saved, Laid metadata.kind bench laid root home log ∧
      outcome (SideFile.save (SideFile.initial metadata) root.path) laid = (.ok saved, start) := by
  obtain ⟨known, absent, message, announced, founded, laidOut, laid, saved, announces, founds, roots, lays,
    saves⟩ := stages_of_createProject ends
  rw [rooted] at absent roots saves
  rw [sourceFolder_eq rooted] at founds lays
  have rootScript := isShort_of_writeFile roots
  have rootPath : Path.join root.path scriptName = _ := Route.join_path root isPlain_scriptName
  rw [rootPath] at roots rootScript
  obtain ⟨log, records, stillClosed, passes, logged⟩ := records_of_log closed here announces
  -- the project was not there, and its announcement makes no folder
  have unreached : ∀ place, ¬announced.tree.Reaches root place := by
    intro place reaches
    have before : bench.tree.Reaches root place := FileTree.Way.same reaches passes (by rintro ⟨⟩)
    have short : ¬FileTree.maxPathOctets < root.path.utf8ByteSize := by
      have grows := Route.utf8ByteSize_le_under root isPlain_scriptName
      omega
    rw [exists_of_reaches before short] at absent
    cases absent
  obtain ⟨home, found⟩ := founded_of_makeFolders stillClosed isPlain_src unreached founds
  have houses := records.houses found
  obtain ⟨second, rootChanged, -⟩ := houses.of_writeFile houses.reaches (found.alone scriptName (by decide))
    (houses.apart scriptName).1 roots
  have empty : ∀ name, laidOut.tree.get? (home ++ ["src"] ++ [name]) = none := fun name =>
    (rootChanged.in_source houses (by simp)).trans (found.empty name)
  obtain ⟨third, filesChanged, files⟩ := second.of_forM isPlain_of_mem_sourceFiles nodup_sourceFiles
    (fun file _ => empty file.name) lays
  obtain ⟨script, among, called⟩ := exists_script known
  obtain ⟨-, clean, short⟩ := files script among
  rw [called, Route.join_path _ isPlain_scriptName] at clean short
  refine ⟨known, home, log, laid, saved, ⟨third, ?_, short, fun file member => (files file member).1, ?_, ?_, ?_⟩,
    saves⟩
  · rw [Bool.eq_false_iff, Ne, List.contains_iff_mem, Route.toList_path] at clean
    exact fun member => clean ((Route.prefix_under _ isPlain_scriptName).subset member)
  · intro name other
    rw [filesChanged.in_source second ?_, empty]
    rw [List.mem_map]
    rintro ⟨file, member, same⟩
    exact other file member (spot_inj.1 same)
  · rw [filesChanged.same _ (houses.apart _).1.symm (by simp),
      rootChanged.same _ (houses.apart _).1.symm (by simp; decide)]
    exact found.alone _ (by decide)
  · -- every stage puts things only where nothing was
    have announcing : Spares bench announced log (home ++ ["src"] ++ [scriptName]) := logged.spares (by simp)
    have founding : Spares announced founded log (home ++ ["src"] ++ [scriptName]) := spares_of_grew found.grew log _
    have rooting : Spares founded laidOut log (home ++ ["src"] ++ [scriptName]) := rootChanged.spares (by
      intro place member
      rw [List.mem_singleton.1 member]
      exact Or.inr (found.alone scriptName (by decide)))
    have laying : Spares laidOut laid log (home ++ ["src"] ++ [scriptName]) := filesChanged.spares (by
      intro place member
      obtain ⟨file, -, rfl⟩ := List.mem_map.1 member
      exact Or.inr (empty file.name))
    exact announcing.trans (founding.trans (rooting.trans laying))

theorem stocked_of_createProject (closed : bench.tree.Closed)
    (here : bench.tree.get? bench.surroundings.place = some .folder) (rooted : metadata.root = root.path)
    (ends : outcome (createProject metadata) bench = (.ok value, start)) :
    ∃ home log pair, ∃ script ∈ sourceFiles metadata.kind, script.name = scriptName ∧
      Offers script.text.toList pair ∧ Stocked start root home log pair [] script.text.toList ∧
        Spares bench start log (home ++ ["src"] ++ [scriptName]) := by
  obtain ⟨known, home, log, laid, saved, project, saves⟩ := laid_of_createProject closed here rooted ends
  obtain ⟨last, sideChanged⟩ := project.houses.of_save project.sideFree saves
  have inSource : ∀ name, start.tree.get? (home ++ ["src"] ++ [name]) =
      laid.tree.get? (home ++ ["src"] ++ [name]) := fun name => sideChanged.in_source project.houses (by simp)
  obtain ⟨script, among, called⟩ := exists_script known
  obtain ⟨pair, offers⟩ := exists_offers_of_mem_sourceFiles among called
  have there := project.files script among
  rw [called] at there
  refine ⟨home, log, pair, script, among, called, offers, ⟨last, project.clean, project.short,
    ⟨_, (inSource _).trans there⟩, ⟨?_, offers.ending, by simp⟩, ?_, ?_⟩, ?_⟩
  · rw [← offers.lines]
    simp [Script.MarkerPair.lines]
  · exact (inSource _).trans (project.alone _ fun file member => ne_draftName_of_mem_sourceFiles file member)
  · intro name source taken
    rw [inSource] at taken
    by_cases named : ∃ file ∈ sourceFiles metadata.kind, file.name = name
    · obtain ⟨file, member, rfl⟩ := named
      exact ⟨isBare_of_mem_sourceFiles file member, isListed_of_mem_sourceFiles among called member source⟩
    · refine absurd (project.alone name fun file member same => named ⟨file, member, same⟩) taken
  · have saving : Spares laid start log (home ++ ["src"] ++ [scriptName]) := sideChanged.spares (by
      intro place member
      rw [List.mem_singleton.1 member]
      exact Or.inr project.sideFree)
    exact project.spares.trans saving

end Creation

end JuceWorkbench.Scaffold
