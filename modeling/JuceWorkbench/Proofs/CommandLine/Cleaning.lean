import JuceWorkbench.Proofs.CommandLine.Validation
import JuceWorkbench.Proofs.SideFile.Metadata
import JuceWorkbench.Proofs.SideFile.Upkeep

/-! Cleaning a project. However it ends, nothing was touched but the folder of the build with what is
in it, the compile database, and the log. Once it has ended well there is nothing left to clean, and
cleaning again only logs that; it is refused only if the first cleaning took away the link that was
the side file, and the folder has no name that could stand in for the one given there. -/

namespace JuceWorkbench.CommandLine
open Project SideFile Work

def buildPath (root : String) : String := Path.join root "jucebuilder_build"

def databasePath (root : String) : String := Path.join root Build.databaseName

/-- What cleaning may remove: a folder of the build that is no link, with all that is in it, and the
compile database, which may be a link. -/
inductive IsOutput (bench : Bench) (root : String) (spot : Place) : Prop
  | folder {place : Place} (finds : bench.Finds (buildPath root) (.taken place .folder)) (inside : place <+: spot)
  | database {location : FileTree.Location} (finds : bench.Finds (databasePath root) location)
      (there : location.place = spot)

/-! How a cleaning ends. -/

section Ending

variable {read : Reader} {bench after : Bench} {words : List String} {folder path : String}
  {command : Command}

theorem neverExits_of_unchanged {α : Type} {work : Work α} {value : Bench → α}
    (ends : ∀ bench, outcome work bench = (.ok (value bench), bench)) : NeverExits work := by
  intro bench status
  rw [ends]
  rintro ⟨⟩

theorem neverExits_ofExcept {α : Type} (result : Except Fault α) : NeverExits (ofExcept result) := by
  cases result with
  | ok value => exact NeverExits.pure value
  | error fault => rintro bench status ⟨⟩

theorem neverExits_load (folder : String) : NeverExits (load folder) := by
  intro bench status
  rcases answers_or_fails bench folder with answers | fails
  · obtain ⟨entries, after, ends⟩ := answers.ends
    rw [ends]
    rintro ⟨⟩
  · obtain ⟨fault, after, stops, -⟩ := fails.stops
    rw [stops]
    rintro ⟨⟩

theorem neverExits_loadMetadata (folder : String) (given : Option Datum) :
    NeverExits (loadMetadata folder given) :=
  NeverExits.bind (neverExits_of_unchanged (outcome_absolute folder)) fun root =>
    NeverExits.bind (neverExits_load root) fun _ =>
      NeverExits.bind (neverExits_of_unchanged outcome_here) fun _ => neverExits_ofExcept _

theorem neverExits_removeFile (path : String) : NeverExits (removeFile path) := by
  intro bench status
  rcases removeFile_cases path bench with ⟨place, node, -, -, ends⟩ | ⟨fault, stops⟩
  · rw [ends]
    rintro ⟨⟩
  · rw [stops]
    rintro ⟨⟩

theorem neverExits_removeFolder (path : String) : NeverExits (removeFolder path) := by
  intro bench status
  rcases outcome_locate_unfollowed path bench with ⟨location, finds, ends⟩ | ⟨fault, stops⟩
  · match location, ends with
    | .taken folder .folder, ends =>
      rw [outcome_removeFolder ends]
      refine NeverExits.forM (fun step => ?_) bench status
      cases step with
      | enter place =>
        unfold removalStep
        dsimp only
        split
        · rintro bench status ⟨⟩
        · exact NeverExits.pure ()
      | erase place => rintro bench status ⟨⟩
    | .free _, ends | .taken _ (.link _), ends | .taken _ (.file _ _), ends =>
      unfold removeFolder
      rw [outcome_bind_ok ends]
      rintro ⟨⟩
  · unfold removeFolder
    rw [outcome_bind_error stops]
    rintro ⟨⟩

theorem neverExits_dropDatabase (metadata : Metadata) (removed : Nat) :
    NeverExits (dropDatabase metadata removed) := by
  have reports : ∀ count : Nat, NeverExits
      (if 0 < count then Work.success ("Cleaning complete. Removed " ++ toString count ++ " items.")
        else Work.info "Project is already clean.") := by
    intro count
    obtain ⟨message, same⟩ := exists_report count
    rw [same]
    exact neverExits_log message
  refine NeverExits.bind (neverExits_of_unchanged fun _ => rfl) fun found => ?_
  dsimp only
  split
  · exact NeverExits.bind (neverExits_removeFile _) fun _ => NeverExits.bind (neverExits_log _) fun _ => reports _
  · exact reports _

theorem neverExits_clean (folder : String) : NeverExits (clean folder) := by
  rw [clean_eq]
  refine NeverExits.bind (neverExits_loadMetadata folder none) fun metadata => ?_
  refine NeverExits.bind (neverExits_log _) fun _ => ?_
  refine NeverExits.bind (neverExits_of_unchanged fun _ => rfl) fun found => ?_
  dsimp only
  split
  · exact NeverExits.bind (neverExits_log _) fun _ => NeverExits.bind (neverExits_removeFolder _) fun _ =>
      NeverExits.bind (neverExits_log _) fun _ => neverExits_dropDatabase _ _
  · exact neverExits_dropDatabase _ _

theorem outcome_status_of_ok (reads : read words = .ok (folder, .clean))
    (ends : outcome (clean folder) bench = (.ok (), after)) :
    outcome (read.status words) bench = (.ok 0, after) := by
  have done : outcome (read.execute words) bench = (.ok (), after) := by
    rw [outcome_execute reads]
    unfold perform guarded lastResort
    rw [outcome_tryCatch, outcome_tryCatch, ends]
  unfold Reader.status
  rw [outcome_tryCatch, outcome_bind_ok done]
  rfl

theorem exitCode_clean_iff (reads : read words = .ok (folder, .clean)) :
    exitCode (outcome (read.status words) bench).1 = 0 ↔
      ∃ after, outcome (clean folder) bench = (.ok (), after) := by
  constructor
  · intro zero
    rcases ends : outcome (clean folder) bench with ⟨(fault | code) | ⟨⟨⟩⟩, after⟩
    · have fails : IsFailure (outcome (read.execute words) bench).1 := by
        rw [outcome_execute reads]
        refine isFailure_lastResort ?_
        unfold perform
        rw [outcome_guarded_of_fault ends]
        exact fails_handle fault after
      rw [(exitCode_of_isFailure fails).1] at zero
      cases zero
    · exact absurd (congrArg Prod.fst ends) (neverExits_clean folder bench code)
    · exact ⟨after, rfl⟩
  · rintro ⟨after, ends⟩
    rw [outcome_status_of_ok reads ends]
    rfl

end Ending

/-! What a cleaning touches, however it ends. -/

section Touched

variable {read : Reader} {bench later after : Bench} {words : List String} {root folder : String}

/-- The places that cleaning the project in the folder `root` may change: its output and the log. -/
def MayTouch (bench : Bench) (root : String) (spot : Place) : Prop :=
  IsOutput bench root spot ∨ ∃ location,
    Opens bench.tree bench.surroundings bench.surroundings.logFile location ∧ location.place = spot

abbrev OnlyCleaned (bench : Bench) (root : String) (later : Bench) : Prop :=
  OnlyTouched bench (MayTouch bench root) later

theorem kept_status {kept : Bench → Prop} (logs : ∀ message, Keeps kept (Work.log message))
    (reads : read words = .ok (folder, .clean))
    (holds : kept (outcome (clean folder) bench).2) : kept (outcome (read.status words) bench).2 := by
  have executed : kept (outcome (read.execute words) bench).2 := by
    rw [outcome_execute reads]
    exact kept_lastResort logs (kept_guarded logs holds)
  refine kept_tryCatch ?_ (kept_bind (fun _ => Keeps.pure 0) executed)
  intro stop
  cases stop with
  | fault fault => exact Yields.fail fault
  | exit code => exact Keeps.pure code

theorem keeps_log_cleaned (bench : Bench) (root : String) (message : Message) :
    Keeps (OnlyCleaned bench root) (Work.log message) :=
  Keeps.log (fun only logged => only.log logged fun location opens => Or.inr ⟨location, opens, rfl⟩) message

theorem keeps_removeBuild_cleaned (bench : Bench) (root : String) :
    Keeps (OnlyCleaned bench root) (removeFolder (buildPath root)) := by
  refine Keeps.removeFolder _ fun only finds later place again inside => again.erase (Or.inl ?_)
  exact .folder (only.locate finds (by rintro ⟨⟩)) inside

theorem keeps_removeDatabase_cleaned (bench : Bench) (root : String) :
    Keeps (OnlyCleaned bench root) (removeFile (databasePath root)) := by
  refine Keeps.removeFile _ fun later place node only finds other => only.erase ?_
  by_cases may : MayTouch bench root place
  · exact may
  · exact Or.inl (.database (only.locate finds fun _ => may) rfl)

theorem onlyCleaned_status (rooted : Path.isAbsolute bench.surroundings.here = true)
    (reads : read words = .ok (folder, .clean)) :
    OnlyCleaned bench (Path.absolute bench.surroundings.here folder) (outcome (read.status words) bench).2 := by
  have logs := keeps_log_cleaned bench (Path.absolute bench.surroundings.here folder)
  have keeps : Keeps (OnlyCleaned bench (Path.absolute bench.surroundings.here folder)) (clean folder) :=
    keeps_clean_of logs (yields_root logs OnlyTouched.surroundings rooted folder)
      (keeps_removeBuild_cleaned bench _) (keeps_removeDatabase_cleaned bench _)
  exact kept_status logs reads (keeps bench (.refl ..)).1

end Touched

/-! A project that is clean. Cleaning it again only logs. -/

/-- There is nothing to clean, and that can be logged without making something to clean. -/
structure IsClean (bench : Bench) (root : String) : Prop where
  records : bench.CanRecord
  folder : bench.tree.isFolder bench.surroundings.place (buildPath root) = false
  database : bench.tree.isFile bench.surroundings.place (databasePath root) = false
  beside : bench.LogsBeside (databasePath root)

section Clean

variable {bench mid after : Bench} {root folder path : String} {entries : Entries} {metadata : Metadata}

theorem not_isFolder_of_passes (gone : bench.tree.isFolder bench.surroundings.place path = false)
    (passes : FileTree.Passes after.tree bench.tree) (same : after.surroundings = bench.surroundings) :
    after.tree.isFolder after.surroundings.place path = false := by
  rw [same, Bool.eq_false_iff]
  exact fun is => Bool.eq_false_iff.1 gone (FileTree.isFolder_of_passes passes is)

theorem IsClean.logged (isClean : IsClean bench root) (logged : Logged bench after) : IsClean after root := by
  obtain ⟨beside, shows⟩ := isClean.beside.log logged
  refine ⟨logged.canRecord isClean.records, ?_, ?_, beside⟩
  · exact not_isFolder_of_passes isClean.folder logged.passes logged.surroundings
  · rw [Bool.eq_false_iff]
    intro is
    obtain ⟨place, contents, mode, leads⟩ := FileTree.isFile_iff.1 is
    exact Bool.eq_false_iff.1 isClean.database (FileTree.isFile_iff.2 ⟨_, _, _, shows.taken leads⟩)

theorem IsClean.keeps (rooted : Path.isAbsolute bench.surroundings.here = true)
    (isClean : IsClean bench (Path.absolute bench.surroundings.here folder)) :
    Keeps (Logged bench) (clean folder) := by
  have logs : ∀ message, Keeps (Logged bench) (Work.log message) := Keeps.log .trans
  have lacksFolder : Yields (Logged bench)
      (isFolder (buildPath (Path.absolute bench.surroundings.here folder))) (· = false) := by
    intro later logged
    rw [outcome_isFolder, (isClean.logged logged).folder]
    exact ⟨logged, fun found same => (Except.ok.inj same).symm⟩
  have lacksFile : Yields (Logged bench)
      (isFile (databasePath (Path.absolute bench.surroundings.here folder))) (· = false) := by
    intro later logged
    rw [outcome_isFile, (isClean.logged logged).database]
    exact ⟨logged, fun found same => (Except.ok.inj same).symm⟩
  rw [clean_eq]
  refine Yields.bind (yields_root logs Logged.surroundings rooted folder) fun metadata root => ?_
  refine Keeps.bind (logs _) fun _ => ?_
  rw [← root] at lacksFolder lacksFile
  refine Yields.bind lacksFolder fun found none => ?_
  obtain rfl : found = false := none
  refine Yields.bind lacksFile fun found none => ?_
  obtain rfl : found = false := none
  exact logs _

theorem IsClean.ends (rooted : Path.isAbsolute bench.surroundings.here = true)
    (isClean : IsClean bench (Path.absolute bench.surroundings.here folder))
    (loads : outcome (loadMetadata folder none) bench = (.ok metadata, mid)) :
    ∃ last, outcome (clean folder) bench = (.ok (), last) := by
  obtain ⟨logged, entries, -, made⟩ := exists_load loads
  have still := isClean.logged logged
  rw [← root_of_metadata rooted made] at still
  obtain ⟨told, tells, more⟩ : ∃ told, outcome (Work.info "Cleaning build artifacts...") mid =
      (.ok (), told) ∧ Logged mid told := log_of_canRecord still.records _
  obtain ⟨last, done, -⟩ : ∃ last, outcome (Work.info "Project is already clean.") told =
      (.ok (), last) ∧ Logged told last := log_of_canRecord (still.logged more).records _
  have noFolder : outcome (isFolder metadata.buildFolder) told = (.ok false, told) := by
    rw [outcome_isFolder, show metadata.buildFolder = buildPath metadata.root from rfl,
      (still.logged more).folder]
  have noFile : outcome (isFile (Path.join metadata.root Build.databaseName)) told = (.ok false, told) := by
    rw [outcome_isFile, show Path.join metadata.root Build.databaseName = databasePath metadata.root from rfl,
      (still.logged more).database]
  refine ⟨last, ?_⟩
  rw [clean_eq, outcome_bind_ok loads, outcome_bind_ok tells, outcome_bind_ok noFolder]
  exact (outcome_bind_ok noFile _).trans done

end Clean

/-! A project that was cleaned. -/

/-- The log is written elsewhere than the side file and the compile database. -/
structure LogsApart (bench : Bench) (root : String) : Prop where
  absolute : Path.isAbsolute bench.surroundings.logFolder = true
  sideFile : bench.LogsBeside (SideFile.path root)
  database : bench.LogsBeside (databasePath root)

/-- In the course of a cleaning the side file can get lost, but no other takes its place. -/
structure Follows (bench : Bench) (root : String) (later : Bench) : Prop where
  shows : Shows (SideFile.path root) bench later
  apart : LogsApart later root

section Cleaned

variable {bench later last : Bench} {root : String} {metadata : Metadata}

theorem Follows.log (follows : Follows bench root later) (logged : Logged later last) :
    Follows bench root last := by
  obtain ⟨sideFile, shows⟩ := follows.apart.sideFile.log logged
  refine ⟨follows.shows.trans shows, ?_, sideFile, (follows.apart.database.log logged).1⟩
  rw [logged.surroundings]
  exact follows.apart.absolute

theorem Follows.emptied (follows : Follows bench root later) (rooted : Path.isAbsolute root = true)
    (ends : outcome (removeFolder (buildPath root)) later = (.ok (), last)) :
    Follows bench root last ∧ last.tree.isFolder last.surroundings.place (buildPath root) = false := by
  obtain ⟨folder, finds, emptied⟩ := removeFolder_ok ends
  have plain : Path.IsPlain "jucebuilder_build".toList := isPlain_others _ (by decide)
  have named := FileTree.getLast?_pathParts_join root plain
  obtain ⟨filled, stood⟩ := finds.stands named plain
  have logs : Path.isAbsolute later.surroundings.logFile = true := Path.isAbsolute_join follows.apart.absolute _
  have sideFile : Path.isAbsolute (SideFile.path root) = true := Path.isAbsolute_join rooted _
  have database : Path.isAbsolute (databasePath root) = true := Path.isAbsolute_join rooted _
  refine ⟨⟨follows.shows.trans (emptied.shows filled sideFile), ?_,
    emptied.beside filled sideFile stood logs follows.apart.sideFile,
    emptied.beside filled database stood logs follows.apart.database⟩, emptied.isFolder finds named plain⟩
  rw [emptied.surroundings]
  exact follows.apart.absolute

theorem Follows.dropped (follows : Follows bench root later) (records : later.CanRecord)
    (is : later.tree.isFile later.surroundings.place (databasePath root) = true)
    (ends : outcome (removeFile (databasePath root)) later = (.ok (), last)) :
    Follows bench root last ∧ last.surroundings = later.surroundings ∧
      FileTree.Passes last.tree later.tree ∧
      last.tree.isFile last.surroundings.place (databasePath root) = false := by
  obtain ⟨place, contents, mode, leads⟩ := FileTree.isFile_iff.1 is
  rcases removeFile_cases (databasePath root) later with ⟨spot, node, finds, other, done⟩ | ⟨fault, stops⟩
  · obtain rfl : last = later.onTree (·.erase spot) := (Prod.mk.inj (ends.symm.trans done)).2
    have apart := follows.apart
    -- the log is not what the path of the database leads to, so it stays where it was
    refine ⟨⟨follows.shows.trans (.erase ..), apart.absolute,
      apart.sideFile.erase apart.database records finds other leads,
      apart.database.erase apart.database records finds other leads⟩, rfl, .of_erase fun _ _ => rfl, ?_⟩
    rw [Bool.eq_false_iff]
    intro again
    obtain ⟨place, contents, mode, led⟩ := FileTree.isFile_iff.1 again
    cases led.symm.trans (FileTree.locate_erase_found finds leads other)
  · cases ends.symm.trans stops

theorem Follows.finished (follows : Follows bench root later) (records : later.CanRecord)
    (folder : later.tree.isFolder later.surroundings.place (buildPath root) = false)
    (same : metadata.root = root) {removed : Nat}
    (ends : outcome (dropDatabase metadata removed) later = (.ok (), last)) :
    IsClean last root ∧ Shows (SideFile.path root) bench last := by
  have reports : ∀ (count : Nat) {mid : Bench}, outcome
      (if 0 < count then Work.success ("Cleaning complete. Removed " ++ toString count ++ " items.")
        else Work.info "Project is already clean.") mid = (.ok (), last) → Logged mid last := by
    intro count mid ends
    obtain ⟨message, same⟩ := exists_report count
    rw [same] at ends
    exact (logged_of_ok ends).2
  have path : Path.join metadata.root Build.databaseName = databasePath root := by rw [same]; rfl
  unfold dropDatabase at ends
  dsimp only at ends
  rw [path, outcome_bind_ok (outcome_isFile _ later)] at ends
  cases is : later.tree.isFile later.surroundings.place (databasePath root) with
  | false =>
    rw [is] at ends
    have logged : Logged later last := reports _ ends
    have isClean : IsClean later root := ⟨records, folder, is, follows.apart.database⟩
    exact ⟨isClean.logged logged, (follows.log logged).shows⟩
  | true =>
    rw [is, if_pos rfl] at ends
    obtain ⟨⟨⟩, mid, removes, ends⟩ := exists_mid ends
    obtain ⟨⟨⟩, told, tells, ends⟩ := exists_mid ends
    obtain ⟨follows, surroundings, passes, gone⟩ := follows.dropped records is removes
    obtain ⟨records, more⟩ := logged_of_ok tells
    have isClean : IsClean mid root :=
      ⟨records, not_isFolder_of_passes folder passes surroundings, gone, follows.apart.database⟩
    have logged : Logged mid last := more.trans (reports _ ends)
    exact ⟨isClean.logged logged, (follows.log logged).shows⟩

theorem clean_ok {folder : String} (rooted : Path.isAbsolute bench.surroundings.here = true)
    (apart : LogsApart bench (Path.absolute bench.surroundings.here folder))
    (ends : outcome (clean folder) bench = (.ok (), last)) :
    IsClean last (Path.absolute bench.surroundings.here folder) ∧
      Shows (SideFile.path (Path.absolute bench.surroundings.here folder)) bench last ∧
      ∃ metadata mid, outcome (loadMetadata folder none) bench = (.ok metadata, mid) := by
  rw [clean_eq] at ends
  obtain ⟨metadata, loaded, loads, ends⟩ := exists_mid ends
  obtain ⟨⟨⟩, told, tells, ends⟩ := exists_mid ends
  obtain ⟨logged, entries, -, made⟩ := exists_load loads
  obtain ⟨records, more⟩ := logged_of_ok tells
  have root := root_of_metadata rooted made
  have absolute : Path.isAbsolute metadata.root = true := by
    rw [root]
    exact Path.isAbsolute_absolute rooted folder
  rw [← root] at apart ⊢
  have follows : Follows bench metadata.root told :=
    Follows.log (Follows.log ⟨.refl .., apart⟩ logged) more
  have path : metadata.buildFolder = buildPath metadata.root := rfl
  rw [path, outcome_bind_ok (outcome_isFolder _ told)] at ends
  dsimp only at ends
  cases is : told.tree.isFolder told.surroundings.place (buildPath metadata.root) with
  | false =>
    rw [is] at ends
    obtain ⟨isClean, shows⟩ := follows.finished (more.canRecord records) is rfl ends
    exact ⟨isClean, shows, metadata, loaded, loads⟩
  | true =>
    rw [is, if_pos rfl] at ends
    obtain ⟨⟨⟩, begun, begins, ends⟩ := exists_mid ends
    obtain ⟨⟨⟩, emptied, empties, ends⟩ := exists_mid ends
    obtain ⟨⟨⟩, said, reports, ends⟩ := exists_mid ends
    obtain ⟨follows, gone⟩ := (follows.log (logged_of_ok begins).2).emptied absolute empties
    -- a log that was in the folder is gone, and then this message could not be recorded
    obtain ⟨records, logged⟩ := logged_of_ok reports
    have still := not_isFolder_of_passes gone logged.passes logged.surroundings
    obtain ⟨isClean, shows⟩ := (follows.log logged).finished (logged.canRecord records) still rfl ends
    exact ⟨isClean, shows, metadata, loaded, loads⟩

end Cleaned

/-! The command. -/

def Reader.after (read : Reader) (words : List String) (bench : Bench) : Bench :=
  (outcome (read.status words) bench).2

def Reader.Succeeds (read : Reader) (words : List String) (bench : Bench) : Prop :=
  exitCode (outcome (read.status words) bench).1 = 0

instance (read : Reader) (words : List String) (bench : Bench) : Decidable (read.Succeeds words bench) :=
  inferInstanceAs (Decidable (exitCode (outcome (read.status words) bench).1 = 0))

def builtBench : Bench where
  tree := ⟨[([], .folder), (["W"], .folder), (["W", "jucebuilder_build"], .folder),
    (["W", "jucebuilder_build", "out"], .folder), (["W", "jucebuilder_build", "out", "up"], .link "/W"),
    (["W", "compile_commands.json"], .link "kept.json"),
    (["W", "kept.json"], .file [91, 93] newFileMode), (["L"], .folder)], by simp⟩
  surroundings := {}

theorem logFile_builtBench : builtBench.tree.locate true builtBench.surroundings.place
    builtBench.surroundings.logFile = .ok (.free ["L", logName]) :=
  toOption_eq_some_iff.1 (by decide +kernel)

theorem logsApart_builtBench : LogsApart builtBench "/W" where
  absolute := by decide
  sideFile := by
    have led : builtBench.tree.locate true builtBench.surroundings.place (SideFile.path "/W") =
        .ok (.free ["W", "jucebuilder.toml"]) := toOption_eq_some_iff.1 (by decide +kernel)
    exact .of_leads logFile_builtBench led (by decide)
  database := by
    have led : builtBench.tree.locate true builtBench.surroundings.place (databasePath "/W") =
        .ok (.taken ["W", "kept.json"] (.file [91, 93] newFileMode)) :=
      toOption_eq_some_iff.1 (by decide +kernel)
    exact .of_leads logFile_builtBench led (by decide)

theorem not_mayTouch_builtBench : ¬MayTouch builtBench "/W" ["W", "kept.json"] := by
  have folder : builtBench.Finds (buildPath "/W") (.taken ["W", "jucebuilder_build"] .folder) :=
    toOption_eq_some_iff.1 (by decide +kernel)
  have database : builtBench.Finds (databasePath "/W")
      (.taken ["W", "compile_commands.json"] (.link "kept.json")) :=
    toOption_eq_some_iff.1 (by decide +kernel)
  rintro ((⟨finds, inside⟩ | ⟨finds, there⟩) | ⟨location, opens, there⟩)
  · cases folder.symm.trans finds
    revert inside
    decide
  · cases database.symm.trans finds
    revert there
    decide
  · cases logFile_builtBench.symm.trans opens.leads
    revert there
    decide

def namelessBench : Bench where
  tree := ⟨[([], .folder), (["W"], .folder), (["W", " "], .folder),
    (["W", " ", "jucebuilder.toml"], .link "compile_commands.json"),
    (["W", " ", "compile_commands.json"], .file (Text.Utf8.encode namedText.toList) newFileMode),
    (["L"], .folder)], by simp⟩
  surroundings := {}

theorem logsApart_namelessBench : LogsApart namelessBench "/W/ " := by
  have log : namelessBench.tree.locate true namelessBench.surroundings.place
      namelessBench.surroundings.logFile = .ok (.free ["L", logName]) :=
    toOption_eq_some_iff.1 (by decide +kernel)
  have stored (path : String) (same : (namelessBench.tree.locate true namelessBench.surroundings.place
      path).toOption = some (.taken ["W", " ", "compile_commands.json"]
        (.file (Text.Utf8.encode namedText.toList) newFileMode))) : namelessBench.LogsBeside path :=
    .of_leads log (toOption_eq_some_iff.1 same) (by decide)
  exact ⟨by decide, stored _ (by decide +kernel), stored _ (by decide +kernel)⟩

end JuceWorkbench.CommandLine
