import JuceWorkbench.CommandLine.Run
import JuceWorkbench.Proofs.Artifact.PathText
import JuceWorkbench.Proofs.Build.Keeping
import JuceWorkbench.Proofs.Scaffold.Refusal
import JuceWorkbench.Proofs.SideFile.Home

/-! What the commands of a project leave alone. Building, launching, adding and cleaning work in the
folders below the project and on files of other names, so a side file keeps its home. -/

namespace JuceWorkbench.SideFile
open Work Project

theorem isPlain_others : ∀ name ∈ otherNames, Path.IsPlain name.toList := by
  have each : ∀ name ∈ otherNames, ¬(name.toList = [] ∨ name.toList = ['.']) ∧
      name.toList ≠ ['.', '.'] ∧ '/' ∉ name.toList := by decide
  intro name among
  obtain ⟨filled, stays, apart⟩ := each name among
  exact ⟨filled, stays, apart⟩

theorem Home.isOther_join {home : Home} {name : String} (among : name ∈ otherNames) (folder : String) :
    home.IsOther (Path.join folder name) :=
  isOther_of_name among (FileTree.getLast?_pathParts_join folder (isPlain_others name among))

theorem draftPath_scriptPath (metadata : Metadata) : Script.draftPath (Scaffold.scriptPath metadata) =
    Path.join metadata.sourceFolder (Script.draftPath Scaffold.scriptName) := by
  unfold Scaffold.scriptPath Script.draftPath Path.join
  rw [if_neg (show ¬Path.isAbsolute Scaffold.scriptName = true by decide),
    if_neg (show ¬Path.isAbsolute (Scaffold.scriptName ++ ".tmp") = true by decide)]
  split
  · exact String.append_assoc
  · exact String.append_assoc

def dropDatabase (metadata : Metadata) (removed : Nat) : Work Unit := do
  let database := Path.join metadata.root Build.databaseName
  let hasDatabase ← Work.isFile database
  if hasDatabase then
    Work.removeFile database
    Work.success ("Removed file " ++ database)
  let count := removed + (if hasDatabase then 1 else 0)
  if 0 < count then
    Work.success ("Cleaning complete. Removed " ++ toString count ++ " items.")
  else Work.info "Project is already clean."

theorem clean_eq (folder : String) : CommandLine.clean folder = (do
    let metadata ← loadMetadata folder none
    Work.info "Cleaning build artifacts..."
    let hasFolder ← Work.isFolder metadata.buildFolder
    if hasFolder then
      Work.info ("Attempting to remove directory " ++ metadata.buildFolder ++ "...")
      Work.removeFolder metadata.buildFolder
      Work.success ("Removed directory " ++ metadata.buildFolder)
    dropDatabase metadata (if hasFolder then 1 else 0)) := rfl

theorem exists_report (count : Nat) : ∃ message,
    (if 0 < count then Work.success ("Cleaning complete. Removed " ++ toString count ++ " items.")
      else Work.info "Project is already clean.") = Work.log message := by
  split
  · exact ⟨_, rfl⟩
  · exact ⟨_, rfl⟩

/-- What every message keeps, and the removals keep, is kept by cleaning the project in the folder `root`. -/
theorem keeps_clean_of {kept : Bench → Prop} (logs : ∀ message, Keeps kept (Work.log message))
    {folder root : String} (loads : Yields kept (loadMetadata folder none) fun metadata => metadata.root = root)
    (removesBuild : Keeps kept (removeFolder (Path.join root "jucebuilder_build")))
    (removesDatabase : Keeps kept (removeFile (Path.join root Build.databaseName))) :
    Keeps kept (CommandLine.clean folder) := by
  have reports : ∀ count : Nat, Keeps kept
      (if 0 < count then Work.success ("Cleaning complete. Removed " ++ toString count ++ " items.")
        else Work.info "Project is already clean.") := by
    intro count
    obtain ⟨message, same⟩ := exists_report count
    rw [same]
    exact logs message
  rw [clean_eq]
  refine Yields.bind loads fun metadata same => ?_
  subst same
  have drops (removed : Nat) : Keeps kept (dropDatabase metadata removed) := by
    refine Keeps.bind (.of_unchanged fun _ => rfl) fun found => ?_
    dsimp only
    split
    · exact Keeps.bind removesDatabase fun _ => Keeps.bind (logs _) fun _ => reports _
    · exact reports _
  refine Keeps.bind (logs _) fun _ => Keeps.bind (keeps_isFolder _) fun found => ?_
  dsimp only
  split
  · exact Keeps.bind (logs _) fun _ => Keeps.bind removesBuild fun _ => Keeps.bind (logs _) fun _ => drops _
  · exact drops _

theorem Home.exists_root (home : Home) : ∃ route : Path.Route, home.root = route.path := by
  obtain ⟨route, same⟩ := (Path.isNormal_absolute home.rooted home.folder).exists_route
  exact ⟨route, same.symm⟩

namespace Home.Holds

variable {home : Home} {location : FileTree.Location} {bench : Bench} {metadata : Metadata} {name : String}

theorem locate_root (holds : home.Holds location bench) :
    bench.tree.locate true bench.surroundings.place home.root = .ok (.taken home.base .folder) := by
  rw [holds.surroundings]
  exact holds.based.folder

theorem place_of_finds (holds : home.Holds location bench) (plain : Path.IsPlain name.toList)
    {other : FileTree.Location} (finds : bench.Finds (Path.join home.root name) other) :
    other.place = home.base ++ [name] := by
  obtain ⟨route, root⟩ := home.exists_root
  rw [root, route.join_path plain] at finds
  obtain ⟨-, way⟩ := short_of_locate finds
  obtain ⟨-, folder, reaches, ends⟩ := way.unstep rfl (Path.isPart_of_isPlain plain)
  have based := holds.locate_root
  rw [root] at based
  have same : folder = home.base := FileTree.Reaches.unique reaches (short_of_locate based).2
  rcases ends with ⟨place, -⟩ | ⟨follow, -⟩
  · rw [place, same]
  · cases follow

theorem keeps_makeFolders (among : name ∈ otherNames) :
    Keeps (home.Holds location) (makeFolders (Path.join home.root name) true) := by
  obtain ⟨route, root⟩ := home.exists_root
  have plain := isPlain_others name among
  intro bench holds
  have there : bench.tree.exists? bench.surroundings.place route.path = true := by
    unfold FileTree.exists? FileTree.node?
    rw [← root, holds.locate_root]
    rfl
  have path : Path.join home.root name = (route.under name plain).path := by
    rw [root, route.join_path plain]
  rw [path, outcome_makeFolders_of_exists there plain true, ← path]
  exact keeps_makeFolderUnless (fun reason => .of_unchanged fun _ => rfl)
    (keeps_makeFolder (isOther_join among home.root)) bench holds

/-! The build and the launch. -/

theorem keeps_copyDatabase (metadata : Metadata) : Keeps (home.Holds location)
    (copyFile (Path.join metadata.buildFolder Build.databaseName)
      (Path.join metadata.root Build.databaseName)) := by
  have named : Path.baseName (Path.join metadata.buildFolder Build.databaseName) = Build.databaseName :=
    Path.baseName_join _ (isPlain_others _ (by decide))
  refine Keeps.copyFile _ _ fun holds path among opens contents mode => ?_
  refine holds.write_other ?_ opens contents mode
  rcases List.mem_cons.1 among with rfl | again
  · exact isOther_join (by decide) _
  · rw [List.mem_singleton.1 again, named]
    exact isOther_join (by decide) _

theorem keeps_build {metadata : Metadata} (root : metadata.root = home.root) (platform : Platform) :
    Keeps (home.Holds location) (Build.build metadata platform) := by
  have folder : metadata.buildFolder = Path.join home.root "jucebuilder_build" := by
    rw [← root]
    rfl
  rw [Build.build_eq]
  refine Keeps.bind (keeps_log _) fun _ => ?_
  exact Build.keeps_steps keeps_log keeps_runCommand (folder ▸ keeps_makeFolders (by decide))
    (keeps_copyDatabase metadata) platform

theorem keeps_run {metadata : Metadata} (root : metadata.root = home.root) (platform : Platform) :
    Keeps (home.Holds location) (Build.run metadata platform) := by
  rw [Build.run_eq]
  exact Keeps.bind (keeps_build root platform) fun _ =>
    Build.keeps_launchFound keeps_log keeps_runCommand metadata platform

/-! Adding and cleaning. -/

theorem keeps_addElement (root : metadata.root = home.root) (type name : String) (headerOnly : Bool) :
    Keeps (home.Holds location) (Scaffold.addElement metadata type name headerOnly) := by
  have folder : metadata.sourceFolder = Path.join home.root "src" := by
    rw [← root]
    rfl
  have survives : Script.Survives (home.Holds location) (Scaffold.scriptPath metadata) :=
    survives (FileTree.getLast?_pathParts_join _ (isPlain_others _ (by decide))) (by
      rw [draftPath_scriptPath]
      exact FileTree.getLast?_pathParts_join _ (isPlain_others _ (by decide)))
  intro bench holds
  cases known : Scaffold.Element.ofWord? type with
  | none =>
    rw [Scaffold.outcome_addElement_of_unknown known]
    exact ⟨holds, fun _ _ => trivial⟩
  | some element =>
    have header : home.IsOther (Scaffold.headerPath metadata element name) :=
      isOther_of_ending (show ".h" ∈ otherEndings by decide) _ _
    have source : home.IsOther (Scaffold.sourcePath metadata element name) :=
      isOther_of_ending (show ".cpp" ∈ otherEndings by decide) _ _
    rw [Scaffold.outcome_addElement_of_known known]
    split
    · exact ⟨holds, fun _ _ => trivial⟩
    · refine (?_ : Keeps (home.Holds location)
        (Scaffold.layElement metadata element type name headerOnly)) bench holds
      refine Keeps.bind ?_ fun _ => ?_
      · rw [folder]
        exact keeps_makeFolders (by decide)
      · exact Keeps.bind (Scaffold.keeps_writeFile keeps_log (keeps_writeOctets header) _) fun _ =>
          Scaffold.keeps_finishElement survives (keeps_writeOctets source)

theorem keeps_removeBuild :
    Keeps (home.Holds location) (removeFolder (Path.join home.root "jucebuilder_build")) := by
  refine Keeps.removeFolder _ ?_
  intro bench place holds finds later below still inside
  obtain rfl : place = home.base ++ ["jucebuilder_build"] :=
    holds.place_of_finds (isPlain_others _ (by decide)) finds
  exact still.erase fun among => home.apart below among inside

theorem keeps_removeDatabase :
    Keeps (home.Holds location) (removeFile (Path.join home.root Build.databaseName)) := by
  refine Keeps.removeFile _ fun bench place node holds finds single => holds.erase ?_
  exact holds.off_of_replaced (by decide) finds
    (FileTree.getLast?_pathParts_join _ (isPlain_others _ (by decide)))
    fun folder => single (Option.some.inj folder)

end Home.Holds

end JuceWorkbench.SideFile
