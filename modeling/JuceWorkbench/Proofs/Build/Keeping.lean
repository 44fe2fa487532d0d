import JuceWorkbench.Proofs.Bench.Command
import JuceWorkbench.Proofs.Build.Pipeline

/-! What building and running a project keeps. As long as the commands only create files, everything in
the tree stays where it is, and with it the log: such a run is never stopped at a message, it ends in one
of the ways a run can end (`ends_of_creates`). -/

namespace JuceWorkbench

namespace FileTree

/-- What stands in a tree stands in another one, though its files may hold something else there. -/
structure Grows (tree other : FileTree) : Prop extends Passes tree other where
  file : ∀ {place : Place} {contents : List UInt8} {mode : Nat},
    tree.get? place = some (.file contents mode) → ∃ written bits, other.get? place = some (.file written bits)

def Creates (tree : FileTree) (change : Place × Option Node) : Prop :=
  tree.TakesFile change.1 ∧ ∃ contents mode, change.2 = some (.file contents mode)

variable {tree other : FileTree} {place : Place}

theorem Grows.refl (tree : FileTree) : Grows tree tree := ⟨⟨id, id⟩, fun there => ⟨_, _, there⟩⟩

theorem Grows.isSome (grows : Grows tree other) (taken : (tree.get? place).isSome = true) :
    (other.get? place).isSome = true := by
  obtain ⟨node, there⟩ := Option.isSome_iff_exists.1 taken
  cases node with
  | folder => exact Option.isSome_of_eq_some (grows.folder there)
  | link target => exact Option.isSome_of_eq_some (grows.link there)
  | file contents mode =>
    obtain ⟨written, bits, later⟩ := grows.file there
    exact Option.isSome_of_eq_some later

theorem Grows.takesFile (grows : Grows tree other) (takes : other.TakesFile place) :
    tree.TakesFile place := by
  intro node there
  cases node with
  | file contents mode => exact ⟨contents, mode, rfl⟩
  | folder =>
    obtain ⟨contents, mode, same⟩ := takes _ (grows.folder there)
    cases same
  | link target =>
    obtain ⟨contents, mode, same⟩ := takes _ (grows.link there)
    cases same

theorem Grows.put (grows : Grows tree other) (takes : tree.TakesFile place) (contents : List UInt8)
    (mode : Nat) : Grows tree (other.put place (.file contents mode)) := by
  have elsewhere {spot : Place} {node : Node} (there : tree.get? spot = some node)
      (unlike : ∀ contents mode, node ≠ .file contents mode) : spot ≠ place := by
    rintro rfl
    obtain ⟨contents, mode, same⟩ := takes node there
    exact unlike contents mode same
  refine ⟨⟨fun there => ?_, fun there => ?_⟩, fun {spot} _ _ there => ?_⟩
  · rw [get?_put_of_ne other (elsewhere there (by rintro _ _ ⟨⟩)), grows.folder there]
  · rw [get?_put_of_ne other (elsewhere there (by rintro _ _ ⟨⟩)), grows.link there]
  · by_cases same : spot = place
    · exact ⟨contents, mode, same ▸ get?_put_self other place _⟩
    · rw [get?_put_of_ne other same]
      exact grows.file there

theorem Grows.putFree (grows : Grows tree other) (free : other.get? place = none) (node : Node) :
    Grows tree (other.put place node) := by
  have elsewhere {spot : Place} {stood : Node} (there : tree.get? spot = some stood) :
      (other.put place node).get? spot = other.get? spot := by
    refine get?_put_of_ne other ?_ node
    rintro rfl
    have taken := grows.isSome (Option.isSome_of_eq_some there)
    rw [free] at taken
    cases taken
  exact ⟨⟨fun there => (elsewhere there).trans (grows.folder there),
    fun there => (elsewhere there).trans (grows.link there)⟩,
    fun there => elsewhere there ▸ grows.file there⟩

theorem Grows.ensureFolder (grows : Grows tree other) (place : Place) :
    Grows tree (other.ensureFolder place) := by
  unfold FileTree.ensureFolder
  split
  · exact grows
  · rename_i free
    exact grows.putFree (Option.not_isSome_iff_eq_none.1 free) _

theorem Grows.foldl_ensureFolder (grows : Grows tree other) (places : List Place) :
    Grows tree (places.foldl FileTree.ensureFolder other) := by
  induction places generalizing other with
  | nil => exact grows
  | cons place more ih => exact ih (grows.ensureFolder place)

theorem Grows.change (grows : Grows tree other) {change : Place × Option Node}
    (creates : tree.Creates change) : Grows tree (other.change change.1 change.2) := by
  obtain ⟨takes, contents, mode, made⟩ := creates
  rw [made]
  exact (grows.foldl_ensureFolder _).put takes contents mode

end FileTree

/-- Since then the tree has only grown, and no endings were added. -/
structure Grown (bench later : Bench) : Prop where
  surroundings : later.surroundings = bench.surroundings
  endings : later.endings ⊆ bench.endings
  grows : FileTree.Grows bench.tree later.tree

section Grown

variable {bench later after : Bench}

theorem Grown.refl (bench : Bench) : Grown bench bench := ⟨rfl, List.Subset.refl _, .refl _⟩

theorem Grown.write (grown : Grown bench later) {path : String} {location : FileTree.Location}
    (opens : Opens later.tree later.surroundings path location) (contents : List UInt8) (mode : Nat) :
    Grown bench (later.onTree (·.put location.place (.file contents mode))) :=
  ⟨grown.surroundings, grown.endings, grown.grows.put
    (grown.grows.takesFile (FileTree.takesFile_of_locate opens.leads opens.file)) contents mode⟩

theorem Grown.logged (grown : Grown bench later) (logged : Logged later after) (ran : Ran later after []) :
    Grown bench after := by
  have endings : after.endings ⊆ bench.endings := ran.endings ▸ grown.endings
  refine ⟨ran.surroundings.trans grown.surroundings, endings, ?_⟩
  rcases logged.tree with same | ⟨location, contents, mode, opens, written⟩
  · exact same ▸ grown.grows
  · exact written ▸ (grown.write opens contents mode).grows

theorem Grown.canRecord (grown : Grown bench later) (has : bench.HasLog) : later.CanRecord := by
  obtain ⟨place, contents, mode, opens⟩ := has
  obtain ⟨written, bits, there⟩ :=
    grown.grows.file (FileTree.get?_place_of_locate opens.leads (by rintro ⟨⟩))
  obtain ⟨start, goes, way⟩ := FileTree.way_of_locate opens.leads
  unfold Bench.CanRecord
  rw [grown.surroundings]
  exact ⟨_, ⟨opens.named, goes _ _ _ (way.written grown.grows.toPasses rfl there)⟩, opens.writes, rfl⟩

end Grown

namespace Build
open Project Work

/-! The steps of a run, for any property of the bench. -/

section Keeps

variable {kept : Bench → Prop} {metadata : Metadata} (logs : ∀ message, Keeps kept (Work.log message))
  (runs : ∀ words folder streamed, Keeps kept (runCommand words folder streamed))
include logs runs

theorem keeps_steps (makes : Keeps kept (makeFolders metadata.buildFolder true))
    (copies : Keeps kept (copyFile (Path.join metadata.buildFolder databaseName)
      (Path.join metadata.root databaseName))) (platform : Platform) :
    Keeps kept (steps metadata platform) := by
  have step (name : String) (words : List String) : Keeps kept (runStep name words) := by
    refine Keeps.bind (runs words none true) fun finished => ?_
    split
    · exact Yields.fail _
    · exact Keeps.pure ()
  have copy : Keeps kept (copyDatabase metadata) := by
    refine Keeps.bind (keeps_fileExists _) fun found => ?_
    split
    · exact Keeps.bind copies fun _ => logs _
    · exact logs _
  refine Keeps.bind makes fun _ => Keeps.bind (logs _) fun _ => Keeps.bind (step _ _) fun _ =>
    Keeps.bind (logs _) fun _ => Keeps.bind (step _ _) fun _ => ?_
  dsimp only
  split
  · exact Keeps.bind copy fun _ => logs _
  · exact logs _

theorem keeps_launchFound (metadata : Metadata) (platform : Platform) :
    Keeps kept (launchFound metadata platform) := by
  have finds : Keeps kept (findProgram metadata platform) := by
    refine Keeps.bind (logs _) fun _ => Keeps.bind ?_ fun found => ?_
    · intro bench holds
      rw [outcome_resolve]
      exact Yields.ofExcept (fun _ _ => trivial) bench holds
    exact Keeps.bind (Keeps.forM fun _ _ => logs _) fun _ => Keeps.pure _
  refine Keeps.bind (logs _) fun _ => Keeps.bind finds fun _ => Keeps.bind (logs _) fun _ => ?_
  exact Keeps.bind (runs _ _ _) fun _ => Keeps.bind (logs _) fun _ => Keeps.pure _

end Keeps

/-! Commands that only create files. -/

section Creates

variable {metadata : Metadata} {bench : Bench}

theorem keeps_log_grown (message : Message) : Keeps (Grown bench) (Work.log message) := by
  intro later grown
  refine ⟨?_, fun _ _ => trivial⟩
  have ran := startsNone_log message later
  by_cases records : later.CanRecord
  · obtain ⟨after, ends, logged⟩ := log_of_canRecord records message
    rw [ends] at ran ⊢
    exact grown.logged logged ran
  · obtain ⟨fault, after, ends, logged⟩ := log_of_not_canRecord records message
    rw [ends] at ran ⊢
    exact grown.logged logged ran

theorem keeps_makeFolders_grown (path : String) (mayExist : Bool) :
    Keeps (Grown bench) (makeFolders path mayExist) :=
  keeps_makeFolders path mayExist fun folder _ => Keeps.makeFolder folder fun later place grown finds =>
    have free : later.tree.get? place = none := by
      obtain ⟨start, -, way⟩ := FileTree.way_of_locate finds
      exact way.get?_place.resolve_left (by rintro ⟨⟩)
    ⟨grown.surroundings, grown.endings, grown.grows.putFree free _⟩

theorem keeps_copyFile_grown (source target : String) : Keeps (Grown bench) (copyFile source target) :=
  Keeps.copyFile source target fun grown _ _ opens contents mode => grown.write opens contents mode

variable (creates : ∀ ending ∈ bench.endings, ∀ change ∈ ending.changes, bench.tree.Creates change)
include creates

theorem keeps_runCommand_grown (words : List String) (folder : Option String) (streamed : Bool) :
    Keeps (Grown bench) (runCommand words folder streamed) := by
  have changes : ∀ {later : Bench} {change : Place × Option Node}, Grown bench later →
      bench.tree.Creates change → Grown bench (later.onTree (·.change change.1 change.2)) :=
    fun grown created => ⟨grown.surroundings, grown.endings, grown.grows.change created⟩
  refine keeps_runCommand keeps_log_grown words folder streamed (fun {later} grown => ?_) changes
  exact ⟨Bench.forall_changes fun ending among => creates ending (grown.endings among),
    grown.surroundings, List.Subset.trans (List.drop_subset 1 later.endings) grown.endings, grown.grows⟩

end Creates

section Run

variable {bench : Bench}
  (creates : ∀ ending ∈ bench.endings, ∀ change ∈ ending.changes, bench.tree.Creates change)
  (records : bench.CanRecord) (metadata : Metadata) (platform : Platform)
include creates records

/-- A run whose commands only create files can record its messages to the end. -/
theorem canRecord_run : (outcome (run metadata platform) bench).2.CanRecord := by
  obtain ⟨ready, shows, logged⟩ := log_of_canRecord records (buildMessage metadata)
  have ran := startsNone_log (buildMessage metadata) bench
  rw [shows] at ran
  have begun : Grown bench ready := (Grown.refl bench).logged logged ran
  have still : ∀ ending ∈ ready.endings, ∀ change ∈ ending.changes, ready.tree.Creates change := by
    intro ending among change inside
    obtain ⟨takes, made⟩ := creates ending (begun.endings among) change inside
    refine ⟨?_, made⟩
    rcases logged.tree with same | ⟨location, contents, mode, -, written⟩
    · rwa [same]
    · rw [written]
      intro node there
      by_cases log : change.1 = location.place
      · rw [log, FileTree.get?_put_self] at there
        exact ⟨contents, mode, (Option.some.inj there).symm⟩
      · exact takes node ((FileTree.get?_put_of_ne bench.tree log _).symm.trans there)
  have runs := keeps_runCommand_grown still
  have built : Grown ready (outcome (build metadata platform) bench).2 := by
    rw [build_eq, outcome_bind_ok shows]
    exact (keeps_steps keeps_log_grown runs (keeps_makeFolders_grown _ _) (keeps_copyFile_grown _ _)
      platform ready (.refl ready)).1
  rw [run_eq]
  exact (kept_bind (fun _ => keeps_launchFound keeps_log_grown runs metadata platform) built).canRecord
    (hasLog_of_log shows)

/-- A run whose commands only create files ends in one of the ways a run can end. -/
theorem ends_of_creates : ∃ commands,
    Ran bench (outcome (run metadata platform) bench).2 commands ∧
      Gated metadata platform bench commands ∧
      Ends metadata platform bench (outcome (run metadata platform) bench).2 commands.length
        (outcome (run metadata platform) bench).1 :=
  (course_run rfl).ends (canRecord_run creates records metadata platform)

end Run

end Build

end JuceWorkbench
