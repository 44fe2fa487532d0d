import JuceWorkbench.Build
import JuceWorkbench.Proofs.Artifact.Rewriting
import JuceWorkbench.Proofs.Bench.Starting

/-! Building and running a project as a row of commands: configure, build, launch. Each is started
behind its gate only, the first that fails ends the work with its code, and the program that is
launched is the one found in the tree the build left: `run_pipeline`. A log that cannot be written ends
a run too, but only where there was something to say. -/

namespace JuceWorkbench.Build
open Project Work

def configureCommand (metadata : Metadata) : Started := ⟨configureWords metadata, none, true⟩

def buildCommand (metadata : Metadata) : Started := ⟨buildWords metadata, none, true⟩

def launchCommand (metadata : Metadata) (platform : Platform) (path : String) : Started :=
  ⟨launchWords (Artifact.Strategy.of metadata.kind platform) path, some metadata.buildFolder, true⟩

variable {metadata : Metadata} {platform : Platform} {bench after : Bench}

/-! What starts no command. -/

theorem startsNone_makeFolders (path : String) (mayExist : Bool) : StartsNone (makeFolders path mayExist) :=
  startsNone_of_keeps fun _ => keeps_makeFolders path mayExist fun folder _ =>
    Keeps.makeFolder folder fun mid place before _ => before.trans (.onTree mid (·.put place .folder))

theorem startsNone_copyFile (source target : String) : StartsNone (copyFile source target) :=
  startsNone_of_keeps fun _ => Keeps.copyFile source target fun {mid location} before _ _ _ contents mode =>
    before.trans (.onTree mid (·.put location.place (.file contents mode)))

theorem startsNone_copyDatabase (metadata : Metadata) : StartsNone (copyDatabase metadata) := by
  refine StartsNone.bind (startsNone_of_keeps fun bench => keeps_fileExists _) fun found => ?_
  split
  · exact (startsNone_copyFile _ _).bind fun _ => startsNone_log _
  · exact startsNone_log _

/-! The course of a run. -/

/-- The commands of a run, each behind its gate: configure, then build when that gave zero, then the
program that is found in the tree the build left. -/
inductive Gated (metadata : Metadata) (platform : Platform) (bench : Bench) : List Started → Prop
  | none : Gated metadata platform bench []
  | configure : Gated metadata platform bench [configureCommand metadata]
  | build (configured : bench.code 0 = 0) :
      Gated metadata platform bench [configureCommand metadata, buildCommand metadata]
  | launch {built : Bench} {resolution : Artifact.Resolution} (configured : bench.code 0 = 0)
      (compiled : bench.code 1 = 0)
      (builds : outcome (Build.build metadata platform) bench = (.ok (), built))
      (finds : Artifact.resolve built.tree built.surroundings metadata platform = .ok resolution) :
      Gated metadata platform bench [configureCommand metadata, buildCommand metadata,
        launchCommand metadata platform resolution.artifact.path]

/-- How a run ends after so many commands. -/
inductive Ends (metadata : Metadata) (platform : Platform) (bench after : Bench) :
    Nat → Except Stop Int → Prop
  | folderRefused {ready : Bench} {stop : Stop} (logged : Logged bench ready)
      (refuses : outcome (makeFolders metadata.buildFolder true) ready = (.error stop, after)) :
      Ends metadata platform bench after 0 (.error stop)
  | configureFailed (code : bench.code 0 ≠ 0) :
      Ends metadata platform bench after 1 (.error (.fault (.buildFailed "configure" (bench.code 0))))
  | buildFailed (code : bench.code 1 ≠ 0) :
      Ends metadata platform bench after 2 (.error (.fault (.buildFailed "build" (bench.code 1))))
  | copyFailed {ready : Bench} {stop : Stop} (compiled : bench.code 1 = 0) (copies : platform ≠ .windows)
      (stops : outcome (Build.build metadata platform) bench = (.error stop, after))
      (refuses : outcome (copyFile (Path.join metadata.buildFolder databaseName)
        (Path.join metadata.root databaseName)) ready = (.error stop, after)) :
      Ends metadata platform bench after 2 (.error stop)
  | programLost {built : Bench} {fault : Fault}
      (builds : outcome (Build.build metadata platform) bench = (.ok (), built))
      (lost : Artifact.resolve built.tree built.surroundings metadata platform = .error fault) :
      Ends metadata platform bench after 2 (.error (.fault fault))
  | launched : Ends metadata platform bench after 3 (.ok (bench.code 2))

/-- A run stopped after so many commands at a message it could not record: one about the last command,
or one on the way to the next, which takes that the commands of the build gave zero. -/
inductive Halts (bench after : Bench) (stop : Stop) : Nat → Prop
  | telling {n : Nat} {message : Message} (tells : Tells (bench.ending n) message)
      (stopped : StoppedAt message stop after) : Halts bench after stop (n + 1)
  | between {n : Nat} {message : Message} (passed : ∀ k < n, k < 2 → bench.code k = 0)
      (stopped : StoppedAt message stop after) : Halts bench after stop n

/-- The commands a run starts are gated and take an ending each. It ends in one of the ways it can end
after so many commands, or the log can no longer be written and it had something to say. -/
def Course (metadata : Metadata) (platform : Platform) (bench after : Bench)
    (result : Except Stop Int) : Prop :=
  ∃ commands, Ran bench after commands ∧ Gated metadata platform bench commands ∧
    (Ends metadata platform bench after commands.length result ∨
      ¬after.CanRecord ∧ ∃ stop, result = .error stop ∧ Halts bench after stop commands.length)

section Course

variable {commands : List Started} {result : Except Stop Int} {stop : Stop}

theorem Halts.broken {n : Nat} (halts : Halts bench after stop n) : ¬after.CanRecord := by
  cases halts with
  | telling tells stopped => exact stopped.broken
  | between passed stopped => exact stopped.broken

theorem not_halts_of_silent {n : Nat} (early : n < 2) (failed : bench.code n ≠ 0)
    (silent : ∀ message, ¬Tells (bench.ending n) message) : ¬Halts bench after stop (n + 1) := by
  rintro (⟨tells, -⟩ | ⟨passed, -⟩)
  · exact silent _ tells
  · exact failed (passed n (Nat.lt_succ_self n) early)

theorem Course.of_ends (ran : Ran bench after commands) (gate : Gated metadata platform bench commands)
    (ends : Ends metadata platform bench after commands.length result) :
    Course metadata platform bench after result := ⟨commands, ran, gate, Or.inl ends⟩

theorem Course.of_halts (ran : Ran bench after commands) (gate : Gated metadata platform bench commands)
    (halts : Halts bench after stop commands.length) :
    Course metadata platform bench after (.error stop) :=
  ⟨commands, ran, gate, Or.inr ⟨halts.broken, stop, rfl, halts⟩⟩

/-- If the log can still be written in the end, the run ended in one of the ways it can end. -/
theorem Course.ends (course : Course metadata platform bench after result) (records : after.CanRecord) :
    ∃ commands, Ran bench after commands ∧ Gated metadata platform bench commands ∧
      Ends metadata platform bench after commands.length result := by
  obtain ⟨commands, ran, gate, ends | ⟨broken, -⟩⟩ := course
  · exact ⟨commands, ran, gate, ends⟩
  · exact absurd records broken

/-- A command of the build that fails without a word ends the run, even if it took the log away. -/
theorem Course.ends_of_silent (course : Course metadata platform bench after result) {n : Nat}
    {errors : String} {code : Int} {changes : List (Place × Option Node)} (early : n < 2)
    (silent : bench.ending n = .ended "" errors code changes) (failed : code ≠ 0)
    (last : after.started.length = bench.started.length + (n + 1)) :
    ∃ commands, Ran bench after commands ∧ Gated metadata platform bench commands ∧
      Ends metadata platform bench after commands.length result := by
  obtain ⟨commands, ran, gate, ends | ⟨-, stop, -, halts⟩⟩ := course
  · exact ⟨commands, ran, gate, ends⟩
  · have count : commands.length = n + 1 := by
      rw [ran.started, List.length_append] at last
      omega
    have code_eq : bench.code n = code := congrArg Ending.code silent
    rw [count] at halts
    refine absurd halts (not_halts_of_silent early (code_eq ▸ failed) fun message => ?_)
    rw [silent]
    exact not_tells_of_silent

end Course

/-! One step of the build. -/

inductive StepRun (name : String) (command : Started) (bench : Bench) : Except Stop Unit → Bench → Prop
  | unstarted {message : Message} {stop : Stop} {after : Bench} (ran : Ran bench after [])
      (stopped : StoppedAt message stop after) : StepRun name command bench (.error stop) after
  | unreported {message : Message} {stop : Stop} {after : Bench} (ran : Ran bench after [command])
      (tells : Tells (bench.ending 0) message) (stopped : StoppedAt message stop after) :
      StepRun name command bench (.error stop) after
  | failed {after : Bench} (ran : Ran bench after [command]) (code : bench.code 0 ≠ 0) :
      StepRun name command bench (.error (.fault (.buildFailed name (bench.code 0)))) after
  | passed {after : Bench} (ran : Ran bench after [command]) (code : bench.code 0 = 0) :
      StepRun name command bench (.ok ()) after

theorem stepRun_runStep {name : String} {words : List String} {result : Except Stop Unit}
    (ends : outcome (runStep name words) bench = (result, after)) :
    StepRun name ⟨words, none, true⟩ bench result after := by
  rcases outcome_bind_cases ends with ⟨stop, stops, rfl⟩ | ⟨done, mid, finishes, ends⟩
  · cases run_runCommand stops with
    | unstarted ran stopped => exact .unstarted ran stopped
    | unreported ran tells stopped => exact .unreported ran tells stopped
  · cases run_runCommand finishes with
    | finished ran code =>
      by_cases zero : done.code = 0
      · rw [if_neg (not_not_intro zero)] at ends
        obtain ⟨rfl, rfl⟩ := Prod.mk.inj ends
        exact .passed ran (code ▸ zero)
      · rw [if_pos zero] at ends
        obtain ⟨rfl, rfl⟩ := Prod.mk.inj ends
        rw [code] at zero ⊢
        exact .failed ran zero

theorem StepRun.behind {name : String} {command : Started} {ready : Bench} {result : Except Stop Unit}
    (step : StepRun name command ready result after) (ran : Ran bench ready []) :
    StepRun name command bench result after := by
  have ending : ready.ending 0 = bench.ending 0 := ran.ending 0
  have code : ready.code 0 = bench.code 0 := ran.code 0
  cases step with
  | unstarted more stopped => exact .unstarted (ran.trans more) stopped
  | unreported more tells stopped => exact .unreported (ran.trans more) (ending ▸ tells) stopped
  | failed more failed =>
    rw [code] at failed ⊢
    exact .failed (ran.trans more) failed
  | passed more passed => exact .passed (ran.trans more) (code ▸ passed)

theorem stepRun_phase {α : Type} {headline name : String} {words : List String} {next : Work α}
    {result : Except Stop α} (ends : outcome (do
      Work.phase headline
      runStep name words
      next) bench = (result, after)) :
    (∃ stop, result = .error stop ∧ StepRun name ⟨words, none, true⟩ bench (.error stop) after) ∨
      ∃ mid, StepRun name ⟨words, none, true⟩ bench (.ok ()) mid ∧ outcome next mid = (result, after) := by
  rcases outcome_bind_cases ends with ⟨stop, stops, rfl⟩ | ⟨⟨⟩, begun, shows, ends⟩
  · cases noted_log stops with
    | broken ran stopped => exact .inl ⟨stop, rfl, .unstarted ran stopped⟩
  cases noted_log shows with
  | noted ran
  rcases outcome_bind_cases ends with ⟨stop, stops, rfl⟩ | ⟨⟨⟩, mid, passes, ends⟩
  · exact .inl ⟨stop, rfl, (stepRun_runStep stops).behind ran⟩
  · exact .inr ⟨mid, (stepRun_runStep passes).behind ran, ends⟩

/-! The build. -/

def buildMessage (metadata : Metadata) : Message :=
  { level := .info, text := "Building project '" ++ metadata.name ++ "' (" ++ metadata.buildType.word ++ ")..." }

def steps (metadata : Metadata) (platform : Platform) : Work Unit := do
  makeFolders metadata.buildFolder true
  phase "Configuring"
  runStep "configure" (configureWords metadata)
  phase "Compiling"
  runStep "build" (buildWords metadata)
  if platform ≠ .windows then copyDatabase metadata
  success "Build successful!"

theorem build_eq (metadata : Metadata) (platform : Platform) : build metadata platform = (do
    log (buildMessage metadata)
    steps metadata platform) := rfl

/-- How the build can go: it stops as a run can stop, or both commands gave zero. -/
inductive BuildRun (metadata : Metadata) (platform : Platform) (bench : Bench) :
    Except Stop Unit → Bench → Prop
  | stopped {stop : Stop} {after : Bench} (course : Course metadata platform bench after (.error stop)) :
      BuildRun metadata platform bench (.error stop) after
  | built {after : Bench} (ran : Ran bench after [configureCommand metadata, buildCommand metadata])
      (ready : bench.code 0 = 0) (done : bench.code 1 = 0) (has : after.HasLog) :
      BuildRun metadata platform bench (.ok ()) after

theorem Course.of_passed {message : Message} {stop : Stop}
    (ran : Ran bench after [configureCommand metadata, buildCommand metadata])
    (first : bench.code 0 = 0) (second : bench.code 1 = 0) (stopped : StoppedAt message stop after) :
    Course metadata platform bench after (.error stop) := by
  refine .of_halts ran (.build first) (.between (fun k _ early => ?_) stopped)
  match k, early with
  | 0, _ => exact first
  | 1, _ => exact second

/-- Copying the database is refused, or it is stopped by a message about it. -/
theorem copyDatabase_stopped {stop : Stop}
    (stops : outcome (copyDatabase metadata) bench = (.error stop, after)) :
    (∃ ready, outcome (copyFile (Path.join metadata.buildFolder databaseName)
        (Path.join metadata.root databaseName)) ready = (.error stop, after)) ∨
      ∃ message, StoppedAt message stop after := by
  rcases outcome_bind_cases stops with ⟨_, looks, -⟩ | ⟨found, ready, -, stops⟩
  · cases looks
  split at stops
  · rcases outcome_bind_cases stops with ⟨_, refuses, same⟩ | ⟨⟨⟩, copied, -, stops⟩
    · obtain rfl := Except.error.inj same
      exact Or.inl ⟨ready, refuses⟩
    · exact Or.inr ⟨_, copied, stops⟩
  · exact Or.inr ⟨_, ready, stops⟩

theorem buildRun_of_compiled {compiled : Bench} {result : Except Stop Unit}
    (whole : outcome (build metadata platform) bench = (result, after))
    (ran : Ran bench compiled [configureCommand metadata, buildCommand metadata])
    (first : bench.code 0 = 0) (second : bench.code 1 = 0) (ends : outcome (do
      if platform ≠ .windows then copyDatabase metadata
      Work.success "Build successful!") compiled = (result, after)) :
    BuildRun metadata platform bench result after := by
  have closes {copied : Bench} (more : Ran compiled copied [])
      (ends : outcome (success "Build successful!") copied = (result, after)) :
      BuildRun metadata platform bench result after := by
    cases noted_log ends with
    | noted last logged has => exact .built ((ran.trans more).trans last) first second has
    | broken last stopped => exact .stopped (.of_passed ((ran.trans more).trans last) first second stopped)
  dsimp only at ends
  split at ends
  · rename_i other
    have more := startsNone_copyDatabase metadata compiled
    rcases outcome_bind_cases ends with ⟨stop, stops, rfl⟩ | ⟨⟨⟩, copied, copies, ends⟩
    · rw [stops] at more
      rcases copyDatabase_stopped stops with ⟨ready, refuses⟩ | ⟨message, stopped⟩
      · exact .stopped (.of_ends (ran.trans more) (.build first) (.copyFailed second other whole refuses))
      · exact .stopped (.of_passed (ran.trans more) first second stopped)
    · rw [copies] at more
      exact closes more ends
  · exact closes (.refl compiled) ends

theorem buildRun_build {result : Except Stop Unit}
    (ends : outcome (build metadata platform) bench = (result, after)) :
    BuildRun metadata platform bench result after := by
  have whole := ends
  have unstarted {message : Message} {stop : Stop} {after : Bench} (ran : Ran bench after [])
      (stopped : StoppedAt message stop after) : BuildRun metadata platform bench (.error stop) after :=
    .stopped (.of_halts ran .none (.between (fun k early => absurd early (Nat.not_lt_zero k)) stopped))
  rcases outcome_bind_cases ends with ⟨stop, stops, rfl⟩ | ⟨⟨⟩, ready, shows, ends⟩
  · cases noted_log stops with
    | broken ran stopped => exact unstarted ran stopped
  cases noted_log shows with
  | noted ran logged has
  have more := startsNone_makeFolders metadata.buildFolder true ready
  rcases outcome_bind_cases ends with ⟨stop, stops, rfl⟩ | ⟨⟨⟩, made, makes, ends⟩
  · rw [stops] at more
    exact .stopped (.of_ends (ran.trans more) .none (.folderRefused logged stops))
  rw [makes] at more
  replace ran := ran.trans more
  -- the first command
  rcases stepRun_phase ends with ⟨stop, rfl, step⟩ | ⟨configured, step, ends⟩
  · cases step.behind ran with
    | unstarted ran stopped => exact unstarted ran stopped
    | unreported ran tells stopped => exact .stopped (.of_halts ran .configure (.telling tells stopped))
    | failed ran code => exact .stopped (.of_ends ran .configure (.configureFailed code))
  cases step.behind ran with
  | passed ran first
  -- the second command
  have ending : configured.ending 0 = bench.ending 1 := ran.ending 0
  have next : configured.code 0 = bench.code 1 := ran.code 0
  rcases stepRun_phase ends with ⟨stop, rfl, step⟩ | ⟨compiled, step, ends⟩
  · cases step with
    | unstarted more stopped =>
      have passed : ∀ k < 1, k < 2 → bench.code k = 0 := fun k early _ => Nat.lt_one_iff.1 early ▸ first
      exact .stopped (.of_halts (ran.trans more) .configure (.between passed stopped))
    | unreported more tells stopped =>
      exact .stopped (.of_halts (ran.trans more) (.build first) (.telling (ending ▸ tells) stopped))
    | failed more code =>
      rw [next] at code ⊢
      exact .stopped (.of_ends (ran.trans more) (.build first) (.buildFailed code))
  cases step with
  | passed more second => exact buildRun_of_compiled whole (ran.trans more) first (next ▸ second) ends

/-! The search for the program, and the launch. -/

def program (metadata : Metadata) (platform : Platform) (bench : Bench) :
    Except Fault Artifact.Resolution :=
  Artifact.resolve bench.tree bench.surroundings metadata platform

theorem program_of_log (has : bench.HasLog) {message : Message}
    (ends : outcome (log message) bench = (.ok (), after)) :
    program metadata platform after = program metadata platform bench := by
  obtain ⟨same, place, old, record, mode, there, written⟩ := rewrites_of_log has ends
  unfold program
  rw [same, written]
  exact Artifact.resolve_rewritten there record metadata platform

theorem outcome_resolve (metadata : Metadata) (platform : Platform) (bench : Bench) :
    outcome (resolve metadata platform) bench =
      outcome (ofExcept (program metadata platform bench)) bench := by
  unfold resolve
  rw [outcome_bind_ok (outcome_tree bench), outcome_bind_ok (outcome_surroundings bench)]
  rfl

inductive Search (metadata : Metadata) (platform : Platform) (bench : Bench) :
    Except Stop (Artifact.Strategy × String) → Bench → Prop
  | broken {message : Message} {stop : Stop} {after : Bench} (ran : Ran bench after [])
      (stopped : StoppedAt message stop after) : Search metadata platform bench (.error stop) after
  | lost {fault : Fault} {after : Bench} (ran : Ran bench after [])
      (none : program metadata platform bench = .error fault) :
      Search metadata platform bench (.error (.fault fault)) after
  | found {resolution : Artifact.Resolution} {after : Bench} (ran : Ran bench after [])
      (one : program metadata platform bench = .ok resolution) :
      Search metadata platform bench
        (.ok (Artifact.Strategy.of metadata.kind platform, resolution.artifact.path)) after

theorem search_findProgram (has : bench.HasLog) {result : Except Stop (Artifact.Strategy × String)}
    (ends : outcome (findProgram metadata platform) bench = (result, after)) :
    Search metadata platform bench result after := by
  rcases outcome_bind_cases ends with ⟨stop, stops, rfl⟩ | ⟨⟨⟩, ready, shows, ends⟩
  · cases noted_log stops with
    | broken ran stopped => exact .broken ran stopped
  have same : program metadata platform ready = program metadata platform bench := program_of_log has shows
  cases noted_log shows with
  | noted ran
  cases finds : program metadata platform ready with
  | error fault =>
    have lost : outcome (resolve metadata platform) ready = (.error (.fault fault), ready) := by
      rw [outcome_resolve, finds]
      rfl
    obtain ⟨rfl, rfl⟩ := Prod.mk.inj ((outcome_bind_error lost _).symm.trans ends)
    exact .lost ran (same.symm.trans finds)
  | ok resolution =>
    have found : outcome (resolve metadata platform) ready = (.ok resolution, ready) := by
      rw [outcome_resolve, finds]
      rfl
    rw [outcome_bind_ok found] at ends
    rcases outcome_bind_cases ends with ⟨stop, stops, rfl⟩ | ⟨⟨⟩, last, shows, ends⟩
    · obtain ⟨more, other | ⟨warning, -, stop, same, stopped⟩⟩ := noted_forM stops
      · cases other
      · obtain rfl := Except.error.inj same
        exact .broken (ran.trans more) stopped
    · obtain ⟨more, -⟩ := noted_forM shows
      obtain ⟨rfl, rfl⟩ := Prod.mk.inj ends
      exact .found (ran.trans more) (same.symm.trans finds)

/-! The whole run. -/

def launch (metadata : Metadata) (strategy : Artifact.Strategy) (path : String) : Work Int := do
  Work.info ("Starting executable: " ++ path)
  let finished ← Work.runCommand (launchWords strategy path) (some metadata.buildFolder) true
  Work.info ("Execution completed with exit code " ++ toString finished.code ++ ".")
  return finished.code

def launchFound (metadata : Metadata) (platform : Platform) : Work Int := do
  Work.info ("Running project '" ++ metadata.name ++ "'...")
  let (strategy, path) ← findProgram metadata platform
  launch metadata strategy path

theorem run_eq (metadata : Metadata) (platform : Platform) : run metadata platform = (do
    build metadata platform
    launchFound metadata platform) := rfl

section Built

variable {built mid : Bench} {result : Except Stop Int} {path : String}

theorem course_of_launch (first : bench.code 0 = 0) (second : bench.code 1 = 0)
    (ran : Ran bench mid [configureCommand metadata, buildCommand metadata])
    (gate : Gated metadata platform bench [configureCommand metadata, buildCommand metadata,
      launchCommand metadata platform path])
    (ends : outcome (launch metadata (Artifact.Strategy.of metadata.kind platform) path) mid =
      (result, after)) :
    Course metadata platform bench after result := by
  rcases outcome_bind_cases ends with ⟨stop, stops, rfl⟩ | ⟨⟨⟩, starting, shows, ends⟩
  · cases noted_log stops with
    | broken more stopped => exact .of_passed (ran.trans more) first second stopped
  cases noted_log shows with
  | noted more
  replace ran := ran.trans more
  have ending : starting.ending 0 = bench.ending 2 := ran.ending 0
  rcases outcome_bind_cases ends with ⟨stop, stops, rfl⟩ | ⟨done, finished, finishes, ends⟩
  · cases run_runCommand stops with
    | unstarted more stopped => exact .of_passed (ran.trans more) first second stopped
    | unreported more tells stopped =>
      exact .of_halts (ran.trans more) gate (.telling (ending ▸ tells) stopped)
  cases run_runCommand finishes with
  | finished more code
  rw [ran.code 0] at code
  replace ran := ran.trans more
  rcases outcome_bind_cases ends with ⟨stop, stops, rfl⟩ | ⟨⟨⟩, told, shows, ends⟩
  · cases noted_log stops with
    | broken more stopped =>
      refine .of_halts (ran.trans more) gate (.between (fun k _ early => ?_) stopped)
      match k, early with
      | 0, _ => exact first
      | 1, _ => exact second
  cases noted_log shows with
  | noted more
  obtain ⟨rfl, rfl⟩ := Prod.mk.inj ends
  refine .of_ends (ran.trans more) gate ?_
  rw [code]
  exact .launched

theorem course_of_built (builds : outcome (build metadata platform) bench = (.ok (), built))
    (ends : outcome (launchFound metadata platform) built = (result, after)) :
    Course metadata platform bench after result := by
  cases buildRun_build builds with
  | built ran first second has
  rcases outcome_bind_cases ends with ⟨stop, stops, rfl⟩ | ⟨⟨⟩, ready, shows, ends⟩
  · cases noted_log stops with
    | broken more stopped => exact .of_passed (ran.trans more) first second stopped
  -- the message is written to a file that is there, so the same program is found
  have same : program metadata platform ready = program metadata platform built := program_of_log has shows
  cases noted_log shows with
  | noted more logged has
  replace ran := ran.trans more
  rcases outcome_bind_cases ends with ⟨stop, stops, rfl⟩ | ⟨⟨strategy, path⟩, searched, searches, ends⟩
  · cases search_findProgram has stops with
    | broken more stopped => exact .of_passed (ran.trans more) first second stopped
    | lost more none =>
      exact .of_ends (ran.trans more) (.build first) (.programLost builds (same.symm.trans none))
  cases search_findProgram has searches with
  | found more one =>
    exact course_of_launch first second (ran.trans more)
      (.launch first second builds (same.symm.trans one)) ends

end Built

theorem course_run {result : Except Stop Int}
    (ends : outcome (run metadata platform) bench = (result, after)) :
    Course metadata platform bench after result := by
  rw [run_eq] at ends
  rcases outcome_bind_cases ends with ⟨stop, stops, rfl⟩ | ⟨⟨⟩, built, builds, ends⟩
  · cases buildRun_build stops with
    | stopped course => exact course
  · exact course_of_built builds ends

/-- A run starts configure, build and launch in this order, each behind its gate. The build folder was
refused, a command of the build failed and no other was started, the database could not be copied, no
program was found, or the program was launched and its code is the result; or else the log can no longer
be written, and the run stopped at a message it could not record. -/
theorem run_pipeline (metadata : Metadata) (platform : Platform) (bench : Bench) :
    Course metadata platform bench (outcome (run metadata platform) bench).2
      (outcome (run metadata platform) bench).1 := course_run rfl

/-- A tool that is not found fails the first step, and nothing else is started. -/
example :
    let bench := { Bench.fresh {} with endings := [.notFound "cmake"] }
    (outcome (run ⟨"Tool", "/W", .consoleApp, .debug⟩ .linux) bench).2.started =
      [configureCommand ⟨"Tool", "/W", .consoleApp, .debug⟩] := by
  decide +kernel

end JuceWorkbench.Build
