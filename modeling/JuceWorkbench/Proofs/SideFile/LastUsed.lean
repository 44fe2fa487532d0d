import JuceWorkbench.Proofs.SideFile.Retyping
import JuceWorkbench.Proofs.SideFile.Setting
import JuceWorkbench.Proofs.SideFile.Upkeep

/-! The build type that was used last is the one used next. Over any row of builds, runs, additions,
cleanings and settings of the build type, the side file remembers the type of the last build or setting
that was accepted, and every build works with it, under the name and the kind the project always had. -/

namespace JuceWorkbench.SideFile
open Work Project CommandLine

structure Usage where
  type : BuildType
  filled : Bool

namespace Usage

/-- The build type of a build: the one it is given, if that is known, or else the one in use. -/
def forBuild (usage : Usage) : Option String → Option BuildType
  | some word => BuildType.ofWord? word
  | none => some usage.type

/-- The build type that a command leaves in the side file, if it writes one. A setting is refused where
the side file holds nothing. -/
def chosen (usage : Usage) : Command → Option BuildType
  | .build given => usage.forBuild given
  | .run given => usage.forBuild given
  | .set _ value => if usage.filled then BuildType.ofWord? value else none
  | _ => none

def written (usage : Usage) : Option BuildType → Usage
  | some type => ⟨type, true⟩
  | none => usage

def after (usage : Usage) (command : Command) : Usage := usage.written (usage.chosen command)

end Usage

/-- The commands of daily work: all but the making of projects, the showing of things and the setting of
other values. -/
inductive IsRoutine : Command → Prop
  | build (given : Option String) : IsRoutine (.build given)
  | run (given : Option String) : IsRoutine (.run given)
  | add (type name : String) (headerOnly : Bool) : IsRoutine (.add type name headerOnly)
  | clean : IsRoutine .clean
  | set (value : String) : IsRoutine (.set "build.type" value)

def afterCommand (folder : String) (bench : Bench) (command : Command) : Bench :=
  (outcome (lastResort (perform folder command)) bench).2

def afterCommands (folder : String) (bench : Bench) (commands : List Command) : Bench :=
  commands.foldl (afterCommand folder) bench

/-- A build works with some metadata: that is what it loads, and what it starts is configured, built and
launched for it, each behind its gate. -/
def BuildsWith (folder : String) (given : Option String) (metadata : Metadata) (bench after : Bench) : Prop :=
  ∃ ready commands, outcome (metadataForBuild folder given) bench = (.ok metadata, ready) ∧
    Ran bench after commands ∧ Build.Gated metadata bench.surroundings.host.platform ready commands

def usageAfter (found : Metadata) (entries : Entries) (commands : List Command) : Usage :=
  commands.foldl Usage.after ⟨found.buildType, !entries.isEmpty⟩

/-- The tables at the end of a path; none if what is there holds none. -/
def entriesAt (format : Format) : FileTree.Location → Option Entries
  | .taken _ (.file octets _) => tablesOf format octets
  | .taken _ _ => none
  | .free _ => some []

/-- The side file of a project holds tables that give the project with the build type in use. -/
structure Home.Remembers (home : Home) (found : Metadata) (usage : Usage) (location : FileTree.Location)
    (entries : Entries) (bench : Bench) : Prop extends home.Holds location bench where
  stored : entriesAt home.surroundings.format location = some entries
  accepted : metadata home.surroundings.here home.root entries none =
    .ok { found with buildType := usage.type }
  filled : usage.filled = !entries.isEmpty

theorem load_of_leads {bench : Bench} {folder : String} {location : FileTree.Location} {entries : Entries}
    (leads : Leads bench.tree bench.surroundings (path folder) location)
    (reads : bench.surroundings.canRead (path folder) = true)
    (stored : entriesAt bench.surroundings.format location = some entries) :
    outcome (load folder) bench = (.ok entries, bench) := by
  match location, stored with
  | .taken place (.file octets mode), stored => exact load_of_read leads ⟨reads, stored⟩
  | .free place, rfl =>
    refine load_of_absent ?_
    unfold FileTree.exists? FileTree.node?
    rw [leads.leads]
    rfl

theorem canWrite_path_absolute {surroundings : Surroundings}
    (rooted : Path.isAbsolute surroundings.here = true) (folder : String) :
    surroundings.canWrite (path (Path.absolute surroundings.here folder)) =
      surroundings.canWrite (path folder) := by
  unfold Surroundings.canWrite path
  rw [Path.absolute_join_absolute rooted]

/-! Commands that build. -/

def buildBy (folder : String) (given : Option String) (work : Metadata → Platform → Work Unit) :
    Work Unit := do
  let metadata ← metadataForBuild folder given
  work metadata (← hostPlatform)

def runToExit (metadata : Metadata) (platform : Platform) : Work Unit := do
  let code ← Build.run metadata platform
  if code ≠ 0 then Work.exit code

theorem perform_build (folder : String) (given : Option String) :
    perform folder (.build given) = guarded (buildBy folder given Build.build) := rfl

theorem perform_run (folder : String) (given : Option String) :
    perform folder (.run given) = guarded (buildBy folder given runToExit) := rfl

/-- Work of a build leaves the side file alone, and what it starts is gated. -/
structure IsBuild (work : Metadata → Platform → Work Unit) : Prop where
  keeps : ∀ {home : Home} {location : FileTree.Location} {metadata : Metadata} (platform : Platform),
    metadata.root = home.root → Keeps (home.Holds location) (work metadata platform)
  gated : ∀ (metadata : Metadata) (platform : Platform) (bench : Bench), ∃ commands,
    Ran bench (outcome (work metadata platform) bench).2 commands ∧
      Build.Gated metadata platform bench commands

theorem isBuild_build : IsBuild Build.build where
  keeps := fun platform root => Home.Holds.keeps_build root platform
  gated := by
    intro metadata platform bench
    rcases ends : outcome (Build.build metadata platform) bench with ⟨result, after⟩
    cases Build.buildRun_build ends with
    | stopped course =>
      obtain ⟨commands, ran, gated, -⟩ := course
      exact ⟨commands, ran, gated⟩
    | built ran first => exact ⟨_, ran, .build first⟩

theorem isBuild_runToExit : IsBuild runToExit where
  keeps := by
    intro home location metadata platform root
    refine Keeps.bind (Home.Holds.keeps_run root platform) fun code => ?_
    split
    · exact Yields.exit code
    · exact Keeps.pure ()
  gated := by
    intro metadata platform bench
    have course : Build.Course metadata platform bench (outcome (Build.run metadata platform) bench).2
        (outcome (Build.run metadata platform) bench).1 := Build.course_run rfl
    obtain ⟨commands, ran, gated, -⟩ := course
    refine ⟨commands, kept_bind (?_ : ∀ code, Keeps (Ran bench · commands) _) ran, gated⟩
    intro code
    split
    · exact Yields.exit code
    · exact Keeps.pure ()

theorem keeps_ran (bench : Bench) (commands : List Started) (message : Message) :
    Keeps (Ran bench · commands) (Work.log message) := by
  intro mid ran
  have more := ran.trans (startsNone_log message mid)
  rw [List.append_nil] at more
  exact ⟨more, fun _ _ => trivial⟩

namespace Home.Remembers

variable {home : Home} {found : Metadata} {usage : Usage} {location : FileTree.Location} {entries : Entries}
  {bench : Bench} {type : BuildType} {given : Option String}

theorem keeps {α : Type} {work : Work α} (keeps : Keeps (home.Holds location) work) :
    Keeps (home.Remembers found usage location entries) work := fun bench remembers =>
  ⟨⟨(keeps bench remembers.toHolds).1, remembers.stored, remembers.accepted, remembers.filled⟩,
    fun _ _ => trivial⟩

theorem keeps_log (message : Message) :
    Keeps (home.Remembers found usage location entries) (Work.log message) := keeps (Holds.keeps_log message)

section Loading

variable (remembers : home.Remembers found usage location entries bench)
include remembers

theorem root_eq : found.root = home.root := by
  obtain ⟨project, build, -, whole⟩ := exists_describes remembers.accepted
  have root := congrArg Metadata.root whole
  exact root.trans (Path.absolute_absolute home.rooted home.folder)

theorem loads_of_leads {folder : String}
    (leads : Leads bench.tree bench.surroundings (path folder) location)
    (reads : home.surroundings.canRead (path folder) = true) :
    outcome (load folder) bench = (.ok entries, bench) := by
  have stored := remembers.stored
  rw [← remembers.surroundings] at reads stored
  exact load_of_leads leads reads stored

theorem loads : outcome (load home.folder) bench = (.ok entries, bench) :=
  remembers.loads_of_leads remembers.leads home.reads

theorem loads_root : outcome (load home.root) bench = (.ok entries, bench) :=
  remembers.loads_of_leads remembers.leads_root
    ((canRead_path_absolute home.rooted home.folder).trans home.reads)

theorem tables_eq : tables bench home.folder = entries := by
  have leads := remembers.leads
  have stored := remembers.stored
  have file := remembers.file
  unfold tables FileTree.node?
  rw [leads.leads]
  match location, stored, file with
  | .taken place (.file octets mode), stored, _ =>
    rw [remembers.surroundings]
    exact loaded_of_read ⟨home.reads, stored⟩
  | .free place, rfl, _ => rfl

theorem outcome_loadMetadata (given : Option Datum) : outcome (loadMetadata home.folder given) bench =
    outcome (ofExcept (metadata home.surroundings.here home.root entries given)) bench := by
  have root : Path.absolute bench.surroundings.here home.folder = home.root := by
    rw [remembers.surroundings]
    rfl
  have loads := remembers.loads_root
  rw [← root] at loads
  rw [outcome_loadMetadata_of_load loads, root, remembers.surroundings]

theorem saves {folder : String} (leads : Leads bench.tree bench.surroundings (path folder) location)
    (writes : bench.surroundings.canWrite (path folder) = true) {new : Entries}
    (retypes : Retypes entries type new) (readsBack : ReadsBack home.surroundings.format new) :
    ∃ after location back,
      outcome (save new folder) bench = (.ok true, after) ∧ Ran bench after [] ∧
        home.Remembers found ⟨type, true⟩ location back after := by
  obtain ⟨text, back, printed, tables, alike⟩ := readsBack
  rw [← remembers.surroundings] at printed
  have opens : Opens bench.tree bench.surroundings (path folder) location := ⟨leads, writes, remembers.file⟩
  obtain ⟨filled, accepted⟩ := metadata_of_retypes remembers.accepted retypes alike
  refine ⟨_, .taken home.spot (.file (Text.Utf8.encode text.toList) location.written.2), back,
    save_of_opens opens printed, ⟨by simp [Bench.write], rfl, rfl⟩, ?_⟩
  exact ⟨remembers.write _, tables, accepted, by rw [filled]; rfl⟩

/-- The metadata of a build has the build type it is given, or else the one in use, which is remembered. -/
theorem prepares (chosen : usage.forBuild given = some type)
    (readsBack : ∀ new, Retypes entries type new → ReadsBack home.surroundings.format new) :
    ∃ ready location entries,
      outcome (metadataForBuild home.folder given) bench = (.ok { found with buildType := type }, ready) ∧
        Ran bench ready [] ∧ home.Remembers found ⟨type, true⟩ location entries ready := by
  obtain ⟨project, build, describes, whole⟩ := exists_describes remembers.accepted
  have gives : metadata home.surroundings.here home.root entries (given.map Datum.text) =
      .ok { found with buildType := type } := by
    cases given with
    | none =>
      obtain rfl := Option.some.inj chosen
      exact remembers.accepted
    | some word =>
      refine toOption_eq_some_iff.1 ((describes.metadata_given word).trans ?_)
      rw [show BuildType.ofWord? word = some type from chosen, Option.map_some]
      exact congrArg (fun metadata : Metadata => some { metadata with buildType := type }) whole.symm
  have loads := remembers.outcome_loadMetadata (given.map Datum.text)
  rw [gives] at loads
  have done := describes.withBuildType type
  have writes : bench.surroundings.canWrite (path home.root) = true := by
    rw [remembers.surroundings]
    exact (canWrite_path_absolute home.rooted home.folder).trans home.writes
  obtain ⟨ready, place, back, ends, ran, again⟩ := remembers.saves remembers.leads_root writes (.inl done)
    (readsBack _ (.inl done))
  refine ⟨ready, place, back, ?_, ran, again⟩
  have remembered := (outcome_remember remembers.loads_root done).trans ends
  rw [← remembers.root_eq] at remembered
  exact (outcome_bind_ok loads _).trans (outcome_bind_ok remembered _)

theorem refuses (unknown : usage.forBuild given = none) :
    ∃ stop, outcome (metadataForBuild home.folder given) bench = (.error stop, bench) := by
  obtain ⟨project, build, describes, -⟩ := exists_describes remembers.accepted
  cases given with
  | none => cases unknown
  | some word =>
    have loads := remembers.outcome_loadMetadata (some (.text word))
    have lost : (metadata home.surroundings.here home.root entries (some (.text word))).toOption = _ :=
      describes.metadata_given word
    rw [show BuildType.ofWord? word = none from unknown, Option.map_none] at lost
    cases gives : metadata home.surroundings.here home.root entries (some (.text word)) with
    | ok metadata =>
      rw [gives] at lost
      cases lost
    | error fault =>
      rw [gives] at loads
      exact ⟨_, outcome_bind_error loads _⟩

end Loading

theorem yields_loadMetadata : Yields (home.Remembers found usage location entries)
    (loadMetadata home.folder none) fun metadata => metadata.root = home.root := by
  intro bench remembers
  rw [remembers.outcome_loadMetadata, remembers.accepted]
  refine ⟨remembers, ?_⟩
  rintro metadata ⟨⟩
  exact remembers.root_eq

/-! Commands that do not build. -/

theorem keeps_add (type name : String) (headerOnly : Bool) :
    Keeps (home.Remembers found usage location entries) (CommandLine.add home.folder type name headerOnly) :=
  Yields.bind yields_loadMetadata fun _ root =>
    Keeps.bind (keeps (Holds.keeps_addElement root type name headerOnly)) fun _ => Keeps.pure _

theorem keeps_clean :
    Keeps (home.Remembers found usage location entries) (CommandLine.clean home.folder) :=
  keeps_clean_of keeps_log yields_loadMetadata (keeps Holds.keeps_removeBuild) (keeps Holds.keeps_removeDatabase)

section Settings

variable (remembers : home.Remembers found usage location entries bench)
include remembers

theorem outcome_set (filled : usage.filled = true) (value : String) :
    outcome (perform home.folder (.set "build.type" value)) bench =
      outcome (setAmong home.folder "build.type" value entries) bench := by
  have held : entries ≠ [] := by simpa [remembers.filled] using filled
  exact outcome_setValue_of_filled held remembers.loads _ _

theorem set_of_empty (empty : usage.filled = false) (value : String) :
    home.Remembers found usage location entries
      (afterCommand home.folder bench (.set "build.type" value)) := by
  have none : entries = [] := by simpa [remembers.filled] using empty
  refine kept_lastResort keeps_log ?_
  refine kept_setValue_of_empty (fun message _ => keeps_log message) remembers.loads remembers ?_ "build.type" value
  rintro other ⟨⟩
  exact none

theorem set_of_unknown (filled : usage.filled = true) {value : String}
    (unknown : BuildType.ofWord? value = none) : home.Remembers found usage location entries
      (afterCommand home.folder bench (.set "build.type" value)) := by
  refine kept_lastResort keeps_log ?_
  rw [remembers.outcome_set filled, setAmong]
  cases allowed : (allowedValues "build.type").filter fun allowed => !allowed.contains value with
  | some words => exact (keeps_log _ bench remembers).1
  | none =>
    obtain ⟨type, known⟩ := BuildType.mem_words_iff.1 ((allowed_iff _ _).1 allowed _ rfl)
    cases unknown.symm.trans known

theorem set_of_known (filled : usage.filled = true)
    (readsBack : ∀ new, Retypes entries type new → ReadsBack home.surroundings.format new) :
    ∃ location entries, home.Remembers found ⟨type, true⟩ location entries
        (afterCommand home.folder bench (.set "build.type" type.word)) := by
  have allowed := (allowed_iff "build.type" type.word).2 (by
    rintro values ⟨⟩
    exact BuildType.mem_words_iff.2 ⟨type, BuildType.ofWord?_word type⟩)
  obtain ⟨project, build, describes, -⟩ := exists_describes remembers.accepted
  have done := describes.set type
  have writes : bench.surroundings.canWrite (path home.folder) = true := by
    rw [remembers.surroundings]
    exact home.writes
  obtain ⟨after, place, back, saved, -, again⟩ := remembers.saves remembers.leads writes (.inr done)
    (readsBack _ (.inr done))
  have parts : keyParts "build.type" = ["build", "type"] := by decide
  refine ⟨place, back, kept_lastResort keeps_log ?_⟩
  rw [remembers.outcome_set filled, outcome_setAmong_of_done allowed (parts ▸ done), outcome_bind_ok saved]
  exact (keeps_log _ after again).1

theorem sets (value : String) (readsBack : ∀ type, usage.chosen (.set "build.type" value) = some type →
    ∀ new, Retypes entries type new → ReadsBack home.surroundings.format new) :
    ∃ location entries, home.Remembers found (usage.after (.set "build.type" value)) location entries
      (afterCommand home.folder bench (.set "build.type" value)) := by
  have chosen : usage.chosen (.set "build.type" value) =
      if usage.filled then BuildType.ofWord? value else none := rfl
  unfold Usage.after
  cases filled : usage.filled with
  | false =>
    rw [filled, if_neg Bool.false_ne_true] at chosen
    rw [chosen]
    exact ⟨location, entries, remembers.set_of_empty filled value⟩
  | true =>
    rw [filled, if_pos rfl] at chosen
    cases known : BuildType.ofWord? value with
    | none =>
      rw [chosen, known]
      exact ⟨location, entries, remembers.set_of_unknown filled known⟩
    | some type =>
      rw [known] at chosen
      rw [chosen]
      obtain rfl := BuildType.ofWord?_eq_some_iff.1 known
      exact remembers.set_of_known filled (readsBack type chosen)

end Settings

/-! Commands that build. -/

theorem prepares_ready (remembers : home.Remembers found usage location entries bench)
    (chosen : usage.forBuild given = some type)
    (readsBack : ∀ new, Retypes entries type new → ReadsBack home.surroundings.format new)
    {work : Metadata → Platform → Work Unit} (isBuild : IsBuild work) :
    (∃ location entries, home.Remembers found ⟨type, true⟩ location entries
        (outcome (lastResort (guarded (buildBy home.folder given work))) bench).2) ∧
      BuildsWith home.folder given { found with buildType := type } bench
        (outcome (lastResort (guarded (buildBy home.folder given work))) bench).2 := by
  obtain ⟨ready, place, back, ends, ran, again⟩ := remembers.prepares chosen readsBack
  have goes : outcome (buildBy home.folder given work) bench =
      outcome (work { found with buildType := type } bench.surroundings.host.platform) ready := by
    have host : outcome hostPlatform ready = (.ok bench.surroundings.host.platform, ready) := by
      rw [← ran.surroundings]
      rfl
    exact (outcome_bind_ok ends _).trans (outcome_bind_ok host _)
  obtain ⟨commands, more, gated⟩ :=
    isBuild.gated { found with buildType := type } bench.surroundings.host.platform ready
  refine ⟨⟨place, back, ?_⟩, ready, commands, ends, ?_, gated⟩
  · refine kept_lastResort keeps_log (kept_guarded keeps_log ?_)
    rw [goes]
    have root : ({ found with buildType := type } : Metadata).root = home.root := remembers.root_eq
    exact (keeps (isBuild.keeps _ root) ready again).1
  · refine kept_lastResort (keeps_ran bench commands) (kept_guarded (keeps_ran bench commands) ?_)
    rw [goes]
    exact ran.trans more

theorem refused (remembers : home.Remembers found usage location entries bench)
    (unknown : usage.forBuild given = none) (work : Metadata → Platform → Work Unit) :
    home.Remembers found usage location entries
        (outcome (lastResort (guarded (buildBy home.folder given work))) bench).2 ∧
      Ran bench (outcome (lastResort (guarded (buildBy home.folder given work))) bench).2 [] := by
  obtain ⟨stop, stops⟩ := remembers.refuses unknown
  have ends : outcome (buildBy home.folder given work) bench = (.error stop, bench) :=
    outcome_bind_error stops _
  refine ⟨kept_lastResort keeps_log (kept_guarded keeps_log ?_),
    kept_lastResort (keeps_ran bench []) (kept_guarded (keeps_ran bench []) ?_)⟩
  · rw [ends]
    exact remembers
  · rw [ends]
    exact .refl bench

theorem steps_buildBy (remembers : home.Remembers found usage location entries bench)
    {work : Metadata → Platform → Work Unit} (isBuild : IsBuild work)
    (readsBack : ∀ type, usage.forBuild given = some type →
      ∀ new, Retypes entries type new → ReadsBack home.surroundings.format new) :
    ∃ location entries, home.Remembers found (usage.written (usage.forBuild given)) location entries
      (outcome (lastResort (guarded (buildBy home.folder given work))) bench).2 := by
  cases chosen : usage.forBuild given with
  | some type => exact (remembers.prepares_ready chosen (readsBack type chosen) isBuild).1
  | none => exact ⟨location, entries, (remembers.refused chosen work).1⟩

/-- Every command of daily work leaves the side file with the build type in use then. -/
theorem step (remembers : home.Remembers found usage location entries bench) {command : Command}
    (routine : IsRoutine command)
    (readsBack : ∀ type, usage.chosen command = some type →
      ∀ new, Retypes entries type new → ReadsBack home.surroundings.format new) :
    ∃ location entries, home.Remembers found (usage.after command) location entries
      (afterCommand home.folder bench command) := by
  cases routine with
  | build given => exact remembers.steps_buildBy isBuild_build readsBack
  | run given => exact remembers.steps_buildBy isBuild_runToExit readsBack
  | add type name headerOnly =>
    exact ⟨location, entries, kept_lastResort keeps_log
      (kept_guarded keeps_log (keeps_add type name headerOnly bench remembers).1)⟩
  | clean =>
    exact ⟨location, entries, kept_lastResort keeps_log
      (kept_guarded keeps_log (keeps_clean bench remembers).1)⟩
  | set value => exact remembers.sets value readsBack

theorem run (remembers : home.Remembers found usage location entries bench) {commands : List Command}
    (routine : ∀ command ∈ commands, IsRoutine command)
    (readsBack : ∀ front command back, commands = front ++ command :: back →
      ∀ type, (front.foldl Usage.after usage).chosen command = some type →
        ∀ new, Retypes (tables (afterCommands home.folder bench front) home.folder) type new →
          ReadsBack home.surroundings.format new)
    {front back : List Command} (split : commands = front ++ back) :
    ∃ location entries, home.Remembers found (front.foldl Usage.after usage) location entries
      (afterCommands home.folder bench front) := by
  induction front using List.reverseRecOn generalizing back with
  | nil => exact ⟨location, entries, remembers⟩
  | append_singleton front command ih =>
    have whole : commands = front ++ command :: back := by rw [split, List.append_assoc]; rfl
    obtain ⟨place, held, before⟩ := ih whole
    rw [List.foldl_append, afterCommands, List.foldl_append]
    refine before.step (routine command ?_) fun type chosen new retypes => ?_
    · rw [whole]
      exact List.mem_append_right front List.mem_cons_self
    · exact readsBack front command back whole type chosen new (before.tables_eq.symm ▸ retypes)

end Home.Remembers

/-- Over every row of daily commands a build works with the build type it is given, or else with the one
of the last build or setting that was accepted, or else with the one stored; the rest of the metadata
stays. A build type that is not known is refused, and nothing is started. -/
theorem buildsWith_lastUsed {home : Home} {found : Metadata} {location : FileTree.Location}
    {entries : Entries} {bench : Bench} {commands : List Command} (holds : home.Holds location bench)
    (stored : entriesAt home.surroundings.format location = some entries)
    (accepted : metadata home.surroundings.here home.root entries none = .ok found)
    (routine : ∀ command ∈ commands, IsRoutine command)
    (readsBack : ∀ front command back, commands = front ++ command :: back →
      ∀ type, (usageAfter found entries front).chosen command = some type →
        ∀ new, Retypes (tables (afterCommands home.folder bench front) home.folder) type new →
          ReadsBack home.surroundings.format new)
    {front back : List Command} {command : Command} (split : commands = front ++ command :: back)
    {given : Option String} (builds : command = .build given ∨ command = .run given) :
    (∀ type, (usageAfter found entries front).forBuild given = some type →
        BuildsWith home.folder given { found with buildType := type }
          (afterCommands home.folder bench front) (afterCommands home.folder bench (front ++ [command]))) ∧
      ((usageAfter found entries front).forBuild given = none →
        Ran (afterCommands home.folder bench front)
          (afterCommands home.folder bench (front ++ [command])) []) := by
  have start : home.Remembers found ⟨found.buildType, !entries.isEmpty⟩ location entries bench :=
    ⟨holds, stored, accepted, rfl⟩
  obtain ⟨place, held, before⟩ := start.run routine readsBack split
  have known : ∀ type, (usageAfter found entries front).forBuild given = some type →
      ∀ new, Retypes held type new → ReadsBack home.surroundings.format new := by
    intro type chosen new retypes
    refine readsBack front command back split type ?_ new (before.tables_eq.symm ▸ retypes)
    rcases builds with rfl | rfl <;> exact chosen
  obtain ⟨work, isBuild, same⟩ : ∃ work, IsBuild work ∧
      perform home.folder command = guarded (buildBy home.folder given work) := by
    rcases builds with rfl | rfl
    · exact ⟨_, isBuild_build, perform_build home.folder given⟩
    · exact ⟨_, isBuild_runToExit, perform_run home.folder given⟩
  have last : afterCommands home.folder bench (front ++ [command]) =
      (outcome (lastResort (guarded (buildBy home.folder given work)))
        (afterCommands home.folder bench front)).2 := by
    rw [afterCommands, List.foldl_append, ← same]
    rfl
  rw [last]
  exact ⟨fun type chosen => (before.prepares_ready chosen (known type chosen) isBuild).2,
    fun unknown => (before.refused unknown work).2⟩

/-! A named project with its side file in the folder the bench stands in. -/

def namedEntries : Entries := [("project", .table [("name", .text "App")])]

def namedHome : Home where
  surroundings := {}
  folder := "."
  base := ["W"]
  spot := ["W", "jucebuilder.toml"]
  names := ["jucebuilder.toml"]
  spine := [["W"]]
  rooted := by
    change Path.isAbsolute "/W" = true
    decide
  clean := by decide
  cleanRoot := by decide
  reads := by decide
  writes := by decide
  named := ⟨"jucebuilder.toml", by decide, by decide⟩
  own := by decide
  apart := by decide

def failingBench : Bench :=
  { projectBench (Text.Utf8.encode namedText.toList) with endings := [.ended "" "" 1 []] }

theorem not_linked_project (octets : List UInt8) (place : Place) (target : String) :
    (projectBench octets).tree.get? place ≠ some (.link target) := by
  intro linked
  simp only [projectBench, FileTree.get?, FileTree.lookup] at linked
  (repeat' split at linked) <;> cases linked

theorem holds_namedHome : namedHome.Holds (.taken ["W", "jucebuilder.toml"]
    (.file (Text.Utf8.encode namedText.toList) newFileMode)) failingBench where
  surroundings := rfl
  place := rfl
  file := rfl
  there := rfl
  given := toOption_eq_some_iff.1 (by decide +kernel)
  whole := toOption_eq_some_iff.1 (by decide +kernel)
  based := toOption_eq_some_iff.1 (by decide +kernel)
  sound := by
    intro place among
    obtain rfl := List.mem_singleton.1 among
    exact Or.inl rfl
  plain := fun place target linked => absurd linked (not_linked_project _ place target)
  spared := by
    intro ending among
    obtain rfl := List.mem_singleton.1 among
    rintro change ⟨⟩

def releaseEntries : Entries :=
  [("config_version", .integer 1), ("project", .table [("name", .text "App")]),
    ("build", .table [("type", .text "Release")])]

def releaseText : String := "config_version = 1\n\n[project]\nname = \"App\"\n\n[build]\ntype = \"Release\"\n"

theorem tablesOf_release :
    tablesOf Toml.format (Text.Utf8.encode releaseText.toList) = some releaseEntries := by
  have read : Toml.read releaseText.toList = .ok releaseEntries := by with_unfolding_all rfl
  exact tablesOf_encode (by decide) read

def app : Metadata := ⟨"App", "/W", .unknown, .debug⟩

theorem accepted_named : metadata namedHome.surroundings.here namedHome.root namedEntries none = .ok app :=
  toOption_eq_some_iff.1 (by decide)

theorem remembers_failing : namedHome.Remembers app ⟨.debug, true⟩ (.taken ["W", "jucebuilder.toml"]
    (.file (Text.Utf8.encode namedText.toList) newFileMode)) namedEntries failingBench where
  toHolds := holds_namedHome
  stored := tablesOf_named
  accepted := accepted_named
  filled := rfl

theorem tables_failing : tables failingBench "." = namedEntries := remembers_failing.tables_eq

theorem readsBack_of_named {new : Entries} (retypes : Retypes namedEntries .release new) :
    ReadsBack Toml.format new := by
  rcases retypes with done | done
  all_goals
    obtain rfl := Except.ok.inj done
    decide +kernel

theorem surroundings_built :
    (afterCommand "." failingBench (.build (some "Release"))).surroundings = {} := by
  have release : (Usage.mk .debug true).chosen (.build (some "Release")) = some .release := by decide
  obtain ⟨location, entries, remembers⟩ := remembers_failing.step (.build (some "Release"))
    fun type chosen new retypes => by
      obtain rfl := Option.some.inj (chosen.symm.trans release)
      exact readsBack_of_named retypes
  exact remembers.surroundings

theorem tables_built :
    tables (afterCommands "." failingBench [.build (some "Release")]) "." = releaseEntries := by
  have node : (afterCommand "." failingBench (.build (some "Release"))).tree.node?
      (Surroundings.place {}) (path ".") =
        some (.file (Text.Utf8.encode releaseText.toList) newFileMode) := by decide +kernel
  have read : IsRead {} (path ".") (Text.Utf8.encode releaseText.toList) releaseEntries :=
    ⟨by decide, tablesOf_release⟩
  rw [afterCommands, List.foldl_cons, List.foldl_nil, tables, surroundings_built, node]
  exact loaded_of_read read

theorem readsBack_of_release {new : Entries} (retypes : Retypes releaseEntries .release new) :
    ReadsBack Toml.format new := by
  have same : ReadsBack Toml.format releaseEntries := by decide +kernel
  rcases retypes with done | done
  all_goals
    obtain rfl := Except.ok.inj done
    exact same

theorem readsBack_failing (front : List Command) (command : Command) (back : List Command)
    (split : [Command.build (some "Release"), .run none] = front ++ command :: back) (type : BuildType)
    (chosen : (usageAfter app namedEntries front).chosen command = some type) (new : Entries)
    (retypes : Retypes (tables (afterCommands "." failingBench front) ".") type new) :
    ReadsBack Toml.format new := by
  have ways : front = [] ∧ command = .build (some "Release") ∨
      front = [.build (some "Release")] ∧ command = .run none := by
    clear chosen retypes
    match front, split with
    | [], split =>
      obtain ⟨same, -⟩ := List.cons.inj split
      exact .inl ⟨rfl, same.symm⟩
    | [first], split =>
      obtain ⟨same, split⟩ := List.cons.inj split
      obtain ⟨again, -⟩ := List.cons.inj split
      exact .inr ⟨by rw [same], again.symm⟩
    | first :: second :: more, split =>
      have counts := congrArg List.length split
      simp at counts
  rcases ways with ⟨rfl, rfl⟩ | ⟨rfl, rfl⟩
  · have release : (usageAfter app namedEntries []).chosen (.build (some "Release")) = some .release := by
      decide
    obtain rfl := Option.some.inj (chosen.symm.trans release)
    rw [afterCommands, List.foldl_nil, tables_failing] at retypes
    exact readsBack_of_named retypes
  · have release : (usageAfter app namedEntries [.build (some "Release")]).chosen (.run none) =
        some .release := by decide
    obtain rfl := Option.some.inj (chosen.symm.trans release)
    rw [tables_built] at retypes
    exact readsBack_of_release retypes

/-- The program is run for release, which the build before was given, although that build failed. -/
theorem buildsWith_lastUsed_failing : namedHome.Holds (.taken ["W", "jucebuilder.toml"]
      (.file (Text.Utf8.encode namedText.toList) newFileMode)) failingBench ∧
    BuildsWith "." none { app with buildType := .release }
      (afterCommands "." failingBench [.build (some "Release")])
      (afterCommands "." failingBench [.build (some "Release"), .run none]) := by
  have routine : ∀ command ∈ [Command.build (some "Release"), .run none], IsRoutine command := by
    intro command among
    rcases List.mem_cons.1 among with rfl | later
    · exact .build _
    · obtain rfl := List.mem_singleton.1 later
      exact .run _
  have split : [Command.build (some "Release"), .run none] =
      [Command.build (some "Release")] ++ .run none :: [] := rfl
  exact ⟨holds_namedHome, (buildsWith_lastUsed holds_namedHome tablesOf_named accepted_named routine
    readsBack_failing split (.inr rfl)).1 .release (by decide)⟩

/-! A side file that is no file of its own. -/

def linkedBench : Bench where
  tree := ⟨[([], .folder), (["W"], .folder), (["W", "jucebuilder.toml"], .link Build.databaseName),
    (["W", "compile_commands.json"],
      .file (Text.Utf8.encode "[build]\ntype = \"Release\"\n".toList) newFileMode),
    (["L"], .folder)], by decide⟩
  surroundings := {}

/-- The stored type is forgotten with the database that a cleaning removes. -/
theorem buildsWith_debug_of_linked :
    (outcome (loadMetadata "." none) linkedBench).1.toOption = some ⟨"W", "/W", .unknown, .release⟩ ∧
      (afterCommands "." linkedBench [.clean, .build none]).started =
        [Build.configureCommand ⟨"W", "/W", .unknown, .debug⟩,
          Build.buildCommand ⟨"W", "/W", .unknown, .debug⟩] := by
  constructor
  · decide +kernel
  · decide +kernel

end JuceWorkbench.SideFile
