import JuceWorkbench.Proofs.Bench.Starting
import JuceWorkbench.Proofs.SideFile.Retyping
import JuceWorkbench.Proofs.SideFile.Setting

/-! Commands that work on a project check its side file before anything else. With a version, a name
or a build type that is not valid they exit with status one, having started no command and written
nothing but the log. -/

namespace JuceWorkbench.CommandLine
open Project SideFile Work

/-- The whole number a value counts as; a truth value counts as zero or one. -/
def wholeNumber? : Datum → Option Int
  | .integer n => some n
  | .boolean value => some value.toInt
  | _ => none

def IsName (value : Datum) : Prop := ∃ name, value = .text name ∧ Text.trim name.toList ≠ []

/-- The build type in use: the one that is given, else the stored one, else that for debugging. -/
def typeInUse (entries : Entries) (given : Option String) : Datum :=
  match given with
  | some word => .text word
  | none => (find? ["build", "type"] (.table entries)).getD (.text BuildType.debug.word)

/-- Tables that are not valid for a command with the given build type. -/
inductive IsInvalid (entries : Entries) (given : Option String) : Prop
  | version {value : Datum} (stored : find? ["config_version"] (.table entries) = some value)
      (unknown : ∀ n, wholeNumber? value = some n → ¬n ≤ 1)
  | name {value : Datum} (stored : find? ["project", "name"] (.table entries) = some value)
      (filled : value.isGiven = true) (nameless : ¬IsName value)
  | buildType (unknown : ∀ word ∈ buildTypeWords, typeInUse entries given ≠ .text word)
  | project {value : Datum} (stored : find? ["project"] (.table entries) = some value)
      (other : ∀ inner, value ≠ .table inner)
  | build {value : Datum} (stored : find? ["build"] (.table entries) = some value)
      (other : ∀ inner, value ≠ .table inner) (free : given = none)

/-- Commands that work on a project, and the build type they are given. -/
inductive WorksWith : Command → Option String → Prop
  | add (type name : String) (headerOnly : Bool) : WorksWith (.add type name headerOnly) none
  | build (given : Option String) : WorksWith (.build given) given
  | run (given : Option String) : WorksWith (.run given) given
  | clean : WorksWith .clean none

theorem isKnownVersion_iff (value : Datum) :
    isKnownVersion value = true ↔ ∃ n, wholeNumber? value = some n ∧ n ≤ 1 := by
  cases value with
  | boolean value => cases value <;> simp [isKnownVersion, wholeNumber?]
  | integer n =>
    rw [isKnownVersion, decide_eq_true_iff]
    exact ⟨fun low => ⟨n, rfl, low⟩, by rintro ⟨m, ⟨⟩, low⟩; exact low⟩
  | _ => simp [isKnownVersion, wholeNumber?]

theorem eq_table_of_tableAt {entries inner : Entries} {key : String} {value : Datum}
    (there : tableAt entries key = .ok inner) (stored : find? [key] (.table entries) = some value) :
    value = .table inner := by
  have table := (tableAt_eq_ok_iff key inner).1 there
  rw [find?_single] at stored
  rwa [stored, Option.getD_some] at table

theorem typeInUse_of_typeFor {entries : Entries} {given : Option String} {type : Datum}
    (chosen : typeFor entries (given.map Datum.text) = .ok type) : typeInUse entries given = type := by
  cases given with
  | some word => exact Except.ok.inj chosen
  | none =>
    obtain ⟨build, buildTable, rfl⟩ := exists_build chosen
    unfold typeInUse
    rw [find?_of_tableAt buildTable, find?_single]
    rfl

theorem metadata_of_isInvalid {entries : Entries} {given : Option String} (invalid : IsInvalid entries given)
    (here root : String) :
    ∃ fault, SideFile.metadata here root entries (given.map Datum.text) = .error fault := by
  cases loads : SideFile.metadata here root entries (given.map Datum.text) with
  | error fault => exact ⟨fault, rfl⟩
  | ok found =>
    obtain ⟨version, project, type, projectTable, named, chosen, typed, -⟩ := metadata_cases loads
    exfalso
    cases invalid with
    | @version value stored unknown =>
      rw [find?_single] at stored
      have same : versionIn entries = value := congrArg (Option.getD · _) stored
      rw [same] at version
      obtain ⟨n, whole, low⟩ := (isKnownVersion_iff value).1 version
      exact unknown n whole low
    | @name value stored filled nameless =>
      rw [find?_of_tableAt projectTable, find?_single] at stored
      have same : nameIn root project = value := by
        unfold nameIn
        rw [stored]
        exact if_pos filled
      rw [same] at named
      obtain ⟨text, blank⟩ := Metadata.name?_eq_some_iff.1 named
      exact nameless ⟨_, Raw.datum.inj text, blank⟩
    | buildType unknown =>
      rw [typeInUse_of_typeFor chosen] at unknown
      cases type with
      | text word => exact unknown word (BuildType.mem_words_iff.2 ⟨_, typed⟩) rfl
      | _ => cases typed
    | project stored other => exact other project (eq_table_of_tableAt projectTable stored)
    | build stored other free =>
      rw [free] at chosen
      obtain ⟨build, buildTable, -⟩ := exists_build chosen
      exact other build (eq_table_of_tableAt buildTable stored)

section Refused

variable {read : Reader} {bench : Bench} {words : List String} {folder : String} {command : Command}
  {given : Option String} {fault : Fault}

theorem outcome_perform_of_refused (works : WorksWith command given)
    (refused : outcome (loadMetadata folder (given.map Datum.text)) bench = (.error (.fault fault), bench)) :
    outcome (perform folder command) bench = outcome (handle fault : Work Unit) bench := by
  cases works with
  | add type name headerOnly => exact outcome_guarded_of_fault (outcome_bind_error refused _)
  | build given => exact outcome_guarded_of_fault (outcome_bind_error (outcome_bind_error refused _) _)
  | run given => exact outcome_guarded_of_fault (outcome_bind_error (outcome_bind_error refused _) _)
  | clean => exact outcome_guarded_of_fault (outcome_bind_error refused _)

theorem exitCode_of_isFailure (fails : IsFailure (outcome (read.execute words) bench).1) :
    exitCode (outcome (read.status words) bench).1 = 1 ∧
      (outcome (read.status words) bench).2 = (outcome (read.execute words) bench).2 := by
  unfold Reader.status
  rw [outcome_tryCatch, outcome_bind]
  rcases ends : outcome (read.execute words) bench with ⟨result, after⟩
  rw [ends] at fails
  rcases fails with done | ⟨fault, done⟩
  · cases done
    exact ⟨rfl, rfl⟩
  · cases done
    exact ⟨rfl, rfl⟩

theorem outcome_execute (reads : read words = .ok (folder, command)) :
    outcome (read.execute words) bench = outcome (lastResort (perform folder command)) bench := by
  unfold Reader.execute
  rw [reads]

theorem isFailure_execute_of_refused (reads : read words = .ok (folder, command))
    (works : WorksWith command given)
    (refused : outcome (loadMetadata folder (given.map Datum.text)) bench = (.error (.fault fault), bench)) :
    IsFailure (outcome (read.execute words) bench).1 := by
  rw [outcome_execute reads]
  refine isFailure_lastResort ?_
  rw [outcome_perform_of_refused works refused]
  exact fails_handle fault bench

theorem kept_execute_of_refused {kept : Bench → Prop} (logs : ∀ message, Keeps kept (Work.log message))
    (reads : read words = .ok (folder, command)) (works : WorksWith command given)
    (refused : outcome (loadMetadata folder (given.map Datum.text)) bench = (.error (.fault fault), bench))
    (holds : kept bench) : kept (outcome (read.execute words) bench).2 := by
  rw [outcome_execute reads]
  refine kept_lastResort logs ?_
  rw [outcome_perform_of_refused works refused]
  exact (keeps_handle logs fault bench holds).1

/-- A command whose side file is not valid exits with status one before it does anything. -/
theorem rejects_invalid (reads : read words = .ok (folder, command))
    (works : WorksWith command given) {place : Place} {octets : List UInt8} {mode : Nat} {entries : Entries}
    (leads : Leads bench.tree bench.surroundings
      (path (Path.absolute bench.surroundings.here folder)) (.taken place (.file octets mode)))
    (stored : IsRead bench.surroundings (path (Path.absolute bench.surroundings.here folder)) octets entries)
    (invalid : IsInvalid entries given) :
    exitCode (outcome (read.status words) bench).1 = 1 ∧
      (outcome (read.status words) bench).2.started = bench.started ∧
      Logged bench (outcome (read.status words) bench).2 ∧
      ∀ spot, (∀ location, Opens bench.tree bench.surroundings bench.surroundings.logFile location →
          location.place ≠ spot) →
        (outcome (read.status words) bench).2.tree.get? spot = bench.tree.get? spot := by
  obtain ⟨fault, refused⟩ := metadata_of_isInvalid invalid bench.surroundings.here
    (Path.absolute bench.surroundings.here folder)
  have stops : outcome (loadMetadata folder (given.map Datum.text)) bench =
      (.error (.fault fault), bench) := by
    rw [outcome_loadMetadata_of_load (load_of_read leads stored), refused]
    rfl
  obtain ⟨one, same⟩ := exitCode_of_isFailure (isFailure_execute_of_refused reads works stops)
  have logged : Logged bench (outcome (read.execute words) bench).2 :=
    kept_execute_of_refused (Keeps.log .trans) reads works stops (Logged.refl bench)
  have ran : Ran bench (outcome (read.execute words) bench).2 [] :=
    kept_execute_of_refused (fun message => (startsNone_log message).keeps bench) reads works stops
      (Ran.refl bench)
  rw [same]
  refine ⟨one, ?_, logged, fun spot => logged.get?⟩
  rw [ran.started, List.append_nil]

end Refused

/-! A build type that was stored with a name no build type has. -/

def fastText : String := "[build]\ntype = \"Fast\"\n"

def fastEntries : Entries := [("build", .table [("type", .text "Fast")])]

theorem isRead_fast : IsRead {} (path (Path.absolute "/W" ".")) (Text.Utf8.encode fastText.toList) fastEntries where
  reads := by decide
  tables := by
    have read : Toml.read fastText.toList = .ok fastEntries := by with_unfolding_all rfl
    exact tablesOf_encode (by decide) read

theorem rejects_invalid_fast :
    read ["build"] = .ok (".", .build none) ∧ IsInvalid fastEntries none ∧
      exitCode (outcome (status ["build"]) (projectBench (Text.Utf8.encode fastText.toList))).1 = 1 ∧
      (outcome (status ["build"]) (projectBench (Text.Utf8.encode fastText.toList))).2.started = [] := by
  have reads : read ["build"] = .ok (".", .build none) := toOption_eq_some_iff.1 (by decide +kernel)
  have invalid : IsInvalid fastEntries none := .buildType (by
    intro word among same
    cases same
    revert among
    decide)
  have leads := (hasFile_project (Text.Utf8.encode fastText.toList)).again
  have rejected := rejects_invalid reads (.build none) leads isRead_fast invalid
  exact ⟨reads, invalid, rejected.1, rejected.2.1⟩

end JuceWorkbench.CommandLine
