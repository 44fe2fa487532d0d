import JuceWorkbench.Proofs.SideFile.Acceptance
import JuceWorkbench.Proofs.SideFile.Remembering

/-! Tables that are given another build type. Whether it is remembered or set, the project keeps its
name and its kind, and the new type is the one in use, also once the tables were written and read. -/

namespace JuceWorkbench

namespace SideFile
open Project

/-- Tables in which a build type was remembered or set. -/
def Retypes (entries : Entries) (type : BuildType) (new : Entries) : Prop :=
  withBuildType entries (.text type.word) = .ok new ∨
    set ["build", "type"] (.text type.word) entries = .ok new

section Retypes

variable {here root : String} {entries project build new back : Entries} {name : String}
  {type other : BuildType} {found : Metadata}

theorem isGiven_table (entries : Entries) : Datum.isGiven (.table entries) = !entries.isEmpty := rfl

theorem isEmpty_of_alike (alike : (Datum.table new).isAlike (.table back) = true) :
    new.isEmpty = back.isEmpty := by
  have given := Datum.isGiven_of_alike alike
  rw [isGiven_table, isGiven_table] at given
  exact Bool.not_inj given

theorem Describes.versioned (describes : Describes entries root project build name type) :
    Describes (versioned entries) root project build name type where
  version := by
    have same : versionIn (SideFile.versioned entries) = versionIn entries := by
      unfold SideFile.versioned
      split
      · rfl
      · rename_i missing
        rw [Bool.not_eq_true, Option.isSome_eq_false_iff, Option.isNone_iff_eq_none] at missing
        unfold versionIn
        rw [Entries.get?_put_self, missing]
        rfl
    rw [same]
    exact describes.version
  projectTable := by
    unfold tableAt
    rw [get?_versioned entries (by decide)]
    exact describes.projectTable
  buildTable := by
    unfold tableAt
    rw [get?_versioned entries (by decide)]
    exact describes.buildTable
  named := describes.named
  typed := describes.typed

theorem Describes.retype (describes : Describes entries root project build name type) (other : BuildType) :
    Describes (entries.put "build" (.table (build.put "type" (.text other.word)))) root project
      (build.put "type" (.text other.word)) name other where
  version := by
    rw [versionIn_put_of_ne entries _ (by decide)]
    exact describes.version
  projectTable := by
    rw [tableAt_put_of_ne entries _ (by decide)]
    exact describes.projectTable
  buildTable := tableAt_put_self ..
  named := describes.named
  typed := by
    rw [typeIn_put_self]
    exact BuildType.ofWord?_word other

theorem Describes.withBuildType (describes : Describes entries root project build name type)
    (other : BuildType) : withBuildType entries (.text other.word) =
      .ok ((SideFile.versioned entries).put "build" (.table (build.put "type" (.text other.word)))) := by
  have table := (tableAt_eq_ok_iff _ _).1 describes.versioned.buildTable
  have version : (if (entries.get? "config_version").isSome then entries
    else entries.put "config_version" (.integer currentVersion)) = SideFile.versioned entries := rfl
  unfold SideFile.withBuildType
  dsimp only
  rw [version]
  split
  · rename_i missing
    rw [missing] at table
    cases table
    rfl
  · rename_i there
    rw [there] at table
    cases table
    rfl
  · rename_i value differs there
    rw [there, Option.getD_some] at table
    exact absurd table (differs build)

theorem Describes.set (describes : Describes entries root project build name type) (other : BuildType) :
    SideFile.set ["build", "type"] (.text other.word) entries =
      .ok (entries.put "build" (.table (build.put "type" (.text other.word)))) := by
  rw [SideFile.set, (tableAt_eq_ok_iff _ _).1 describes.buildTable]
  rfl

theorem Describes.retypes (describes : Describes entries root project build name type)
    (retypes : Retypes entries other new) :
    new ≠ [] ∧ ∃ build, Describes new root project build name other := by
  rcases retypes with done | done
  · rw [describes.withBuildType] at done
    obtain rfl := Except.ok.inj done
    exact ⟨put_ne_nil _ _ _, _, describes.versioned.retype other⟩
  · rw [describes.set] at done
    obtain rfl := Except.ok.inj done
    exact ⟨put_ne_nil _ _ _, _, describes.retype other⟩

theorem Describes.metadata_given (describes : Describes entries root project build name type)
    (word : String) : (SideFile.metadata here root entries (some (.text word))).toOption =
      (BuildType.ofWord? word).map fun other =>
        ⟨name, Path.absolute here root, kindIn project, other⟩ := by
  have version := describes.version
  have named := describes.named
  unfold versionIn at version
  unfold nameIn at named
  unfold SideFile.metadata
  simp only [version, if_true, describes.projectTable, bind, Except.bind, Metadata.make, named,
    BuildType.parse?, kindIn]
  cases BuildType.ofWord? word <;> rfl

/-- Tables that were given another build type, then written and read, give the same project with it. -/
theorem metadata_of_retypes (loads : SideFile.metadata here root entries none = .ok found)
    (retypes : Retypes entries other new) (alike : (Datum.table new).isAlike (.table back) = true) :
    back.isEmpty = false ∧ SideFile.metadata here root back none = .ok { found with buildType := other } := by
  obtain ⟨project, build, describes, whole⟩ := exists_describes loads
  obtain ⟨filled, changed, again⟩ := describes.retypes retypes
  refine ⟨?_, ?_⟩
  · rw [← isEmpty_of_alike alike]
    simpa using filled
  · rw [← toOption_eq_some_iff, ← toOption_metadata_of_alike alike, again.metadata, whole]
    rfl

end Retypes

theorem outcome_loadMetadata_of_alike {bench : Bench} {folder : String} {place : Place}
    {octets : List UInt8} {mode : Nat} {entries back : Entries} {given : Option Datum} {found : Metadata}
    (leads : Leads bench.tree bench.surroundings (path (Path.absolute bench.surroundings.here folder))
      (.taken place (.file octets mode)))
    (read : IsRead bench.surroundings (path (Path.absolute bench.surroundings.here folder)) octets back)
    (alike : (Datum.table entries).isAlike (.table back) = true)
    (gives : SideFile.metadata bench.surroundings.here (Path.absolute bench.surroundings.here folder) entries
      given = .ok found) : Work.outcome (loadMetadata folder given) bench = (.ok found, bench) := by
  have same := toOption_metadata_of_alike alike bench.surroundings.here
    (Path.absolute bench.surroundings.here folder) given
  rw [gives] at same
  rw [outcome_loadMetadata_of_load (load_of_read leads read) given, toOption_eq_some_iff.1 same.symm]
  rfl

end SideFile

end JuceWorkbench
