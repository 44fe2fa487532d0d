import JuceWorkbench.Proofs.Scaffold.Additions
import JuceWorkbench.Proofs.SideFile.Retyping

/-! A new project is loaded as it was made: its side file is written last, at the path the loading
looks at, and its tables describe the project they were made from. -/

namespace JuceWorkbench.Scaffold
open JuceWorkbench.Path Work Project

/-! The tables of a new project. -/

section Initial

variable {here : String} {name folder kind type : Raw} {metadata : Metadata}

theorem isGiven_name (normal : metadata.IsNormal) : (Datum.text metadata.name).isGiven = true := by
  rw [Datum.isGiven, Bool.not_eq_true', Bool.eq_false_iff, Ne, String.isEmpty_iff]
  intro empty
  exact normal.named (by rw [empty]; rfl)

theorem describes_initial (normal : metadata.IsNormal) (root : String) :
    SideFile.Describes (SideFile.initial metadata) root
      [("name", .text metadata.name), ("template", .text metadata.kind.word)]
      [("type", .text metadata.buildType.word)] metadata.name metadata.buildType where
  version := rfl
  projectTable := rfl
  buildTable := rfl
  named := by
    have given : SideFile.nameIn root
        [("name", .text metadata.name), ("template", .text metadata.kind.word)] = .text metadata.name :=
      if_pos (isGiven_name normal)
    rw [given]
    exact normal.name?_name
  typed := BuildType.ofWord?_word metadata.buildType

variable (absolute : Path.isAbsolute here = true)
  (made : Metadata.make here name folder kind type = .ok metadata)
include absolute made

theorem absolute_root_of_make : Path.absolute here metadata.root = metadata.root :=
  (Metadata.isNormal_of_make absolute made).rooted.absolute_eq here

theorem metadata_initial :
    SideFile.metadata here metadata.root (SideFile.initial metadata) none = .ok metadata := by
  have normal := Metadata.isNormal_of_make absolute made
  rw [(describes_initial normal metadata.root).metadata, absolute_root_of_make absolute made]
  exact congrArg (fun kind => Except.ok { metadata with kind }) (Kind.ofWord_word metadata.kind)

theorem metadata_initial_given (other : BuildType) :
    SideFile.metadata here metadata.root (SideFile.initial metadata) (some (.text other.word)) =
      .ok { metadata with buildType := other } := by
  have normal := Metadata.isNormal_of_make absolute made
  have given : (SideFile.metadata here metadata.root (SideFile.initial metadata) _).toOption = _ :=
    (describes_initial normal metadata.root).metadata_given other.word
  rw [BuildType.ofWord?_word, Option.map_some, absolute_root_of_make absolute made] at given
  refine toOption_eq_some_iff.1 (given.trans ?_)
  exact congrArg (fun kind => some { metadata with kind, buildType := other }) (Kind.ofWord_word metadata.kind)

theorem withBuildType_of_make (other : BuildType) :
    Metadata.withBuildType here metadata (.text other.word) = .ok { metadata with buildType := other } :=
  (Metadata.isNormal_of_make absolute made).withBuildType_word here other

end Initial

/-! The side file of a new project. -/

section Saved

variable {kind : Kind} {bench laid : Bench} {root : Route} {home log : Place}

theorem sideFile_short (short : ¬FileTree.maxPathOctets < (scriptRoute root).path.utf8ByteSize) :
    ¬FileTree.maxPathOctets < (root.under SideFile.fileName isPlain_sideFile).path.utf8ByteSize := by
  have source : (sourceRoute root).path.utf8ByteSize = _ := Route.utf8ByteSize_under root isPlain_src
  have script : (scriptRoute root).path.utf8ByteSize = _ :=
    Route.utf8ByteSize_under (sourceRoute root) isPlain_scriptName
  have below : (sourceRoute root).names ≠ [] := by
    change root.names ++ ["src"] ≠ []
    simp
  have sizes : "src".utf8ByteSize = 3 ∧ scriptName.utf8ByteSize = 14 ∧ SideFile.fileName.utf8ByteSize = 16 := by
    decide
  rw [if_neg below] at script
  rw [Route.utf8ByteSize_under]
  omega

theorem Laid.opens_sideFile (project : Laid kind bench laid root home log)
    (writes : bench.surroundings.canWrite (SideFile.path root.path) = true) :
    Opens laid.tree laid.surroundings (SideFile.path root.path) (.free (home ++ [SideFile.fileName])) := by
  have path : SideFile.path root.path = _ := Route.join_path root isPlain_sideFile
  have leads := project.houses.reaches.locate isPlain_sideFile (show FileTree.IsName SideFile.fileName by decide)
    (sideFile_short project.short) (by
      intro target
      rw [project.sideFree]
      rintro ⟨⟩) laid.surroundings.place true
  rw [project.sideFree] at leads
  have clean : '\x00' ∉ root.text := fun member =>
    project.clean ((Route.prefix_under root isPlain_src).subset member)
  rw [← project.spares.surroundings] at writes
  rw [path] at writes ⊢
  exact ⟨⟨clean_under isPlain_sideFile clean (by decide), leads⟩, writes, rfl⟩

/-- Once its side file is saved, a project is loaded from the tables that were saved. -/
theorem Laid.loadMetadata_saved {metadata found : Metadata} {start : Bench} {saved : Bool}
    (project : Laid kind bench laid root home log) (rooted : metadata.root = root.path)
    (whole : Path.absolute bench.surroundings.here metadata.root = metadata.root)
    (writes : bench.surroundings.canWrite (SideFile.path metadata.root) = true)
    (reads : bench.surroundings.canRead (SideFile.path metadata.root) = true)
    (readsBack : SideFile.ReadsBack bench.surroundings.format (SideFile.initial metadata))
    (saves : outcome (SideFile.save (SideFile.initial metadata) root.path) laid = (.ok saved, start))
    {given : Option Datum} (gives : SideFile.metadata bench.surroundings.here metadata.root
      (SideFile.initial metadata) given = .ok found) :
    outcome (SideFile.loadMetadata metadata.root given) start = (.ok found, start) := by
  have surroundings := project.spares.surroundings
  rw [← surroundings] at readsBack
  obtain ⟨text, back, printed, tables, alike⟩ := readsBack
  have sidePath := congrArg SideFile.path rooted
  rw [sidePath] at writes
  have opens := project.opens_sideFile writes
  cases saves.symm.trans (SideFile.save_of_opens opens printed)
  have leads := (opens.put (Text.Utf8.encode text.toList) newFileMode).toLeads
  rw [← sidePath] at leads
  rw [← surroundings] at reads gives whole
  rw [← whole] at leads reads gives
  exact SideFile.outcome_loadMetadata_of_alike leads ⟨reads, tables⟩ alike gives

end Saved

/-- A new project is loaded as it was made, and with another build type as it was made with that one. -/
theorem loadMetadata_of_createProject {bench start : Bench} {name folder kind type : Raw}
    {metadata : Metadata} {value : String} (closed : bench.tree.Closed)
    (here : bench.tree.get? bench.surroundings.place = some .folder)
    (absolute : Path.isAbsolute bench.surroundings.here = true)
    (made : Metadata.make bench.surroundings.here name folder kind type = .ok metadata)
    (creates : outcome (createProject metadata) bench = (.ok value, start))
    (writes : bench.surroundings.canWrite (SideFile.path metadata.root) = true)
    (reads : bench.surroundings.canRead (SideFile.path metadata.root) = true)
    (readsBack : SideFile.ReadsBack bench.surroundings.format (SideFile.initial metadata)) :
    outcome (SideFile.loadMetadata metadata.root none) start = (.ok metadata, start) ∧
      ∀ other : BuildType,
        Metadata.withBuildType bench.surroundings.here metadata (.text other.word) =
          .ok { metadata with buildType := other } ∧
        outcome (SideFile.loadMetadata metadata.root (some (.text other.word))) start =
          (.ok { metadata with buildType := other }, start) := by
  obtain ⟨root, rooted⟩ := exists_root absolute made
  obtain ⟨-, home, log, laid, saved, project, saves⟩ := laid_of_createProject closed here rooted creates
  have whole := absolute_root_of_make absolute made
  refine ⟨?_, fun other => ⟨withBuildType_of_make absolute made other, ?_⟩⟩
  · exact project.loadMetadata_saved rooted whole writes reads readsBack saves (metadata_initial absolute made)
  · exact project.loadMetadata_saved rooted whole writes reads readsBack saves
      (metadata_initial_given absolute made other)

theorem readsBack_synth : SideFile.ReadsBack Toml.format (SideFile.initial synth) := by
  decide +kernel

theorem loadMetadata_of_createProject_synth : ∃ start,
    outcome (createProject synth) emptyDesk = (.ok "/W/Synth", start) ∧
      outcome (SideFile.loadMetadata "/W/Synth" none) start = (.ok synth, start) ∧
      outcome (SideFile.loadMetadata "/W/Synth" (some (.text "Release"))) start =
        (.ok { synth with buildType := .release }, start) := by
  have creates := eq_of_toOption created_synth
  obtain ⟨same, changed⟩ := loadMetadata_of_createProject closed_emptyDesk (by decide) (by decide) makes_synth
    creates (by decide) (by decide) readsBack_synth
  exact ⟨_, creates, same, (changed .release).2⟩

end JuceWorkbench.Scaffold
