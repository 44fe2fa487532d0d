import JuceWorkbench.Proofs.Artifact.Resolution
import JuceWorkbench.Proofs.Tree.Location

/-! The build type a program was built for. A path that lies in a folder named for the build type
mentions it, but so does a path whose other parts hold its name. Of all that mention it the first
shortest is taken, and this settles when a path in a folder of the build type is. -/

namespace JuceWorkbench.Artifact
open Project

/-- Seen from the build folder, the path lies in a folder named for the build type. -/
def LiesUnder (surroundings : Surroundings) (metadata : Metadata) (path : String) : Prop :=
  metadata.buildType.word.toList ∈
    (Path.parts (Path.relative surroundings.here path metadata.buildFolder).toList).dropLast

/-- A place is preferred to another one: its path is shorter, or as long and the walk does not come
to the other one first. -/
def Precedes (root : String) (names other : List String) : Prop :=
  (pathTo root names).length < (pathTo root other).length ∨
    (pathTo root names).length = (pathTo root other).length ∧ ¬other < names

theorem Precedes.antisymm {root : String} {names other : List String}
    (before : Precedes root names other) (after : Precedes root other names) : names = other := by
  unfold Precedes at before after
  have long : (pathTo root names).length = (pathTo root other).length := by omega
  have notAfter := (before.resolve_left (by omega)).2
  have notBefore := (after.resolve_left (by omega)).2
  exact List.le_antisymm (List.not_lt.1 notAfter) (List.not_lt.1 notBefore)

theorem LiesUnder.mentions {surroundings : Surroundings} {metadata : Metadata} {path : String}
    (under : LiesUnder surroundings metadata path) : Mentions surroundings metadata path := by
  have member := (List.dropLast_sublist _).subset under
  have found := Text.infix_joinWith ['/'] _ _ member
  rwa [Path.parts, Text.joinWith_splitOn] at found

section Configuration

variable {tree : FileTree} {surroundings : Surroundings} {metadata : Metadata} {platform : Platform}

theorem IsChoice.precedes {programs : List String → Prop} {mentions : String → Prop} {root : String}
    {names other : List String} (choice : IsChoice programs mentions root names)
    (program : programs other)
    (alike : mentions (pathTo root other) ↔ mentions (pathTo root names)) :
    Precedes root names other := by
  rcases Nat.lt_or_eq_of_le (choice.shortest other program alike) with shorter | long
  · exact Or.inl shorter
  · exact Or.inr ⟨long, choice.first other program alike long.symm⟩

/-- Once the program was built into a folder of the build type, the result mentions the build type.
It lies in such a folder unless a path that only mentions it comes before all those that do. -/
theorem resolve_of_built (names : List String)
    (survives : Survives tree surroundings metadata platform names)
    (under : LiesUnder surroundings metadata (pathTo metadata.buildFolder names)) :
    ∃ chosen warnings, resolve tree surroundings metadata platform =
        .ok ⟨candidateOf tree surroundings metadata platform chosen, warnings⟩ ∧
      Survives tree surroundings metadata platform chosen ∧
      Mentions surroundings metadata (pathTo metadata.buildFolder chosen) ∧
      (∀ other, Survives tree surroundings metadata platform other →
        Mentions surroundings metadata (pathTo metadata.buildFolder other) →
        Precedes metadata.buildFolder chosen other) ∧
      (LiesUnder surroundings metadata (pathTo metadata.buildFolder chosen) ↔
        ∃ built, Survives tree surroundings metadata platform built ∧
          LiesUnder surroundings metadata (pathTo metadata.buildFolder built) ∧
          ∀ other, Survives tree surroundings metadata platform other →
            Mentions surroundings metadata (pathTo metadata.buildFolder other) →
            ¬LiesUnder surroundings metadata (pathTo metadata.buildFolder other) →
            Precedes metadata.buildFolder built other) := by
  obtain ⟨chosen, warnings, result, choice⟩ := exists_choice_of_survives survives
  have mentions := choice.prefers names survives under.mentions
  have leads (other : List String) (program : Survives tree surroundings metadata platform other)
      (named : Mentions surroundings metadata (pathTo metadata.buildFolder other)) :
      Precedes metadata.buildFolder chosen other :=
    choice.precedes program (iff_of_true named mentions)
  refine ⟨chosen, warnings, result, choice.program, mentions, leads, ?_, ?_⟩
  · intro inside
    exact ⟨chosen, choice.program, inside, fun other program named _ => leads other program named⟩
  · rintro ⟨built, program, inside, first⟩
    refine Classical.byContradiction fun outside => ?_
    -- nothing that mentions the build type comes before the choice, so the two are one
    have same := (first chosen choice.program mentions outside).antisymm
      (leads built program inside.mentions)
    exact outside (same ▸ inside)

end Configuration

/-! A program whose own name holds that of the build type, beside the folder of the build type and
in it. -/

def debugTool : Metadata := ⟨"DebugTool", "/W", .consoleApp, .debug⟩

def debugToolTree : FileTree :=
  ⟨[([], .folder), (["W"], .folder), (["W", "jucebuilder_build"], .folder),
    (["W", "jucebuilder_build", "DebugTool"], .file [] 0o755),
    (["W", "jucebuilder_build", "Debug"], .folder),
    (["W", "jucebuilder_build", "Debug", "DebugTool"], .file [] 0o755)], by decide⟩

theorem isName_of_debugTool :
    ∀ part ∈ ["W", "jucebuilder_build", "Debug", "DebugTool"], FileTree.IsName part := by
  decide

theorem locate_debugTool_root : debugToolTree.locate true (Surroundings.place {}) debugTool.buildFolder =
    .ok (.taken ["W", "jucebuilder_build"] .folder) := by
  rw [FileTree.locate_of_parts (by decide) (by decide)
    (show _ = ["", "W", "jucebuilder_build"] by decide)]
  rw [FileTree.locateFrom_folder (isName_of_debugTool _ (by decide)) rfl,
    FileTree.locateFrom_folder (isName_of_debugTool _ (by decide)) rfl]
  rw [FileTree.locateFrom_nil]
  rfl

theorem locate_debugTool_beside :
    debugToolTree.locate true (Surroundings.place {}) (pathTo debugTool.buildFolder ["DebugTool"]) =
      .ok (.taken ["W", "jucebuilder_build", "DebugTool"] (.file [] 0o755)) := by
  rw [FileTree.locate_of_parts (by decide) (by decide)
    (show _ = ["", "W", "jucebuilder_build", "DebugTool"] by decide)]
  rw [FileTree.locateFrom_folder (isName_of_debugTool _ (by decide)) rfl,
    FileTree.locateFrom_folder (isName_of_debugTool _ (by decide)) rfl]
  exact FileTree.locateFrom_file (isName_of_debugTool _ (by decide)) [] 0o755 rfl

theorem locate_debugTool_inside :
    debugToolTree.locate true (Surroundings.place {})
        (pathTo debugTool.buildFolder ["Debug", "DebugTool"]) =
      .ok (.taken ["W", "jucebuilder_build", "Debug", "DebugTool"] (.file [] 0o755)) := by
  rw [FileTree.locate_of_parts (by decide) (by decide)
    (show _ = ["", "W", "jucebuilder_build", "Debug", "DebugTool"] by decide)]
  rw [FileTree.locateFrom_folder (isName_of_debugTool _ (by decide)) rfl,
    FileTree.locateFrom_folder (isName_of_debugTool _ (by decide)) rfl,
    FileTree.locateFrom_folder (isName_of_debugTool _ (by decide)) rfl]
  exact FileTree.locateFrom_file (isName_of_debugTool _ (by decide)) [] 0o755 rfl

theorem walks_debugTool (names : List String)
    (walks : Walks debugToolTree {} debugTool.buildFolder names) :
    names = ["DebugTool"] ∨ names = ["Debug"] ∨ names = ["Debug", "DebugTool"] := by
  obtain ⟨place, leads, reached⟩ := walks
  rw [locate_debugTool_root] at leads
  obtain rfl : ["W", "jucebuilder_build"] = place := by
    injection leads with same
    injection same
  have member := (debugToolTree.isSome_get?_iff _).1 reached.taken
  simpa [debugToolTree, reached.below] using member

theorem survives_debugTool (names : List String)
    (member : names ∈ [["DebugTool"], ["Debug", "DebugTool"]]) :
    Survives debugToolTree {} debugTool .linux names := by
  have lists : canList {} debugTool.buildFolder = true := by decide
  have deeper : canList {} (Path.join debugTool.buildFolder "Debug") = true := by decide
  simp only [List.mem_cons, List.not_mem_nil, or_false] at member
  rcases member with rfl | rfl
  · refine ⟨⟨_, locate_debugTool_root, ?_⟩, ?_, ?_⟩
    · rw [reached_cons_iff, FileTree.mem_names]
      exact ⟨lists, rfl, Or.inl rfl⟩
    · decide
    · simp only [isExecutableFile, FileTree.node?, locate_debugTool_beside]
      rfl
  · refine ⟨⟨_, locate_debugTool_root, ?_⟩, ?_, ?_⟩
    · rw [reached_cons_iff, reached_cons_iff, FileTree.mem_names, FileTree.mem_names]
      exact ⟨lists, rfl, Or.inr ⟨rfl, deeper, rfl, Or.inl rfl⟩⟩
    · decide
    · simp only [isExecutableFile, FileTree.node?, locate_debugTool_inside]
      rfl

theorem liesUnder_debugTool :
    LiesUnder {} debugTool (pathTo debugTool.buildFolder ["Debug", "DebugTool"]) := by
  unfold LiesUnder
  decide

theorem resolve_of_built_debugTool :
    Survives debugToolTree {} debugTool .linux ["Debug", "DebugTool"] ∧
      LiesUnder {} debugTool (pathTo debugTool.buildFolder ["Debug", "DebugTool"]) ∧
      ∃ chosen warnings, resolve debugToolTree {} debugTool .linux =
          .ok ⟨candidateOf debugToolTree {} debugTool .linux chosen, warnings⟩ ∧
        Mentions {} debugTool (pathTo debugTool.buildFolder chosen) := by
  have inside := survives_debugTool ["Debug", "DebugTool"] (by decide)
  obtain ⟨chosen, warnings, result, -, mentions, -, -⟩ :=
    resolve_of_built ["Debug", "DebugTool"] inside liesUnder_debugTool
  exact ⟨inside, liesUnder_debugTool, chosen, warnings, result, mentions⟩

theorem debugTool_taken_beside :
    Strategy.of debugTool.kind .linux = .binary ∧
      (∃ names, Survives debugToolTree {} debugTool .linux names ∧
        LiesUnder {} debugTool (pathTo debugTool.buildFolder names)) ∧
      ∃ found, resolve debugToolTree {} debugTool .linux = .ok found ∧
        found.artifact.path = "/W/jucebuilder_build/DebugTool" ∧
        ¬LiesUnder {} debugTool found.artifact.path := by
  have beside := survives_debugTool ["DebugTool"] (by decide)
  have inside := survives_debugTool ["Debug", "DebugTool"] (by decide)
  obtain ⟨chosen, warnings, result, choice⟩ := exists_choice_of_survives inside
  obtain rfl : chosen = ["DebugTool"] := by
    rcases walks_debugTool chosen choice.program.1 with rfl | rfl | rfl
    · rfl
    · have named : Path.baseName (pathTo debugTool.buildFolder ["Debug"]) = "DebugTool" :=
        choice.program.2.1
      exact absurd named (by decide)
    · have mentions : Mentions {} debugTool (pathTo debugTool.buildFolder ["DebugTool"]) := by
        rw [Mentions, ← Text.contains_iff]
        decide
      have short := choice.shortest ["DebugTool"] beside (iff_of_true mentions liesUnder_debugTool.mentions)
      exact absurd short (by decide)
  refine ⟨rfl, ⟨_, inside, liesUnder_debugTool⟩, _, result, ?_, ?_⟩
  · show pathTo debugTool.buildFolder ["DebugTool"] = _
    decide
  · show ¬LiesUnder {} debugTool (pathTo debugTool.buildFolder ["DebugTool"])
    unfold LiesUnder
    decide

end JuceWorkbench.Artifact
