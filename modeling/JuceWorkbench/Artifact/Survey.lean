import JuceWorkbench.Artifact.Candidate
import JuceWorkbench.Bench.Files

/-! A survey lists everything below a folder, parents before children and siblings in the
order of their names. Symbolic links are listed and not entered. A folder below that cannot
be listed is left out with a warning; the first folder has to be there. -/

namespace JuceWorkbench.Artifact
open Project

/-- Whether the names in a folder may be read. A path that is too long opens no folder. -/
def canList (surroundings : Surroundings) (folder : String) : Bool :=
  !surroundings.unlistable.contains (Path.absolute surroundings.here folder) &&
    decide (folder.utf8ByteSize ≤ FileTree.maxPathOctets)

def listingReason (folder : String) : FileReason :=
  if FileTree.maxPathOctets < folder.utf8ByteSize then .nameTooLong else .denied

structure Survey where
  paths : List String
  warnings : List String
  deriving DecidableEq, Repr

namespace Survey

def append (first second : Survey) : Survey :=
  ⟨first.paths ++ second.paths, first.warnings ++ second.warnings⟩

def warningFor (folder : String) : String :=
  "Skipped unreadable directory " ++ folder ++ ": " ++ (listingReason folder).text

def skipped (folder : String) : Survey := ⟨[], [warningFor folder]⟩

/-- What stands below the folder at `place`, which is called `folder`, `depth` levels deep. -/
def below (tree : FileTree) (listable : String → Bool) : Nat → Place → String → Survey
  | 0, _, _ => ⟨[], []⟩
  | depth + 1, place, folder =>
    if listable folder then
      (tree.names place).foldr (fun name more =>
        let path := Path.join folder name
        let inside : Survey :=
          if tree.get? (place ++ [name]) = some .folder then
            below tree listable depth (place ++ [name]) path
          else ⟨[], []⟩
        append ⟨[path], []⟩ (append inside more)) ⟨[], []⟩
    else skipped folder

def of (tree : FileTree) (surroundings : Surroundings) (root : String) : Except Fault Survey :=
  match tree.locate true surroundings.place root with
  | .ok (.taken place .folder) =>
    if canList surroundings root then
      .ok (below tree (canList surroundings) (tree.depth + 1) place root)
    else .error (.rootMissing root)
  | _ => .error (.rootMissing root)

end Survey

def isExecutableFile (tree : FileTree) (surroundings : Surroundings) (platform : Platform)
    (path : String) : Bool :=
  match tree.node? surroundings.place path with
  | some (.file _ mode) =>
    match platform with
    | .windows => Text.asciiLower (Path.extension path).toList == ".exe".toList
    | .other => true
    | _ => mode &&& 0o111 != 0
  | _ => false

def candidateAt (tree : FileTree) (surroundings : Surroundings) (metadata : Metadata)
    (platform : Platform) (root path : String) : Candidate :=
  Candidate.tag surroundings.here metadata root path
    (tree.isFolder surroundings.place path)
    (isExecutableFile tree surroundings platform path)

structure Resolution where
  artifact : Candidate
  warnings : List String
  deriving DecidableEq, Repr

def candidates (tree : FileTree) (surroundings : Surroundings) (metadata : Metadata)
    (platform : Platform) (root : String) : Except Fault (List Candidate × List String) :=
  (Survey.of tree surroundings root).map fun survey =>
    (survey.paths.map (candidateAt tree surroundings metadata platform root), survey.warnings)

def resolve (tree : FileTree) (surroundings : Surroundings) (metadata : Metadata)
    (platform : Platform) : Except Fault Resolution := do
  let root := metadata.buildFolder
  let (found, warnings) ← candidates tree surroundings metadata platform root
  match Candidate.best? (found.filter (·.fits metadata platform)) with
  | some artifact => .ok ⟨artifact, warnings⟩
  | none => .error (.artifactNotFound metadata.buildType.word platform root)

end JuceWorkbench.Artifact
