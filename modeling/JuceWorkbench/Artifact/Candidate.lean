import JuceWorkbench.Project.Metadata

/-! Paths of a build output as candidates for the program that was built. A candidate is a
path with the few facts the choice depends on. The binary of a project is the executable file
of its name; an application bundle is told by its extension and by the project's name in its
own. Of the candidates left the shortest path that mentions the build type wins, and if none
does the shortest path. -/

namespace JuceWorkbench.Artifact
open Project

def bundleExtension : String := ".app"

def standaloneMark : List Char := "standalone".toList

inductive Strategy
  | bundle
  | binary
  deriving DecidableEq, Repr

def Strategy.word : Strategy → String
  | .bundle => "bundle"
  | .binary => "binary"

def Strategy.of (kind : Kind) (platform : Platform) : Strategy :=
  if platform = .macos ∧ kind.isBundle then .bundle else .binary

structure Candidate where
  path : String
  relative : String
  name : String
  extension : String
  isFolder : Bool
  isExecutable : Bool
  mentionsBuildType : Bool
  mentionsProject : Bool
  deriving DecidableEq, Repr

namespace Candidate

/-- The candidate at a path. The build type is looked for below `root` only, when there is
one. -/
def tag (here : String) (metadata : Metadata) (root path : String) (isFolder isExecutable : Bool) :
    Candidate :=
  let name := Path.baseName path
  let relative := if root.isEmpty then path else Path.relative here path root
  { path, relative, name, extension := Path.extension path, isFolder, isExecutable
    mentionsBuildType := Text.contains relative.toList metadata.buildType.word.toList
    mentionsProject := Text.contains name.toList metadata.name.toList }

def isBinary (metadata : Metadata) (platform : Platform) (candidate : Candidate) : Bool :=
  candidate.name == platform.executableName metadata.name && candidate.isExecutable

def isBundle (metadata : Metadata) (candidate : Candidate) : Bool :=
  candidate.extension == bundleExtension && candidate.mentionsProject &&
    (metadata.kind != .audioPlugin ||
      Text.contains (Text.asciiLower candidate.relative.toList) standaloneMark)

def fits (metadata : Metadata) (platform : Platform) (candidate : Candidate) : Bool :=
  match Strategy.of metadata.kind platform with
  | .bundle => candidate.isBundle metadata
  | .binary => candidate.isBinary metadata platform

def byLength (candidates : List Candidate) : List Candidate :=
  candidates.mergeSort fun a b => decide (a.path.length ≤ b.path.length)

/-- The shortest path that mentions the build type, else the shortest path. -/
def best? (candidates : List Candidate) : Option Candidate :=
  let ranked := byLength candidates
  (ranked.find? (·.mentionsBuildType)).or ranked.head?

end Candidate
end JuceWorkbench.Artifact
