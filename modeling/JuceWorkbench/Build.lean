import JuceWorkbench.Artifact.Survey
import JuceWorkbench.Bench.Command

/-! Building a project with CMake and running the program it makes. The steps are configure,
build and launch, and the first that fails ends the work. -/

namespace JuceWorkbench.Build
open Project

def databaseName : String := "compile_commands.json"

def configureWords (metadata : Metadata) : List String :=
  ["cmake", "-S", metadata.root, "-B", metadata.buildFolder,
    "-DCMAKE_BUILD_TYPE=" ++ metadata.buildType.word, "-DCMAKE_EXPORT_COMPILE_COMMANDS=ON"]

def buildWords (metadata : Metadata) : List String :=
  ["cmake", "--build", metadata.buildFolder, "--config", metadata.buildType.word]

def launchWords (strategy : Artifact.Strategy) (path : String) : List String :=
  match strategy with
  | .bundle => ["open", path]
  | .binary => [path]

/-- Copies the compilation database to the project folder, if the build made one. -/
def copyDatabase (metadata : Metadata) : Work Unit := do
  let source := Path.join metadata.buildFolder databaseName
  if ← Work.fileExists source then
    Work.copyFile source (Path.join metadata.root databaseName)
    Work.info ("Copied " ++ databaseName ++ " to the project root.")
  else
    Work.warn (databaseName ++ " not found in " ++ metadata.buildFolder ++ "; skipping copy.")

def runStep (name : String) (words : List String) : Work Unit := do
  let finished ← Work.runCommand words none true
  if finished.code ≠ 0 then Work.fail (.buildFailed name finished.code)

def build (metadata : Metadata) (platform : Platform) : Work Unit := do
  Work.info ("Building project '" ++ metadata.name ++ "' (" ++ metadata.buildType.word ++ ")...")
  Work.makeFolders metadata.buildFolder true
  Work.phase "Configuring"
  runStep "configure" (configureWords metadata)
  Work.phase "Compiling"
  runStep "build" (buildWords metadata)
  if platform ≠ .windows then copyDatabase metadata
  Work.success "Build successful!"

def resolve (metadata : Metadata) (platform : Platform) : Work Artifact.Resolution := do
  Work.ofExcept (Artifact.resolve (← Work.tree) (← Work.surroundings) metadata platform)

def findProgram (metadata : Metadata) (platform : Platform) : Work (Artifact.Strategy × String) := do
  let strategy := Artifact.Strategy.of metadata.kind platform
  Work.debug ("Resolving executable for '" ++ metadata.name ++ "' (template: " ++
    metadata.kind.word ++ ", build type: " ++ metadata.buildType.word ++ ", strategy: " ++
    strategy.word ++ ")")
  let resolution ← resolve metadata platform
  resolution.warnings.forM Work.warn
  return (strategy, resolution.artifact.path)

def run (metadata : Metadata) (platform : Platform) : Work Int := do
  build metadata platform
  Work.info ("Running project '" ++ metadata.name ++ "'...")
  let (strategy, path) ← findProgram metadata platform
  Work.info ("Starting executable: " ++ path)
  let finished ← Work.runCommand (launchWords strategy path) (some metadata.buildFolder) true
  Work.info ("Execution completed with exit code " ++ toString finished.code ++ ".")
  return finished.code

end JuceWorkbench.Build
