import JuceWorkbench.Bench.Command

/-! The git repository of a project: its ignore file, the library as a submodule and the first
commit. -/

namespace JuceWorkbench.Repository

def libraryUrl : String := "https://github.com/juce-framework/JUCE.git"
def libraryPath : String := "modules/JUCE"

def ignored : List String := ["modules/", "jucebuilder_build/", "build/", "compile_commands.json"]

def git (root : String) (action : String) (words : List String) (streamed : Bool) : Work Unit := do
  let finished ← Work.runCommand ("git" :: action :: words) (some root) streamed
  if finished.code ≠ 0 then
    let output := if finished.errors.isEmpty then finished.output else finished.errors
    Work.fail (.repository action (String.ofList (Text.trim output.toList)))

/-- The entries of the ignore file that no line of a text is, blanks aside. -/
def missingEntries (text : List Char) : List String :=
  let present := (Text.lineBodies text).map Text.trim
  ignored.filter fun entry => !present.contains entry.toList

def ignoreAddition (text : List Char) : List Char :=
  let missing := missingEntries text
  let gap := if missing ≠ [] ∧ text ≠ [] ∧ text.getLast? ≠ some '\n' then ['\n'] else []
  gap ++ missing.flatMap fun entry => entry.toList ++ ['\n']

def writeIgnoreFile (root : String) : Work String := do
  let path := Path.join root ".gitignore"
  let text ← if ← Work.fileExists path then Work.readText path else pure []
  Work.appendText path (ignoreAddition text)
  return path

/-- Adds the library as a submodule; false if something stands in its place. -/
def addLibrary (root : String) : Work Bool := do
  if ← Work.fileExists (Path.join root libraryPath) then
    Work.info "JUCE already present, skipping clone."
    return false
  else
    Work.info "Cloning JUCE from GitHub... this may take some minutes. Please be patient!"
    git root "submodule" ["add", libraryUrl, libraryPath] true
    Work.success "JUCE added as a submodule."
    return true

def start (root : String) (withLibrary : Bool) : Work Unit := do
  Work.info "Initializing Git repository..."
  git root "init" [] false
  let _ ← writeIgnoreFile root
  if withLibrary then
    let _ ← addLibrary root
  git root "add" ["--all"] false
  git root "commit" ["-m", "Initial commit"] false
  Work.success "Git repository initialized with an initial commit."

end JuceWorkbench.Repository
