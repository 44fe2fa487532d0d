import JuceWorkbench.Bench.LogFolder
import JuceWorkbench.Build
import JuceWorkbench.CommandLine.Command
import JuceWorkbench.CommandLine.Guard
import JuceWorkbench.CommandLine.Json
import JuceWorkbench.Repository
import JuceWorkbench.Scaffold.Project

/-! Running a command line. What a command prints apart from the log loses its colours unless
the output shows them. -/

namespace JuceWorkbench.CommandLine
open Project

def isParameter (c : Char) : Bool := '0' ≤ c && c ≤ '?'

def isIntermediate (c : Char) : Bool := ' ' ≤ c && c ≤ '/'

/-- What follows an escape sequence whose start was read: its parameters, the characters behind
them, and one character that ends it. -/
def afterSequence? (text : List Char) : Option (List Char) :=
  match (text.dropWhile isParameter).dropWhile isIntermediate with
  | c :: rest => if '@' ≤ c ∧ c ≤ '~' then some rest else none
  | [] => none

theorem afterSequence?_length {text rest : List Char} (h : afterSequence? text = some rest) :
    rest.length < text.length := by
  unfold afterSequence? at h
  have shorter := ((List.dropWhile_sublist (l := text.dropWhile isParameter) isIntermediate).trans
    (List.dropWhile_sublist (l := text) isParameter)).length_le
  split at h
  · rename_i c more found
    split at h
    · cases h
      rw [found] at shorter
      simp only [List.length_cons] at shorter
      omega
    · cases h
  · cases h

def withoutColours (text : List Char) : List Char :=
  match text with
  | [] => []
  | '\x1b' :: '[' :: rest =>
    match _found : afterSequence? rest with
    | some more => withoutColours more
    | none => '\x1b' :: '[' :: withoutColours rest
  | c :: rest => c :: withoutColours rest
  termination_by text.length
  decreasing_by
  · have := afterSequence?_length _found
    simp only [List.length_cons]
    omega
  all_goals simp only [List.length_cons]; omega

def plainText (text : String) : Work String := do
  if (← Work.surroundings).coloured then return text
  else return String.ofList (withoutColours text.toList)

def echo (text : String) : Work Unit := do Work.print (← plainText (text ++ "\n"))

def templatePrompt : String :=
  "Template (" ++ commaList templateWords ++ ") [" ++ Kind.guiApplication.word ++ "]: "

/-- Asks for a template on the lines of the input until one names a template; an empty line
stands for the first. -/
def askTemplate : List (List Char) → Work String
  | [] => do
    Work.print templatePrompt
    Work.fail (.raised .abort "")
  | line :: more => do
    let answer := String.ofList (line.filter (· ≠ '\n'))
    Work.print (templatePrompt ++ answer ++ "\n")
    let word := if answer.isEmpty then Kind.guiApplication.word else answer
    if templateWords.contains word then return word
    else
      echo ("Error: " ++ notAmong word templateWords)
      askTemplate more

def chooseTemplate (template : Option String) : Work String := do
  match template with
  | some word => return word
  | none => askTemplate (Text.feedLines (Text.unifyBreaks (← get).input))

def create (folder name : String) (template : Option String) (noGit noLibrary : Bool) :
    Work Unit := do
  let template ← chooseTemplate template
  let metadata ← Work.ofExcept (Metadata.make (← Work.here) (.text name)
    (.text (Path.join folder name)) (.text template) (.text BuildType.debug.word))
  let root ← Scaffold.createProject metadata
  if !noGit then Repository.start root (!noLibrary)
  Work.success ("Project '" ++ name ++ "' created successfully!")
  Work.info ("Next steps: cd " ++ root ++ " && jucebuilder run")

def add (folder type name : String) (headerOnly : Bool) : Work Unit := do
  let metadata ← SideFile.loadMetadata folder none
  let _ ← Scaffold.addElement metadata type name headerOnly

def metadataForBuild (folder : String) (type : Option String) : Work Metadata := do
  let metadata ← SideFile.loadMetadata folder (type.map Datum.text)
  let _ ← SideFile.remember metadata.root (.text metadata.buildType.word)
  return metadata

def hostPlatform : Work Platform := return (← Work.surroundings).host.platform

def build (folder : String) (type : Option String) : Work Unit := do
  let metadata ← metadataForBuild folder type
  Build.build metadata (← hostPlatform)

def run (folder : String) (type : Option String) : Work Unit := do
  let metadata ← metadataForBuild folder type
  let code ← Build.run metadata (← hostPlatform)
  if code ≠ 0 then Work.exit code

def clean (folder : String) : Work Unit := do
  let metadata ← SideFile.loadMetadata folder none
  Work.info "Cleaning build artifacts..."
  let hasFolder ← Work.isFolder metadata.buildFolder
  if hasFolder then
    Work.info ("Attempting to remove directory " ++ metadata.buildFolder ++ "...")
    Work.removeFolder metadata.buildFolder
    Work.success ("Removed directory " ++ metadata.buildFolder)
  let database := Path.join metadata.root Build.databaseName
  let hasDatabase ← Work.isFile database
  if hasDatabase then
    Work.removeFile database
    Work.success ("Removed file " ++ database)
  let count := (if hasFolder then 1 else 0) + (if hasDatabase then 1 else 0)
  if 0 < count then
    Work.success ("Cleaning complete. Removed " ++ toString count ++ " items.")
  else Work.info "Project is already clean."

def loadOrReport (folder : String) : Work (Option Entries) := do
  let entries ← SideFile.load folder
  if entries.isEmpty then
    Work.error "Error: No jucebuilder.toml found. Please run 'jucebuilder new' first."
    return none
  else return some entries

def view (folder : String) : Work Unit := do
  match ← loadOrReport folder with
  | none => pure ()
  | some _ =>
    let path := SideFile.path folder
    match ← Work.attempt (Work.readText path) with
    | .ok text => echo (String.ofList text)
    | .error fault =>
      if fault.kind.isFile then
        Work.error ("Error reading jucebuilder.toml at " ++ path ++ ": " ++ fault.message)
        Work.info "Please check file permissions."
      else Work.fail fault

def list (folder : String) : Work Unit := do
  match ← loadOrReport folder with
  | none => pure ()
  | some entries => echo (← Work.ofExcept (json 0 (.table entries)))

def keyParts (key : String) : List String := (Text.splitOn '.' key.toList).map String.ofList

def getValue (folder key : String) : Work Unit := do
  match ← loadOrReport folder with
  | none => pure ()
  | some entries =>
    match SideFile.find? (keyParts key) (.table entries) with
    | some value =>
      value.shownFault?.forM Work.fail
      echo value.shown
    | none => Work.error ("Error: Key '" ++ key ++ "' not found in jucebuilder.toml")

def allowedValues (key : String) : Option (List String) :=
  if key = "build.type" then some buildTypeWords
  else if key = "project.template" then some templateWords
  else none

def setValue (folder key value : String) : Work Unit := do
  match ← loadOrReport folder with
  | none => pure ()
  | some entries =>
    match (allowedValues key).filter fun allowed => !allowed.contains value with
    | some allowed =>
      Work.error ("Error: Invalid value '" ++ value ++ "' for '" ++ key ++
        "'. Expected one of: " ++ commaList allowed ++ ".")
    | none =>
      let entries ← Work.ofExcept (SideFile.set (keyParts key) (.text value) entries)
      if ← SideFile.save entries folder then
        Work.info ("Set '" ++ key ++ "' to '" ++ value ++ "'")

def listTemplates : Work Unit := do
  Work.info "Available templates:"
  templateWords.forM fun word => Work.step word 2

def noLogFiles : String := "No log files found."

def listLogs : Work Unit := do
  let folder := (← Work.surroundings).logFolder
  let names ← if ← Work.fileExists folder then Work.listFolder folder else pure []
  match (names.filter LogFolder.isLogName).mergeSort fun a b => decide (a ≤ b) with
  | [] => echo noLogFiles
  | names =>
    echo "Available log files:"
    names.forM fun name => echo ("  " ++ name)

def lineColour (line : List Char) : String :=
  let levels : List Level := [.warning, .error, .traceback, .debug, .success]
  match levels.find? fun level => Text.contains line ("[" ++ level.word ++ "]").toList with
  | some level => level.colour
  | none => Level.cyan

/-- The lines of a log that can be shown, and the malformed sequence that ends them early. What
was read in front of it is shown as far as its lines are complete. -/
def shownLines (octets : List UInt8) : List (List Char) × Option Text.Utf8.Malformed :=
  match Text.Utf8.decodeBlocks [] (Text.Utf8.blocks octets) with
  | (text, none) => (Text.feedLines (Text.unifyBreaks text), none)
  | (text, some malformed) =>
    let text := if text.getLast? = some '\r' then text.dropLast else text
    let lines := Text.feedLines (Text.unifyBreaks text)
    (lines.filter fun line => line.getLast? = some '\n', some malformed)

def showLog (filename : Option String) : Work Unit := do
  let folder := (← Work.surroundings).logFolder
  let path ← match filename.filter (!·.isEmpty) with
    | some name => pure (some (Path.join folder name))
    | none => LogFolder.latest?
  match path with
  | none => echo noLogFiles
  | some path =>
    if ← Work.fileExists path then
      echo ("Displaying log file: " ++ path)
      let (lines, malformed) := shownLines (← Work.readOctets path)
      lines.forM fun line =>
        echo (lineColour line ++ String.ofList (Text.trimRight line) ++ Level.reset)
      malformed.forM fun sequence => Work.fail (.malformedText sequence)
    else echo noLogFiles

def showVersion : Work Unit := do
  match (← Work.surroundings).version with
  | some version => Work.info ("jucebuilder version " ++ version)
  | none =>
    Work.error
      "Error: Could not determine the version of jucebuilder. Is it installed correctly?"

def perform (folder : String) : Command → Work Unit
  | .create name template noGit noLibrary => guarded (create folder name template noGit noLibrary)
  | .add type name headerOnly => guarded (add folder type name headerOnly)
  | .build type => guarded (build folder type)
  | .run type => guarded (run folder type)
  | .clean => guarded (clean folder)
  | .view => view folder
  | .list => list folder
  | .get key => getValue folder key
  | .set key value => setValue folder key value
  | .templates => listTemplates
  | .listLogs => listLogs
  | .showLog filename => showLog filename
  | .version => showVersion

/-- What makes a folder and a command out of the words of a command line. -/
abbrev Reader := List String → Except Refusal (String × Command)

def Reader.execute (read : Reader) (words : List String) : Work Unit :=
  match read words with
  | .ok (folder, command) => lastResort (perform folder command)
  | .error refusal => do
    if refusal.fault = .helpWanted then echo refusal.command.usage
    else
      Work.printError (← plainText (refusal.text ++ "\n"))
      Work.exit 2

def asks (words : List String) : Bool :=
  match read words with
  | .ok (_, .create _ none _ _) => true
  | _ => false

def Reader.status (read : Reader) (words : List String) : Work Int :=
  tryCatch (do read.execute words; return 0) fun
    | .exit status => return status
    | .fault fault => Work.fail fault

def status (words : List String) : Work Int := Reader.status read words

/-- The exit status as the low eight bits that are left of it; one for work that failed. -/
def exitCode : Except Stop Int → UInt32
  | .ok status => (status % 256).toNat.toUInt32
  | .error (.exit status) => (status % 256).toNat.toUInt32
  | .error (.fault _) => 1

end JuceWorkbench.CommandLine
