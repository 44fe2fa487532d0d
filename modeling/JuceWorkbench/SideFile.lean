import JuceWorkbench.Bench.Log
import JuceWorkbench.Project.Metadata

/-! The side file of a project, which keeps its name, its template and the build type used
last. A file that cannot be read or is no document counts as empty, with the reason logged;
one that is not UTF-8 stops the work. -/

namespace JuceWorkbench.SideFile
open Project

def fileName : String := "jucebuilder.toml"
def currentVersion : Int := 1

def path (folder : String) : String := Path.join folder fileName

def load (folder : String) : Work Entries := do
  let format := (← Work.surroundings).format
  let file := path folder
  if ← Work.fileExists file then
    match ← Work.attempt (Work.readText file) with
    | .ok text =>
      match format.read text with
      | .ok entries => pure entries
      | .error (.malformed report) =>
        Work.error ("Error decoding TOML file at " ++ file ++ ": " ++ report)
        Work.info "Please check the file's format for syntax errors."
        pure []
      | .error (.broken fault) => Work.fail fault
    | .error fault =>
      if fault.kind.isFile then
        Work.error ("Error reading configuration file at " ++ file ++ ": " ++ fault.message)
        Work.info "Please check file permissions."
        pure []
      else Work.fail fault
  else pure []

/-- Writes the side file. The file is emptied before its new text is made. -/
def write (file : String) (entries : Entries) : Work Unit := do
  Work.writeText file []
  let text ← Work.ofExcept ((← Work.surroundings).format.write entries)
  Work.writeText file text.toList

def save (entries : Entries) (folder : String) : Work Bool := do
  let file := path folder
  match ← Work.attempt (write file entries) with
  | .ok _ => pure true
  | .error fault =>
    if fault.kind.isFile then
      Work.error ("Error saving configuration to " ++ file ++ ": " ++ fault.message)
      Work.info "Please check file permissions and ensure the directory is writable."
      pure false
    else Work.fail fault

def initial (metadata : Metadata) : Entries :=
  [("config_version", .integer currentVersion),
    ("project", .table [("name", .text metadata.name), ("template", .text metadata.kind.word)]),
    ("build", .table [("type", .text metadata.buildType.word)])]

/-- Whether a version is one this program knows: a whole number that is not too high, where
a truth value counts as zero or one. -/
def isKnownVersion : Datum → Bool
  | .integer n => n ≤ currentVersion
  | .boolean _ => true
  | _ => false

def tableAt (entries : Entries) (key : String) : Except Fault Entries :=
  match entries.get? key with
  | none => .ok []
  | some (.table inner) => .ok inner
  | some other => .error (.notTable other.typeName "get")

/-- The metadata a side file gives the project in the folder `root`. The name of the folder
stands in for a name that is not given, and `buildType` goes before the stored build type. -/
def metadata (here root : String) (entries : Entries) (buildType : Option Datum) :
    Except Fault Metadata := do
  let version := (entries.get? "config_version").getD (.integer currentVersion)
  if isKnownVersion version then
    let project ← tableAt entries "project"
    let name := (project.get? "name").getD .null
    let name := if name.isGiven then name else .text (Path.baseName root)
    let kind := (project.get? "template").getD .null
    let buildType ← match buildType with
      | some buildType => .ok buildType
      | none => do
        let build ← tableAt entries "build"
        .ok ((build.get? "type").getD (.text BuildType.debug.word))
    Metadata.make here name (.text root) (.known (Kind.parse kind)) buildType
  else .error (version.literalFault?.getD (.unsupportedVersion version))

def loadMetadata (folder : String) (buildType : Option Datum) : Work Metadata := do
  let root ← Work.absolute folder
  let entries ← load root
  Work.ofExcept (metadata (← Work.here) root entries buildType)

def assignmentFault : Datum → Fault
  | .list _ => .listKey
  | other => .notAssignable other.typeName

def withBuildType (entries : Entries) (buildType : Datum) : Except Fault Entries :=
  let entries :=
    if (entries.get? "config_version").isSome then entries
    else entries.put "config_version" (.integer currentVersion)
  match entries.get? "build" with
  | none => .ok (entries.put "build" (.table [("type", buildType)]))
  | some (.table build) => .ok (entries.put "build" (.table (Entries.put build "type" buildType)))
  | some other => .error (assignmentFault other)

def remember (folder : String) (buildType : Datum) : Work Bool := do
  let entries ← load folder
  save (← Work.ofExcept (withBuildType entries buildType)) folder

def find? : List String → Datum → Option Datum
  | [], datum => some datum
  | key :: keys, .table entries => (Entries.get? entries key).bind (find? keys)
  | _ :: _, _ => none

def set : List String → Datum → Entries → Except Fault Entries
  | [], _, entries => .ok entries
  | [key], value, entries => .ok (entries.put key value)
  | key :: next :: keys, value, entries =>
    match (entries.get? key).getD (.table []) with
    | .table inner => do .ok (entries.put key (.table (← set (next :: keys) value inner)))
    | other =>
      .error (if keys.isEmpty then assignmentFault other else .notTable other.typeName "setdefault")

end JuceWorkbench.SideFile
