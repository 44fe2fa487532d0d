import JuceWorkbench.CommandLine.Option
import JuceWorkbench.Project.Metadata

/-! The commands of the program and how a command line names them. -/

namespace JuceWorkbench.CommandLine
open Project

def programName : String := "jucebuilder"

inductive Command
  | create (name : String) (template : Option String) (noGit noLibrary : Bool)
  | add (type name : String) (headerOnly : Bool)
  | build (type : Option String)
  | run (type : Option String)
  | clean
  | view
  | list
  | get (key : String)
  | set (key value : String)
  | templates
  | listLogs
  | showLog (filename : Option String)
  | version
  deriving DecidableEq, Repr

def buildTypeOption : OptionSpec :=
  { names := ["--build-type", "-b"], takesValue := true, choices := buildTypeWords }

def groupShape : String := "[OPTIONS] COMMAND [ARGS]..."

def program : CommandSpec :=
  { words := [], shape := groupShape, isGroup := true
    options := [{ names := ["--path", "-p"], takesValue := true }]
    members := ["new", "add", "build", "run", "clean", "config", "list-templates", "log", "version"] }

def plain (word : String) : CommandSpec := { words := [word], shape := "[OPTIONS]" }

def createSpec : CommandSpec :=
  { words := ["new"], shape := "[OPTIONS] PROJECT_NAME"
    options := [{ names := ["--template", "-t"], takesValue := true, choices := templateWords },
      { names := ["--no-git"], takesValue := false },
      { names := ["--no-juce"], takesValue := false }]
    arguments := [{ label := "PROJECT_NAME" }] }

def addSpec : CommandSpec :=
  { words := ["add"], shape := "[OPTIONS] \x7bclass|component\x7d ELEMENT_NAME"
    options := [{ names := ["--header-only"], takesValue := false }]
    arguments := [{ label := "\x7bclass|component\x7d", choices := ["class", "component"] },
      { label := "ELEMENT_NAME" }] }

def buildSpec : CommandSpec := { plain "build" with options := [buildTypeOption] }
def runSpec : CommandSpec := { plain "run" with options := [buildTypeOption] }
def cleanSpec : CommandSpec := plain "clean"

def configSpec : CommandSpec :=
  { words := ["config"], shape := groupShape, isGroup := true
    members := ["view", "list", "get", "set"] }

def viewSpec : CommandSpec := { plain "view" with words := ["config", "view"] }
def listSpec : CommandSpec := { plain "list" with words := ["config", "list"] }

def getSpec : CommandSpec :=
  { words := ["config", "get"], shape := "[OPTIONS] KEY", arguments := [{ label := "KEY" }] }

def setSpec : CommandSpec :=
  { words := ["config", "set"], shape := "[OPTIONS] KEY VALUE"
    arguments := [{ label := "KEY" }, { label := "VALUE" }] }

def templatesSpec : CommandSpec := plain "list-templates"

def logSpec : CommandSpec :=
  { plain "log" with
    options := [{ names := ["--filename"], takesValue := true },
      { names := ["--list"], takesValue := false }] }

def versionSpec : CommandSpec := plain "version"

/-- A command line that is not carried out, at the command that stops it. -/
structure Refusal where
  command : CommandSpec
  fault : UsageFault
  deriving DecidableEq, Repr

def CommandSpec.call (command : CommandSpec) : String :=
  String.intercalate " " (programName :: command.words)

def CommandSpec.usage (command : CommandSpec) : String :=
  "Usage: " ++ command.call ++ " " ++ command.shape

def Refusal.text (refusal : Refusal) : String :=
  let usage :=
    if refusal.fault.isBrief then ""
    else
      refusal.command.usage ++ "\nTry '" ++ refusal.command.call ++ " --help' for help.\n\n"
  usage ++ "Error: " ++ refusal.fault.message

def refuseAt {α : Type} (command : CommandSpec) : Except UsageFault α → Except Refusal α
  | .ok value => .ok value
  | .error fault => .error ⟨command, fault⟩

def CommandSpec.read (command : CommandSpec) (words : List String) : Except Refusal Accepted :=
  refuseAt command do
    let (given, rest) ← command.part words
    command.accept given rest

/-- The options of a group, the name of the command after them and the words behind it. -/
def CommandSpec.readGroup (command : CommandSpec) (words : List String) :
    Except Refusal (List Given × String × List String) :=
  refuseAt command do
    let (given, rest) ← command.part words
    if given.any (·.option == helpOption) then throw .helpWanted
    match rest with
    | [] => .error .missingCommand
    | name :: rest => .ok (given, name, rest)

/-- Why a name is no command of a group: it may have been meant as an option. -/
def CommandSpec.refuseName {α : Type} (command : CommandSpec) (name : String)
    (words : List String) : Except Refusal α :=
  refuseAt command do
    if ['-'].isPrefixOf name.toList then
      let (given, _) ← command.part (name :: words)
      if given.any (·.option == helpOption) then throw .helpWanted
    .error (.noSuchCommand name (suggestions name command.members))

def readConfig (words : List String) : Except Refusal Command := do
  let (_, name, rest) ← configSpec.readGroup words
  match name with
  | "view" => do
    let _ ← viewSpec.read rest
    .ok .view
  | "list" => do
    let _ ← listSpec.read rest
    .ok .list
  | "get" => do
    let accepted ← getSpec.read rest
    .ok (.get (accepted.arguments.headD ""))
  | "set" => do
    let accepted ← setSpec.read rest
    .ok (.set (accepted.arguments.headD "") (accepted.arguments.getD 1 ""))
  | other => configSpec.refuseName other rest

def readNamed (name : String) (words : List String) : Except Refusal Command :=
  match name with
  | "new" => do
    let accepted ← createSpec.read words
    .ok (.create (accepted.arguments.headD "") (accepted.value? "--template")
      (accepted.isSet "--no-git") (accepted.isSet "--no-juce"))
  | "add" => do
    let accepted ← addSpec.read words
    .ok (.add (accepted.arguments.headD "") (accepted.arguments.getD 1 "")
      (accepted.isSet "--header-only"))
  | "build" => do .ok (.build ((← buildSpec.read words).value? "--build-type"))
  | "run" => do .ok (.run ((← runSpec.read words).value? "--build-type"))
  | "clean" => do
    let _ ← cleanSpec.read words
    .ok .clean
  | "config" => readConfig words
  | "list-templates" => do
    let _ ← templatesSpec.read words
    .ok .templates
  | "log" => do
    let accepted ← logSpec.read words
    .ok (if accepted.isSet "--list" then .listLogs else .showLog (accepted.value? "--filename"))
  | "version" => do
    let _ ← versionSpec.read words
    .ok .version
  | other => program.refuseName other words

/-- The folder of the project and the command that a command line names. -/
def read (words : List String) : Except Refusal (String × Command) := do
  let (given, name, rest) ← program.readGroup words
  let command ← readNamed name rest
  let folder := (given.reverse.head?.map (·.value)).getD "."
  .ok (folder, command)

end JuceWorkbench.CommandLine
