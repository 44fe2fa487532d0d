import JuceWorkbench.Fault
import JuceWorkbench.Path

/-! What is known about a project: its name, its folder, the kind of program it makes and the
build type in use. `Metadata.make` accepts loosely typed values and refuses a blank name, an
unknown build type and a folder that is no text, in this order; any kind that is not the name
of a template counts as unknown. -/

namespace JuceWorkbench.Project

inductive Kind
  | guiApplication
  | audioPlugin
  | consoleApp
  | unknown
  deriving DecidableEq, Repr

namespace Kind

def word : Kind → String
  | .guiApplication => "GuiApplication"
  | .audioPlugin => "AudioPlugin"
  | .consoleApp => "ConsoleApp"
  | .unknown => "Unknown"

def templates : List Kind := [.guiApplication, .audioPlugin, .consoleApp]

def ofWord (word : String) : Kind := (templates.find? fun kind => kind.word == word).getD .unknown

def constant : Kind → String
  | .guiApplication => "GUI_APPLICATION"
  | .audioPlugin => "AUDIO_PLUGIN"
  | .consoleApp => "CONSOLE_APP"
  | .unknown => "UNKNOWN"

/-- Whether the program is an application bundle on macOS. -/
def isBundle : Kind → Bool
  | .guiApplication => true
  | .audioPlugin => true
  | _ => false

theorem ofWord_word (kind : Kind) : ofWord kind.word = kind := by cases kind <;> decide

end Kind

/-- A field of metadata before it is checked: a loosely typed value, or a kind itself. -/
inductive Raw
  | datum (value : Datum)
  | known (kind : Kind)
  deriving Repr

namespace Raw

@[match_pattern]
def text (value : String) : Raw := .datum (.text value)

instance : Coe Datum Raw := ⟨.datum⟩
instance : Coe (List Datum) (List Raw) := ⟨List.map .datum⟩

def typeName : Raw → String
  | .datum value => value.typeName
  | .known _ => "ProjectKind"

def shown : Raw → String
  | .datum value => value.shown
  | .known kind => "ProjectKind." ++ kind.constant

def shownFault? : Raw → Option Fault
  | .datum value => value.shownFault?
  | .known _ => none

end Raw

/-- A kind stays as it is, and a word names the kind of its template. -/
def Kind.parse : Raw → Kind
  | .known kind => kind
  | .text word => ofWord word
  | _ => .unknown

@[simp] theorem Kind.parse_known (kind : Kind) : parse (.known kind) = kind := rfl

inductive BuildType
  | debug
  | release
  | relWithDebInfo
  | minSizeRel
  deriving DecidableEq, Repr

namespace BuildType

def all : List BuildType := [.debug, .release, .relWithDebInfo, .minSizeRel]

def word : BuildType → String
  | .debug => "Debug"
  | .release => "Release"
  | .relWithDebInfo => "RelWithDebInfo"
  | .minSizeRel => "MinSizeRel"

def ofWord? (word : String) : Option BuildType := all.find? fun type => type.word == word

def parse? : Raw → Option BuildType
  | .text word => ofWord? word
  | _ => none

theorem ofWord?_word (type : BuildType) : ofWord? type.word = some type := by
  cases type <;> decide

theorem all_words : all.map word = buildTypeWords := rfl

end BuildType

structure Metadata where
  name : String
  root : String
  kind : Kind
  buildType : BuildType
  deriving DecidableEq, Repr

namespace Metadata

def name? : Raw → Option String
  | .text name => if Text.trim name.toList = [] then none else some name
  | _ => none

def make (here : String) (name root kind buildType : Raw) : Except Fault Metadata :=
  match name? name with
  | none => .error .nameMissing
  | some name =>
    match BuildType.parse? buildType with
    | none => .error (buildType.shownFault?.getD (.invalidBuildType buildType.shown))
    | some buildType =>
      match root with
      | .text root => .ok ⟨name, Path.absolute here root, Kind.parse kind, buildType⟩
      | other => .error (.notPath other.typeName)

/-- Name and folder are required; kind and build type have defaults. -/
def ofValues (here : String) : List Raw → Except Fault Metadata
  | [name, root] => make here name root (.known .unknown) (.text BuildType.debug.word)
  | [name, root, kind] => make here name root kind (.text BuildType.debug.word)
  | [name, root, kind, buildType] => make here name root kind buildType
  | _ => .error .wrongArguments

def withBuildType (here : String) (metadata : Metadata) (buildType : Raw) :
    Except Fault Metadata :=
  make here (.text metadata.name) (.text metadata.root) (.known metadata.kind) buildType

def buildFolder (metadata : Metadata) : String := Path.join metadata.root "jucebuilder_build"
def sourceFolder (metadata : Metadata) : String := Path.join metadata.root "src"

end Metadata
end JuceWorkbench.Project
