import JuceWorkbench.Scaffold.Templates
import JuceWorkbench.Script.File
import JuceWorkbench.SideFile

/-! Laying out new projects, and adding classes and components to them. -/

namespace JuceWorkbench.Scaffold
open Project

def scriptName : String := "CMakeLists.txt"

def rootScript (metadata : Metadata) : String :=
  "cmake_minimum_required(VERSION 3.24)\nproject(" ++ metadata.name ++
    " VERSION 0.0.1)\nadd_subdirectory(modules/JUCE)\nadd_subdirectory(src)\n"

def sourceFiles : Kind → List TemplateFile
  | .guiApplication => guiApplicationFiles
  | .audioPlugin => audioPluginFiles
  | .consoleApp => consoleAppFiles
  | .unknown => []

def writeFile (path text : String) : Work Unit := do
  Work.writeText path text.toList
  Work.step ("Created file: " ++ path) 2

def createProject (metadata : Metadata) : Work String := do
  if metadata.kind = .unknown then Work.fail .unknownTemplate
  if ← Work.fileExists metadata.root then Work.fail (.projectExists metadata.root)
  Work.info ("Creating project '" ++ metadata.name ++ "' at " ++ metadata.root ++ "...")
  Work.makeFolders metadata.sourceFolder false
  writeFile (Path.join metadata.root scriptName) (rootScript metadata)
  (sourceFiles metadata.kind).forM fun file =>
    writeFile (Path.join metadata.sourceFolder file.name) file.text
  let _ ← SideFile.save (SideFile.initial metadata) metadata.root
  return metadata.root

/-- What can be added to a project: plain classes, and components, whose class names end in
`Component`. -/
inductive Element
  | plainClass
  | component
  deriving DecidableEq, Repr

namespace Element

def all : List Element := [.plainClass, .component]

def word : Element → String
  | .plainClass => "class"
  | .component => "component"

def ofWord? (word : String) : Option Element := all.find? fun element => element.word == word

def className (element : Element) (name : String) : String :=
  match element with
  | .plainClass => name
  | .component => name ++ "Component"

def header : Element → String
  | .plainClass => classHeader
  | .component => componentHeader

def source : Element → String
  | .plainClass => classSource
  | .component => componentSource

end Element

def named (template className : String) : String :=
  String.ofList (Text.replaceAll "Template".toList className.toList template.toList)

def addElement (metadata : Metadata) (type name : String) (headerOnly : Bool) :
    Work (List String) := do
  match Element.ofWord? type with
  | none => Work.fail (.unknownElement type)
  | some element =>
    let className := element.className name
    let folder := metadata.sourceFolder
    let header := Path.join folder (className ++ ".h")
    let source := Path.join folder (className ++ ".cpp")
    if (← Work.fileExists header) || (← Work.fileExists source) then
      Work.fail (.elementExists type className)
    Work.makeFolders folder true
    writeFile header (named element.header className)
    if !headerOnly then
      writeFile source (named element.source className)
      let _ ← Script.register (Path.join folder scriptName)
        (.text (className ++ ".cpp"))
    Work.success (type ++ " '" ++ className ++ "' added successfully!")
    return if headerOnly then [header] else [header, source]

end JuceWorkbench.Scaffold
