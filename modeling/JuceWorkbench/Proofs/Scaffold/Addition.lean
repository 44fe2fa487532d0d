import JuceWorkbench.Proofs.Bench.Outcome
import JuceWorkbench.Scaffold.Project

/-! The stages of an addition: it is refused for its type or for files that are there, or it makes
the source folder, writes the header, and then writes the source and registers it. -/

namespace JuceWorkbench.Scaffold
open Project Work

def headerPath (metadata : Metadata) (element : Element) (name : String) : String :=
  Path.join metadata.sourceFolder (element.className name ++ ".h")

def sourcePath (metadata : Metadata) (element : Element) (name : String) : String :=
  Path.join metadata.sourceFolder (element.className name ++ ".cpp")

def scriptPath (metadata : Metadata) : String := Path.join metadata.sourceFolder scriptName

def isPresent (bench : Bench) (metadata : Metadata) (element : Element) (name : String) : Bool :=
  bench.tree.exists? bench.surroundings.place (headerPath metadata element name) ||
    bench.tree.exists? bench.surroundings.place (sourcePath metadata element name)

/-- What is left of an addition once its header is written. -/
def finishElement (metadata : Metadata) (element : Element) (type name : String)
    (headerOnly : Bool) : Work (List String) := do
  if !headerOnly then
    writeFile (sourcePath metadata element name) (named element.source (element.className name))
    let _ ← Script.register (scriptPath metadata) (.text (element.className name ++ ".cpp"))
  Work.success (type ++ " '" ++ element.className name ++ "' added successfully!")
  return if headerOnly then [headerPath metadata element name]
    else [headerPath metadata element name, sourcePath metadata element name]

def layElement (metadata : Metadata) (element : Element) (type name : String)
    (headerOnly : Bool) : Work (List String) := do
  Work.makeFolders metadata.sourceFolder true
  writeFile (headerPath metadata element name) (named element.header (element.className name))
  finishElement metadata element type name headerOnly

variable {metadata : Metadata} {type name : String} {headerOnly : Bool} {element : Element}
  {bench : Bench}

theorem outcome_addElement_of_unknown (unknown : Element.ofWord? type = none) (bench : Bench) :
    outcome (addElement metadata type name headerOnly) bench =
      (.error (.fault (.unknownElement type)), bench) := by
  unfold addElement
  rw [unknown]
  rfl

theorem outcome_addElement_of_known (known : Element.ofWord? type = some element) (bench : Bench) :
    outcome (addElement metadata type name headerOnly) bench =
      if isPresent bench metadata element name then
        (.error (.fault (.elementExists type (element.className name))), bench)
      else outcome (layElement metadata element type name headerOnly) bench := by
  have looks : ∀ path, outcome (fileExists path) bench =
      (.ok (bench.tree.exists? bench.surroundings.place path), bench) := fun path => rfl
  unfold addElement
  rw [known]
  dsimp only
  rw [outcome_bind_ok (looks _), outcome_bind_ok (looks _)]
  unfold isPresent headerPath sourcePath
  split
  · rfl
  · rfl

theorem outcome_addElement_of_present (known : Element.ofWord? type = some element)
    (present : isPresent bench metadata element name = true) :
    outcome (addElement metadata type name headerOnly) bench =
      (.error (.fault (.elementExists type (element.className name))), bench) := by
  rw [outcome_addElement_of_known known, if_pos present]

theorem outcome_addElement_of_absent (known : Element.ofWord? type = some element)
    (absent : isPresent bench metadata element name = false) :
    outcome (addElement metadata type name headerOnly) bench =
      outcome (layElement metadata element type name headerOnly) bench := by
  rw [outcome_addElement_of_known known, if_neg (Bool.eq_false_iff.1 absent)]

end JuceWorkbench.Scaffold
