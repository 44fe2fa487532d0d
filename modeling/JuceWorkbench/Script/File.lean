import JuceWorkbench.Bench.Log
import JuceWorkbench.Script.Injection

/-! Build scripts as files. A script is written next to its place and then moved there, so a
refusal leaves the old one; its line endings are kept. -/

namespace JuceWorkbench.Script

def injectEntry (document : List Char) (entry : Datum) : Except Fault Injection :=
  match entry with
  | .text text =>
    match inject document text.toList with
    | some injection => .ok injection
    | none => .error (.invalidEntry entry)
  | other => .error (.invalidEntry other)

def injectValue (document entry : Datum) : Except Fault Injection :=
  match document with
  | .text document => injectEntry document.toList entry
  | other => .error (.notScript other.typeName)

/-- The path of the text that is to replace a script. -/
def draftPath (path : String) : String := path ++ ".tmp"

def discardDraft (path : String) : Work Unit := do
  if ← Work.fileExists (draftPath path) then
    let _ ← Work.attempt (Work.removeFile (draftPath path))

/-- Makes a text the script at `path`: its draft is written and moved over it. -/
def writeBy (move : String → String → Work Unit) (path : String) (text : List Char) : Work Unit := do
  let replace : Work Unit := do
    Work.writeText (draftPath path) text
    move (draftPath path) path
  match ← Work.attempt replace with
  | .ok _ => pure ()
  | .error fault =>
    if fault.kind.isFile then discardDraft path
    Work.fail fault

def write : String → List Char → Work Unit := writeBy Work.moveFile

/-- Registers an entry in the script at `path`. The file is written only if its text changed. -/
def registerBy (write : String → List Char → Work Unit) (path : String) (entry : Datum) :
    Work Injection := do
  let text ← Work.readExact path
  let injection ← Work.ofExcept (injectEntry text entry)
  if injection.changed then
    write path injection.text
    match injection.warning? with
    | some warning => Work.warn ("Warning: " ++ warning)
    | none => pure ()
    Work.info ("Added " ++ entry.shown ++ " to " ++ path)
  else Work.info (entry.shown ++ " is already listed in " ++ path)
  return injection

def register : String → Datum → Work Injection := registerBy write

end JuceWorkbench.Script
