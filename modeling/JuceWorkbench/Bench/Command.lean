import JuceWorkbench.Bench.Log
import JuceWorkbench.Text.ShellWord

/-! Commands outside the program, such as a build tool: each is shown, started and waited
for. How it ends is read off the list of endings the bench holds. -/

namespace JuceWorkbench

def commandLine (words : List String) : String :=
  String.ofList (Text.shellLine (words.map String.toList))

structure Finished where
  output : String
  errors : String
  code : Int
  deriving DecidableEq, Repr

/-- A change to the tree: a node at a place, or nothing there and below it any more. -/
def FileTree.change (tree : FileTree) (place : Place) : Option Node → FileTree
  | some node => tree.plant place node
  | none => tree.eraseUnder place

namespace Work

/-- The ending of the next command; a quiet success when none is left. -/
def nextEnding : Work Ending := do
  let bench ← get
  match bench.endings with
  | [] => pure .quiet
  | ending :: more =>
    set { bench with endings := more }
    pure ending

/-- What is known of a command that ended. With `streamed` each line of its output is logged and its
error output is left out. -/
def conclude (streamed : Bool) : Ending → Work Finished
  | .notFound name => refuse .missing name
  | .ended output errors code changes => do
    setTree (changes.foldl (fun tree change => tree.change change.1 change.2) (← tree))
    if streamed then
      (Text.feedLines output.toList).forM fun line => step (String.ofList (Text.trimRight line)) 2
      return ⟨output, "", code⟩
    else return ⟨output, errors, code⟩

/-- Takes a missing file for the command itself, with the code -1. The file may as well be the log. -/
def orNotFound (work : Work Finished) : Work Finished := do
  match ← attempt work with
  | .ok finished => return finished
  | .error (.file fault) =>
    if fault.reason = .missing then
      error ("Command not found: " ++ fault.path)
      return ⟨"", fault.message, -1⟩
    else fail (.file fault)
  | .error fault => fail fault

def runCommand (words : List String) (folder : Option String) (streamed : Bool) : Work Finished := do
  step ("+ " ++ commandLine words) 0
  modify fun bench => { bench with started := bench.started ++ [{ words, folder, streamed }] }
  let ending ← nextEnding
  orNotFound (conclude streamed ending)

end Work
end JuceWorkbench
