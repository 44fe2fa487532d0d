import JuceWorkbench.Toml.Printer
import JuceWorkbench.Tree.Location

/-! The bench a command works at: the file tree, what was written to the two output streams,
the commands started, and the surroundings it cannot change. A piece of work may stop early,
with a fault or with an exit status; what it did up to there stays done. -/

namespace JuceWorkbench

/-- How a started command ends: it was not found under the name given, or it wrote output,
changed the tree and left an exit code. -/
inductive Ending
  | notFound (name : String)
  | ended (output errors : String) (code : Int) (changes : List (Place × Option Node))
  deriving Repr

def Ending.quiet : Ending := .ended "" "" 0 []

/-- A command that was started: its words, the folder it runs in if one was named, and
whether its output is passed on line by line. -/
structure Started where
  words : List String
  folder : Option String
  streamed : Bool
  deriving DecidableEq, Repr

/-- What surrounds the bench. Files are named by normal absolute paths, log files by name. -/
structure Surroundings where
  host : Host := ⟨"posix", "linux"⟩
  here : String := "/W"
  logFolder : String := "/L"
  now : Moment := ⟨⟨2024, 1, 2⟩, ⟨3, 4, 5, 0⟩, none⟩
  unreadable : List String := []
  unwritable : List String := []
  unlistable : List String := []
  /-- The order in which a folder lists its names. -/
  rank : Place → String → Nat := fun _ _ => 0
  /-- When log files were created, in nanoseconds; one that has none has vanished. -/
  created : List (String × Option Int) := []
  createdElse : Int := 1000000000000000000000
  version : Option String := some "0.1.0"
  /-- The format of the side file. -/
  format : Format := Toml.format
  /-- Whether plain output keeps its colours. -/
  coloured : Bool := false

structure Bench where
  tree : FileTree
  surroundings : Surroundings
  /-- The endings of the commands that will be started next. -/
  endings : List Ending := []
  started : List Started := []
  input : List Char := []
  output : String := ""
  errors : String := ""

inductive Stop
  | fault (fault : Fault)
  | exit (status : Int)
  deriving Repr

abbrev Work := ExceptT Stop (StateM Bench)

namespace Work

def fail {α : Type} (fault : Fault) : Work α := throw (.fault fault)

def exit {α : Type} (status : Int) : Work α := throw (.exit status)

def ofExcept {α : Type} : Except Fault α → Work α
  | .ok value => pure value
  | .error fault => fail fault

def surroundings : Work Surroundings := return (← get).surroundings

def tree : Work FileTree := return (← get).tree

def setTree (tree : FileTree) : Work Unit := modify fun bench => { bench with tree }

def here : Work String := return (← surroundings).here

/-- A fault of the work if it ends in one, and its value else; exits pass. -/
def attempt {α : Type} (work : Work α) : Work (Except Fault α) :=
  tryCatch (.ok <$> work) fun
    | .fault fault => pure (.error fault)
    | .exit status => exit status

def print (text : String) : Work Unit := modify fun bench => { bench with output := bench.output ++ text }

def printError (text : String) : Work Unit :=
  modify fun bench => { bench with errors := bench.errors ++ text }

end Work
end JuceWorkbench
