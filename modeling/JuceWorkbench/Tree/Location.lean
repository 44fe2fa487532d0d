import JuceWorkbench.Tree.Basic
import JuceWorkbench.Fault
import JuceWorkbench.Path

/-! Where a path text leads in a file tree. Symbolic links on the way are followed, at most
forty of them; the last one only if the caller says so. A path that ends in a slash leads to
a folder. Names and paths have a greatest length in octets. -/

namespace JuceWorkbench.FileTree

/-- What a path leads to: a node at its place, or a free place in an existing folder. -/
inductive Location
  | taken (place : Place) (node : Node)
  | free (place : Place)
  deriving DecidableEq, Repr

def maxLinks : Nat := 40
def maxNameOctets : Nat := 255
def maxPathOctets : Nat := 4095

def pathParts (path : String) : List String := (Path.parts path.toList).map String.ofList

/-- Follows the parts of a path from the folder `here` up to its end or to a link, where `pass`
goes on with the parts of the target and what is left of the path. -/
def walk (tree : FileTree) (follow : Bool) (pass : Place → List String → Except FileReason Location)
    (here : Place) (parts : List String) : Except FileReason Location :=
  match parts with
  | [] => .ok (.taken here .folder)
  | part :: rest =>
    if part = "" ∨ part = "." then walk tree follow pass here rest
    else if part = ".." then walk tree follow pass here.dropLast rest
    else if maxNameOctets < part.utf8ByteSize then .error .nameTooLong
    else
      let place := here ++ [part]
      match tree.get? place with
      | none => if rest = [] then .ok (.free place) else .error .missing
      | some .folder => walk tree follow pass place rest
      | some (.file contents mode) =>
        if rest = [] then .ok (.taken place (.file contents mode)) else .error .notFolder
      | some (.link target) =>
        if rest = [] ∧ !follow then .ok (.taken place (.link target))
        else pass (if Path.isAbsolute target then [] else here) (pathParts target ++ rest)

def locateFrom (tree : FileTree) (follow : Bool) :
    Nat → Place → List String → Except FileReason Location
  | 0 => walk tree follow fun _ _ => .error .linkLoop
  | links + 1 => walk tree follow (locateFrom tree follow links)

def locate (tree : FileTree) (follow : Bool) (here : Place) (path : String) :
    Except FileReason Location :=
  if path.isEmpty then .error .missing
  else if maxPathOctets < path.utf8ByteSize then .error .nameTooLong
  else locateFrom tree follow maxLinks (if Path.isAbsolute path then [] else here) (pathParts path)

def node? (tree : FileTree) (here : Place) (path : String) : Option Node :=
  match tree.locate true here path with
  | .ok (.taken _ node) => some node
  | _ => none

def isFolder (tree : FileTree) (here : Place) (path : String) : Bool :=
  tree.node? here path == some .folder

def isFile (tree : FileTree) (here : Place) (path : String) : Bool :=
  match tree.node? here path with
  | some (.file _ _) => true
  | _ => false

def exists? (tree : FileTree) (here : Place) (path : String) : Bool :=
  (tree.node? here path).isSome

end JuceWorkbench.FileTree
