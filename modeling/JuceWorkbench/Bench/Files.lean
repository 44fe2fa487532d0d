import JuceWorkbench.Bench.Basic
import JuceWorkbench.Text.Line

/-! File work on the bench. Paths are texts, seen from the folder the bench stands in, and a
refusal names the path as it was given. -/

namespace JuceWorkbench

def placeAt (path : String) : Place := (FileTree.pathParts path).filter (· ≠ "")

def Surroundings.place (surroundings : Surroundings) : Place := placeAt surroundings.here

def Bench.fresh (surroundings : Surroundings) : Bench :=
  let tree := FileTree.bare.plant surroundings.place .folder
  { tree := tree.plant (placeAt surroundings.logFolder) .folder, surroundings }

def newFileMode : Nat := 0o644

namespace Work

def refuse {α : Type} (reason : FileReason) (path : String) : Work α :=
  fail (.file { reason, path })

/-- Where a path leads; a path with a null character leads nowhere at all. -/
def locate (follow : Bool) (path : String) : Work FileTree.Location := do
  if path.toList.contains '\x00' then fail .nullInPath
  else
    match (← tree).locate follow (← surroundings).place path with
    | .ok location => pure location
    | .error reason => refuse reason path

def fileExists (path : String) : Work Bool :=
  return (← tree).exists? (← surroundings).place path

def isFolder (path : String) : Work Bool :=
  return (← tree).isFolder (← surroundings).place path

def isFile (path : String) : Work Bool :=
  return (← tree).isFile (← surroundings).place path

def absolute (path : String) : Work String := return Path.absolute (← here) path

def readOctets (path : String) : Work (List UInt8) := do
  if (← surroundings).unreadable.contains (← absolute path) then refuse .denied path
  else
    match ← locate true path with
    | .taken _ (.file contents _) => pure contents
    | .taken _ .folder => refuse .isFolder path
    | _ => refuse .missing path

/-- A file as text, each character as it stands. -/
def readExact (path : String) : Work (List Char) := do
  match Text.Utf8.decode (← readOctets path) with
  | .ok text => pure text
  | .error sequence => fail (.malformedText sequence)

def readText (path : String) : Work (List Char) := return Text.unifyBreaks (← readExact path)

def openForWriting (path : String) : Work (Place × List UInt8 × Nat) := do
  if (← surroundings).unwritable.contains (← absolute path) then refuse .denied path
  else
    match ← locate true path with
    | .taken place (.file contents mode) => pure (place, contents, mode)
    | .taken _ .folder => refuse .isFolder path
    | .taken _ (.link _) => refuse .missing path
    | .free place => pure (place, [], newFileMode)

def writeOctets (path : String) (octets : List UInt8) : Work Unit := do
  let (place, _, mode) ← openForWriting path
  setTree ((← tree).put place (.file octets mode))

def appendOctets (path : String) (octets : List UInt8) : Work Unit := do
  let (place, contents, mode) ← openForWriting path
  setTree ((← tree).put place (.file (contents ++ octets) mode))

def writeText (path : String) (text : List Char) : Work Unit :=
  writeOctets path (Text.Utf8.encode text)

def appendText (path : String) (text : List Char) : Work Unit :=
  appendOctets path (Text.Utf8.encode text)

def makeFolder (path : String) : Work Unit := do
  match ← locate false path with
  | .free place => setTree ((← tree).put place .folder)
  | .taken _ _ => refuse .occupied path

/-- A step of `makeFolders`: what stands in the way is no fault if `allowed` says so. -/
def makeFolderUnless (allowed : FileReason → Work Bool) (path : String) : Work Unit := do
  match ← attempt (makeFolder path) with
  | .ok _ => pure ()
  | .error (.file fault) => if ← allowed fault.reason then pure () else fail (.file fault)
  | .error fault => fail fault

def foldersAbove (path : String) : List String :=
  let rec climb : Nat → String → List String
    | 0, _ => []
    | fuel + 1, path =>
      let folder := Path.folderName path
      if folder.isEmpty || folder == path then [] else folder :: climb fuel folder
  climb path.length path

/-- Those of the given paths in front of the first one that exists. -/
def missingUpTo : List String → Work (List String)
  | [] => pure []
  | path :: more => do
    if ← fileExists path then pure [] else return path :: (← missingUpTo more)

/-- Makes a folder and the missing folders above it. A folder that is there already is a
fault unless `mayExist` is set. -/
def makeFolders (path : String) (mayExist : Bool) : Work Unit := do
  let missing ← missingUpTo (foldersAbove path)
  missing.reverse.forM fun folder => makeFolderUnless
    (fun reason => return reason == .occupied || (mayExist && (← isFolder folder))) folder
  makeFolderUnless (fun _ => return mayExist && (← isFolder path)) path

def removeFile (path : String) : Work Unit := do
  match ← locate false path with
  | .free _ => refuse .missing path
  | .taken _ .folder => refuse .isFolder path
  | .taken place _ => setTree ((← tree).erase place)

def moveFile (source target : String) : Work Unit := do
  let refuseMove (reason : FileReason) : Work Unit :=
    fail (.file { reason, path := source, target := some target })
  let tree ← tree
  let here := (← surroundings).place
  match tree.locate false here source, tree.locate false here target with
  | .error reason, _ => refuseMove reason
  | .ok (.free _), _ => refuseMove .missing
  | _, .error reason => refuseMove reason
  | .ok (.taken _ _), .ok (.taken _ .folder) => refuseMove .isFolder
  | .ok (.taken old node), .ok (.taken new _) => setTree ((tree.erase old).put new node)
  | .ok (.taken old node), .ok (.free new) => setTree ((tree.erase old).put new node)

/-- Copies contents and permission bits of a file; into the target if that is a folder. -/
def copyFile (source target : String) : Work Unit := do
  let target := if ← isFolder target then Path.join target (Path.baseName source) else target
  match (← tree).locate true (← surroundings).place source,
      (← tree).locate true (← surroundings).place target with
  | .ok (.taken a _), .ok (.taken b _) => if a = b then fail (.sameFile source target)
  | _, _ => pure ()
  let contents ← readOctets source
  let (place, _, _) ← openForWriting target
  let mode := match (← tree).node? (← surroundings).place source with
    | some (.file _ mode) => mode
    | _ => newFileMode
  setTree ((← tree).put place (.file contents mode))

def openFolder (path : String) : Work Place := do
  if (← surroundings).unlistable.contains (← absolute path) then refuse .denied path
  else
    match ← locate true path with
    | .taken place .folder => pure place
    | .taken _ _ => refuse .notFolder path
    | .free _ => refuse .missing path

def listFolder (path : String) : Work (List String) := do
  let place ← openFolder path
  return (← tree).listed (← surroundings).rank place

/-- A step of the removal of a folder: its names are listed, or what stands at a place goes. -/
inductive Removal
  | enter (folder : Place)
  | erase (place : Place)
  deriving DecidableEq, Repr

def removals (tree : FileTree) (rank : Place → String → Nat) : Nat → Place → List Removal
  | 0, place => [.erase place]
  | depth + 1, place =>
    .enter place :: (tree.listed rank place).flatMap (fun name =>
      if tree.get? (place ++ [name]) = some .folder then
        removals tree rank depth (place ++ [name])
      else [.erase (place ++ [name])]) ++ [.erase place]

def placeText (folder : Place) (path : String) (place : Place) : String :=
  (place.drop folder.length).foldl Path.join path

/-- Removes a folder with everything below it; a symbolic link to a folder is refused, and so
is a folder on the way that cannot be listed. -/
def removeFolder (path : String) : Work Unit := do
  match ← locate false path with
  | .free _ => refuse .missing path
  | .taken _ (.link _) => fail .linkedFolder
  | .taken _ (.file _ _) => refuse .notFolder path
  | .taken folder .folder =>
    let tree ← tree
    let surroundings ← surroundings
    (removals tree surroundings.rank (tree.depth + 1) folder).forM fun
      | .enter place => do
        let text := placeText folder path place
        if surroundings.unlistable.contains (Path.absolute surroundings.here text) then
          refuse .denied text
      | .erase place => do setTree ((← Work.tree).erase place)

end Work
end JuceWorkbench
