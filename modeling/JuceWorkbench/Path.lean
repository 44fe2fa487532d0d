import JuceWorkbench.Text.Blank

/-! Path texts. A path is a text of parts with slashes between them; everything here is
arithmetic on that text and looks at no file. Two slashes in front, and only two, are kept
apart from one. -/

namespace JuceWorkbench.Path

def dotDot : List Char := ['.', '.']

def parts (path : List Char) : List (List Char) := Text.splitOn '/' path

/-- How many slashes a normal path keeps in front: none, one, or two if there are exactly two. -/
def leadingSlashes : List Char → Nat
  | '/' :: '/' :: '/' :: _ => 1
  | '/' :: '/' :: _ => 2
  | '/' :: _ => 1
  | _ => 0

/-- One part more on a stack of parts whose top is the last one. Empty parts and single dots
add nothing; two dots take the top away, stay when there is nothing to take, and vanish at
the root. -/
def step (rooted : Bool) (stack : List (List Char)) (part : List Char) : List (List Char) :=
  if part = [] ∨ part = ['.'] then stack
  else if part ≠ dotDot then part :: stack
  else
    match stack with
    | [] => if rooted then [] else [part]
    | top :: below => if top = dotDot then part :: stack else below

def normalParts (rooted : Bool) (parts : List (List Char)) : List (List Char) :=
  (parts.foldl (step rooted) []).reverse

def normalText (path : List Char) : List Char :=
  let slashes := leadingSlashes path
  let body := Text.joinWith ['/'] (normalParts (0 < slashes) (parts path))
  let text := List.replicate slashes '/' ++ body
  if text = [] then ['.'] else text

def normalize (path : String) : String := String.ofList (normalText path.toList)

def isAbsolute (path : String) : Bool := path.toList.head? == some '/'

def join (folder path : String) : String :=
  if isAbsolute path then path
  else if folder.isEmpty || folder.toList.getLast? == some '/' then folder ++ path
  else folder ++ "/" ++ path

def absolute (here path : String) : String := normalize (join here path)

def baseName (path : String) : String :=
  String.ofList (path.toList.reverse.takeWhile (· ≠ '/')).reverse

/-- The part in front of the last slash, without the slashes it ends in unless there is
nothing else. -/
def folderName (path : String) : String :=
  let front := (path.toList.reverse.dropWhile (· ≠ '/')).reverse
  if front.all (· = '/') then String.ofList front
  else String.ofList (front.reverse.dropWhile (· = '/')).reverse

/-- The last dot of the last part and what follows it. Dots that the part starts with do not
count. -/
def extension (path : String) : String :=
  let name := (baseName path).toList.dropWhile (· = '.')
  if name.contains '.' then
    String.ofList ('.' :: (name.reverse.takeWhile (· ≠ '.')).reverse)
  else ""

def absoluteParts (here path : String) : List (List Char) :=
  (parts (absolute here path).toList).filter (· ≠ [])

def commonLength : List (List Char) → List (List Char) → Nat
  | a :: as, b :: bs => if a = b then commonLength as bs + 1 else 0
  | _, _ => 0

def relative (here path start : String) : String :=
  let source := absoluteParts here start
  let target := absoluteParts here path
  let shared := commonLength source target
  let way := List.replicate (source.length - shared) dotDot ++ target.drop shared
  if way = [] then "." else String.ofList (Text.joinWith ['/'] way)

end JuceWorkbench.Path
