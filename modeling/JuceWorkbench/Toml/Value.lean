import JuceWorkbench.Toml.Quotation
import JuceWorkbench.Toml.Scalar

/-! The values of a side file and the lines that assign them. A list and an inline table are
parted at their commas, and parts that a comma inside a text or a value has separated are put
together again. Values are read with a bound on how deep they stand in each other. -/

namespace JuceWorkbench.Toml

/-! Lists. -/

def isTextList (list : List Char) : Bool :=
  (Text.trim (list.drop 1)).head?.any isQuote

inductive TableSearch
  | inside (found : List Char)
  | behind
  | between

/-- The inline tables of a list, from a place on; `depth` counts open braces, and what was read
of a table stands in reverse. Behind a table one character is passed over. -/
def findTables (depth : Nat) (isQuoted : Bool) : TableSearch → List Char → List (List Char)
  | _, [] => []
  | .behind, _ :: rest => findTables depth isQuoted .between rest
  | .between, c :: rest =>
    findTables depth isQuoted (if c = '\x7b' then .inside [c] else .between) rest
  | .inside found, c :: rest =>
    let isEscaped := isQuoted && endsEscaping found.reverse
    let isQuoted := if isQuote c && !isEscaped then !isQuoted else isQuoted
    let depth := if !isQuoted && c = '\x7b' then depth + 1 else depth
    if isQuoted || c ≠ '\x7d' then findTables depth isQuoted (.inside (c :: found)) rest
    else if 1 < depth then findTables (depth - 1) isQuoted (.inside (c :: found)) rest
    else (c :: found).reverse :: findTables depth isQuoted .behind rest

def inlineTables (list : List Char) : List (List Char) :=
  let first := list.getD 1 ' '
  findTables (if first = '\x7b' then 1 else 0) false (.inside [first]) (list.drop 2).dropLast

def isBounded (part : List Char) : Bool :=
  part.isEmpty || (part.getLast? = part.head? && !endsEscaping (part.drop 1).dropLast)

def isTorn (part : List Char) : Bool :=
  let part := Text.trim part
  let quote := part.head?
  let back := part.reverse
  !isBounded part || (2 < part.length && part[1]? = quote && part[2]? = quote &&
    back[1]? ≠ quote && back[2]? ≠ quote)

/-- Puts the parts of texts together; `isGrowing` if the first part has been put together
already. The last part is as it is, but a text that is torn there has no end. -/
def mendTexts (isGrowing : Bool) (part : List Char) :
    List (List Char) → Reading (List (List Char))
  | [] => if isGrowing && isTorn part then stop (.outOfRange "list") else .ok [part]
  | next :: more =>
    if isTorn part then mendTexts true (part ++ ',' :: next) more
    else (mendTexts false next more).map (part :: ·)

/-- The parts of a list of lists: commas inside inner brackets do not count. -/
def partNested (depth : Int) (part : List Char) : List Char → List (List Char)
  | [] => [part.reverse]
  | c :: rest =>
    if c = ',' ∧ depth = 0 then part.reverse :: partNested depth [] rest
    else
      let depth := if c = '[' then depth + 1 else if c = ']' then depth - 1 else depth
      partNested depth (c :: part) rest

def listParts (list : List Char) : Reading (List (List Char)) :=
  let list := Text.trim list
  let inner := list.drop 1
  if inner.contains '[' && (Text.trim (inner.takeWhile (· ≠ '['))).isEmpty then
    .ok (partNested 0 [] (shave 1 list))
  else if (Text.trim inner).head? = some '\x7b' then .ok (inlineTables list)
  else
    match Text.splitOn ',' (shave 1 list) with
    | first :: more => if isTextList list then mendTexts false first more else .ok (first :: more)
    | [] => .ok []

/-- What the items of a list have in common: dates with and without a time are of one sort. -/
inductive ItemSort
  | boolean
  | integer
  | real
  | text
  | time
  | date
  | list
  | table
  deriving DecidableEq, Repr

def sortOf : Datum → ItemSort
  | .boolean _ => .boolean
  | .integer _ => .integer
  | .real _ => .real
  | .time _ => .time
  | .date _ => .date
  | .moment _ => .date
  | .list _ => .list
  | .table _ => .table
  | _ => .text

/-- The items of a list, all of the sort of the first; empty parts are none. -/
def readItems (value : List Char → Reading Datum) (sort : Option ItemSort) :
    List (List Char) → Reading (List Datum)
  | [] => .ok []
  | part :: more =>
    let part := Text.trim part
    if part.isEmpty then readItems value sort more
    else do
      let item ← value part
      if sort.any (· ≠ sortOf item) then refuse .mixedList
      return item :: (← readItems value (some (sortOf item)) more)

/-! Keys. -/

/-- The parts of a key; every other piece around its quotes is a part of its own. -/
def keyParts (isQuoted : Bool) : List (List Char) → List (List Char)
  | [] => []
  | piece :: more =>
    (if isQuoted then [piece] else (Text.splitOn '.' piece).map Text.trim) ++
      keyParts (!isQuoted) more

/-- A key as the tables on its way and its name in the last of them. Empty parts count for
nothing. Escapes are resolved in a quoted key without a dot. -/
def readKey (key : List Char) : Reading (List String × String) := do
  if key.contains '.' then
    let parts :=
      if key.any isQuote then keyParts false (quotePieces key) else Text.splitOn '.' key
    match parts.reverse.dropWhile (·.isEmpty) with
    | [] => stop (.outOfRange "list")
    | last :: before =>
      return ((before.reverse.filter (!·.isEmpty)).map String.ofList, String.ofList (Text.trim last))
  else
    let first ← charAt key 0
    if isQuote first && key.getLast? = some first then
      return ([], String.ofList (← unescape (shave 1 key)))
    else return ([], String.ofList key)

/-! Lines. -/

/-- A text over several lines that is not closed yet: the name it is for, what was read of it,
and whether its last line break was escaped. -/
structure Unclosed where
  name : String
  text : List Char
  isFolded : Bool

def Unclosed.afterLine (name : String) (text : List Char) (isEscaping : Bool) : Unclosed :=
  { name, text := if isEscaping then text.dropLast else text ++ ['\n'], isFolded := isEscaping }

def valueBehind (pieces : List (List Char)) (count : Nat) : List Char :=
  Text.joinWith ['='] (pieces.drop (min count (pieces.length - 1)))

def keyBefore (pieces : List (List Char)) (count : Nat) : List Char :=
  Text.joinWith ['='] (pieces.take (min count (pieces.length - 1)))

def isPlausible (value : List Char) : Reading Bool := do
  let first := value.head?.getD ' '
  let word := Text.trim value
  if [' ', '\t', '\'', '"', '[', '\x7b'].contains first || word = "true".toList ||
      word = "false".toList || (Numeral.real? value).isSome then return true
  else return (← dateOrMoment? value).isSome || startsWithTime value

/-- Looks for the equals sign in front of the value: while what follows cannot be a value, it
may be the next one. Gives the number of equals signs up to it and whether the value was found
strict. -/
def settle (pieces : List (List Char)) (value : List Char) (strict : Bool) (count : Nat) :
    Nat → Reading (Nat × List Char × Bool)
  | 0 => refuse .value
  | rounds + 1 => do
    if ← isPlausible value then return (count, value, strict)
    let next := valueBehind pieces (count + 1)
    if next = value then refuse .value
    settle pieces next (strict && isStrict next) (count + 1) rounds

def readPair (line : List Char) : Reading (List Char × List Char × Bool) := do
  let pieces := Text.splitOn '=' line
  let count := 1 + quotedCount ['='] false (quotePieces line)
  let value := valueBehind pieces count
  let strict := isStrict value
  let value := if value.head?.any Char.isDigit then value.filter (· ≠ '_') else value
  let (count, value, strict) ← settle pieces value strict count (pieces.length + 2)
  return (Text.trim (keyBefore pieces count), Text.trim value, strict)

def lastText (behind : List Char) : List (List Char) → List Char
  | [] => behind
  | part :: more =>
    if behind.head?.any isQuote then behind else lastText (part ++ ',' :: behind) more

/-- The text over several lines that a value opens and does not close: the value itself, or
the last item of a list of texts. -/
def openText? (value : List Char) : Reading (Option (List Char)) := do
  if value.length < 3 then return none
  let text ←
    if value.head? = some '[' && value.getLast? ≠ some ']' && isTextList value then
      match (Text.splitOn ',' (Text.trim (value.drop 1))).reverse with
      | [] :: _ :: _ => stop (.outOfRange "string")
      | last :: more => .ok (lastText last more)
      | [] => .ok []
    else .ok value
  let first ← charAt text 0
  if !isQuote first then return none
  if (← charAt text 1) ≠ first then return none
  if (← charAt text 2) ≠ first then return none
  if 5 < text.length && (text.reverse.take 3).all (· = first) then return none
  return some text

def assign (name : String) (value : Datum) : Datum → Reading Datum
  | .table entries =>
    if (Entries.get? entries name).isSome then refuse .duplicate
    else .ok (.table (Entries.put entries name value))
  | _ => refuse .duplicate

def assignRead (read : Bool → List Char → Reading Datum) (name : String) (value : List Char)
    (strict : Bool) (level : Datum) : Reading (Datum × Option Unclosed) := do
  match ← openText? value with
  | none => return (← assign name (← read strict value) level, none)
  | some text =>
    let _ ← assign name .null level
    if name.isEmpty then stop .unassigned
    return (level, some (.afterLine name value (endsEscaping text)))

def inTable {α : Type} (act : Datum → Reading (Datum × α)) :
    List String → Datum → Reading (Datum × α)
  | [], level => act level
  | name :: more, .table entries => do
    let (inner, result) ← inTable act more ((Entries.get? entries name).getD (.table []))
    return (.table (Entries.put entries name inner), result)
  | _ :: _, .list _ => stop .listKey
  | name :: _, .text text =>
    stop (if Text.contains text.toList name.toList then .textKey else .notAssignable "str")
  | _ :: _, other => stop (.notContainer other.typeName)

def readAssignment (read : Bool → List Char → Reading Datum) (line : List Char) (level : Datum) :
    Reading (Datum × Option Unclosed) := do
  let (key, value, strict) ← readPair line
  let (path, name) ← readKey key
  inTable (assignRead read name value strict) path level

/-! Inline tables. -/

def isWholeEntry (part : List Char) : Reading Bool := do
  if !part.contains '=' then refuse .inlineTable
  let value := Text.trim ((part.dropWhile (· ≠ '=')).drop 1)
  let first ← charAt value 0
  let last := value.getLast?
  return (isQuote first && last = some first) || first = '-' || first.isDigit ||
    value = "true".toList || value = "false".toList || (first = '[' && last = some ']') ||
    (first = '\x7b' && last = some '\x7d')

def mendEntries (part : List Char) : List (List Char) → Reading (List (List Char))
  | [] => do if ← isWholeEntry part then return [part] else refuse .inlineTable
  | next :: more => do
    if ← isWholeEntry part then return part :: (← mendEntries next more)
    else mendEntries (part ++ ',' :: next) more

def inlineEntries (table : List Char) : Reading (List (List Char)) :=
  match Text.splitOn ',' (shave 1 table) with
  | first :: more =>
    if more.isEmpty && (Text.trim first).isEmpty then .ok [] else mendEntries first more
  | [] => .ok []

def assignAll (read : Bool → List Char → Reading Datum) :
    List (List Char) → Datum → Reading Datum
  | [], level => .ok level
  | entry :: more, level => do
    let (level, unclosed) ← readAssignment read entry level
    if unclosed.isSome then return level else assignAll read more level

def readInline (read : Bool → List Char → Reading Datum) (table : List Char) (level : Datum) :
    Reading Datum := do
  assignAll read (← inlineEntries table) level

/-! Values. -/

/-- A value in which values do not stand too deep in each other: of the depth that is left a
list takes two steps and an inline table three. -/
def readWithin : Nat → Bool → List Char → Reading Datum
  | depth + 3, strict, text =>
    match text with
    | [] => refuse .value
    | first :: _ => do
      if isQuote first then return .text (String.ofList (← readText text))
      else if first = '[' then
        return .list (← readItems (readWithin (depth + 1) true) none (← listParts text))
      else if first = '\x7b' then readInline (readWithin depth) text (.table [])
      else scalar strict text
  | _, _, _ => stop .tooDeep

def maxDepth : Nat := 981

def readValue (strict : Bool) (text : List Char) : Reading Datum :=
  readWithin maxDepth strict text

end JuceWorkbench.Toml
