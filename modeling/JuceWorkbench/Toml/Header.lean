import JuceWorkbench.Toml.Quotation

/-! The headers of a side file and the tables they open. A header names a table by the tables
on the way to it. In single brackets it opens the table, in double brackets it adds a table to
a list of tables. Tables that were only passed on the way to another one may be opened once;
their names are kept. -/

namespace JuceWorkbench.Toml

/-- A step from a value to one inside it: to the value of a key, or to the last item. -/
inductive Step
  | key (name : String)
  | last
  deriving DecidableEq, Repr

/-! The names of a header. -/

def isBareChar (c : Char) : Bool := c.isAlphanum || c == '_' || c == '-'

def isWholeName (name : List Char) : Bool := name.getLast? = name.head? && name.length ≠ 1

/-- A quoted name that the dots in it have parted, without its quotes, and the parts behind. -/
def mendName (name : List Char) : List (List Char) → Reading (List Char × List (List Char))
  | [] => if isWholeName name then .ok (shave 1 name, []) else refuse .header
  | next :: more =>
    if isWholeName name then .ok (shave 1 name, next :: more)
    else mendName (Text.trim (name ++ '.' :: next)) more

theorem mendName_length {name : List Char} {parts : List (List Char)}
    {result : List Char × List (List Char)} (h : mendName name parts = .ok result) :
    result.2.length ≤ parts.length := by
  induction parts generalizing name with
  | nil =>
    unfold mendName at h
    split at h
    · cases h; simp
    · cases h
  | cons next more ih =>
    unfold mendName at h
    split at h
    · cases h; simp
    · have := ih h
      simp only [List.length_cons]
      omega

def names (parts : List (List Char)) : Reading (List String) :=
  match parts with
  | [] => .ok []
  | part :: more =>
    let part := Text.trim part
    if part.head?.any isQuote then
      match _found : mendName part more with
      | .ok (name, rest) => (names rest).map (String.ofList name :: ·)
      | .error refusal => .error refusal
    else if part.isEmpty || !part.all isBareChar then refuse .header
    else (names more).map (String.ofList part :: ·)
  termination_by parts.length
  decreasing_by
  · have shorter : rest.length ≤ more.length := mendName_length _found
    simp only [List.length_cons]
    omega
  · simp

def readHeader (line : List Char) : Reading (Bool × List String) := do
  let isDouble := (line.drop 1).head? = some '['
  let body := line.drop (if isDouble then 2 else 1)
  let closing := if isDouble then [']', ']'] else [']']
  if line.length = 1 then refuse .header
  let count := 1 + quotedCount closing false (quotePieces body)
  let pieces := Text.splitText closing body
  if pieces.length ≤ count then refuse .header
  if !(Text.trim (Text.joinWith closing (pieces.drop count))).isEmpty then refuse .header
  return (isDouble, ← names (Text.splitOn '.' (Text.joinWith closing (pieces.take count))))

/-! The tables of a header. -/

/-- A value as changed on the way through it, the steps that were taken, and the names of the
tables that were only passed so far. -/
structure Opened where
  value : Datum
  steps : List Step := []
  passed : List String

def Opened.behind (opened : Opened) (step : Step) (value : Datum) : Opened :=
  { opened with value, steps := step :: opened.steps }

def firstTable (isList : Bool) : Datum := if isList then .list [.table []] else .table []

def withTable : Datum → Reading Datum
  | .list items => .ok (.list (items ++ [.table []]))
  | _ => stop .notGrowing

def inLast (go : Datum → Reading Opened) : Datum → Reading Opened
  | .list items =>
    match items.getLast? with
    | none => stop (.outOfRange "list")
    | some item => do
      let opened ← go item
      return opened.behind .last (.list (items.dropLast ++ [opened.value]))
  | .text text =>
    match text.toList.getLast? with
    | none => stop (.outOfRange "string")
    | some c => do
      let opened ← go (.text c.toString)
      return opened.behind .last (.text text)
  | other => stop (.notSubscriptable other.typeName)

/-- A header in double brackets goes on inside the last item of all but a table. -/
def enter (isDouble : Bool) (go : Datum → Reading Opened) (value : Datum) : Reading Opened :=
  match isDouble, value with
  | true, .table _ => go value
  | true, _ => inLast go value
  | false, _ => go value

/-- Goes to a name in the last item of a list, which has to be a table. -/
def throughItem (isDouble isLast : Bool) (name : String) (go : Datum → Reading Opened) :
    Datum → Reading Opened
  | .table entries => do
    let value := (Entries.get? entries name).getD (firstTable (isLast && isDouble))
    let opened ← enter isDouble go value
    return opened.behind (.key name) (.table (Entries.put entries name opened.value))
  | .list _ => stop .listKey
  | .text text =>
    stop (if Text.contains text.toList name.toList then .textKey else .notAssignable "str")
  | other => stop (.notContainer other.typeName)

/-- Refuses a table that is there already, which is reported with what stands beside it. -/
def repeated {α : Type} (entries : Entries) : Reading α :=
  match (Datum.table entries).literalFault? with
  | some fault => stop fault
  | none => refuse .duplicate

def openTable (isDouble : Bool) : List String → List String → Datum → Reading Opened
  | [], passed, value => .ok { value, passed }
  | name :: more, passed, level => do
    if name.isEmpty then refuse .header
    let isLast := more.isEmpty
    match level with
    | .table entries =>
      let (value, passed) ← match Entries.get? entries name with
        | none =>
          .ok (firstTable (isLast && isDouble), if isLast then passed else passed ++ [name])
        | some value =>
          if !isLast then .ok (value, passed)
          else if passed.contains name then
            if isDouble then refuse .header else .ok (value, passed.erase name)
          else if isDouble then (withTable value).map (·, passed)
          else repeated entries
      let opened ← enter isDouble (openTable isDouble more passed) value
      return opened.behind (.key name) (.table (Entries.put entries name opened.value))
    | _ =>
      inLast (throughItem isDouble isLast name (openTable isDouble more passed)) level

def atStep {α : Type} (act : Datum → Reading (Datum × α)) :
    List Step → Datum → Reading (Datum × α)
  | [], level => act level
  | .key name :: more, .table entries => do
    let (inner, result) ← atStep act more ((Entries.get? entries name).getD .null)
    return (.table (Entries.put entries name inner), result)
  | .last :: more, .list items => do
    let (inner, result) ← atStep act more (items.getLast?.getD .null)
    return (.list (items.dropLast ++ [inner]), result)
  | _ :: more, level => do
    let (_, result) ← atStep act more level
    return (level, result)

end JuceWorkbench.Toml
