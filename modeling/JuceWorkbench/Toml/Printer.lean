import JuceWorkbench.Toml.Reader

/-! Writing a side file: first the plain entries of a table, then its lists of tables, then
its tables, all tables of one depth before the next. A header has a blank line in front, and
a table that holds nothing but tables has none. -/

namespace JuceWorkbench.Toml

/-- Joins two pieces of a quoted text that a two-digit escape parts. Behind an escaping
backslash the character takes the longer escape, else its digits follow an `x`. -/
def joinPieces (first second : List Char) : List Char :=
  let first := Text.replaceAll ['\\', '\\'] ['\\'] first
  let slashes := (first.reverse.takeWhile (· = '\\')).length
  let plain := (slashes == 0) != (min slashes (first.length - 1) % 2 == 1)
  first ++ (if plain then ['x'] else ['u', '0', '0']) ++ second

/-- Joins the pieces that two-digit escapes part a quoted text into. There is none for a
single piece behind an escape that starts the text. -/
def joinAll (first : List Char) : List (List Char) → Except Fault (List Char)
  | [] => .ok first
  | [second] =>
    if first = [] then .error (.outOfRange "list") else .ok (joinPieces first second)
  | second :: third :: more =>
    if first = [] then joinAll (joinPieces second third) more
    else joinAll (joinPieces first second) (third :: more)

def quotation (text : List Char) : Except Fault (List Char) := do
  let body := ((Text.literal text).drop 1).dropLast
  let body :=
    if Text.quoteFor text = '\'' then
      Text.replaceAll ['"'] ['\\', '"'] (Text.replaceAll ['\\', '\''] ['\''] body)
    else body
  match Text.splitText ['\\', 'x'] body with
  | [] => .ok ['"', '"']
  | first :: more => return '"' :: (← joinAll first more) ++ ['"']

def quote (text : String) : Except Fault String :=
  (quotation text.toList).map String.ofList

/-- Whether a key needs no quotes: letters, digits, underscores and hyphens; a line feed at
its end does not count. -/
def isBareKey (key : String) : Bool :=
  let name := key.toList
  let name := if name.getLast? = some '\n' then name.dropLast else name
  !name.isEmpty && name.all fun c => c.isAlphanum || c == '_' || c == '-'

def keyText (key : String) : Except Fault String := if isBareKey key then .ok key else quote key

def realText (value : Decimal.Binary64) : String :=
  let text := Text.replaceAll "e+0".toList "e+".toList value.text.toList
  String.ofList (Text.replaceAll "e-0".toList "e-".toList text)

/-- A date with a time; an offset of zero is written `Z`. -/
def momentText (value : Moment) : String :=
  String.ofList (Text.replaceAll "+00:00".toList ['Z'] (value.text "T").toList)

mutual
/-- The text of a value. A table among the items of a list is written as the list of its keys. -/
def valueText : Datum → Except Fault String
  | .null => quote "None"
  | .boolean value => .ok (if value then "true" else "false")
  | .integer value => Datum.wholeText value
  | .real value => .ok (realText value)
  | .text value => quote value
  | .octets value =>
    .ok ("[" ++ String.join (value.map fun octet => " " ++ toString octet.toNat ++ ",") ++ "]")
  | .date value => .ok value.text
  | .time value => .ok value.text
  | .moment value => if value.isFar then .error .offsetTooFar else .ok (momentText value)
  | .list items => do .ok ("[" ++ (← itemTexts items) ++ "]")
  | .table entries => do .ok ("[" ++ (← keyTexts entries) ++ "]")

def itemTexts : List Datum → Except Fault String
  | [] => .ok ""
  | item :: more => do .ok (" " ++ (← valueText item) ++ "," ++ (← itemTexts more))

def keyTexts : List (String × Datum) → Except Fault String
  | [] => .ok ""
  | entry :: more => do .ok (" " ++ (← quote entry.1) ++ "," ++ (← keyTexts more))
end

def isTable : Datum → Bool
  | .table _ => true
  | _ => false

def maxListHeight : Nat := 490

def assignedText (value : Datum) : Except Fault String :=
  if maxListHeight < value.height then .error .tooDeep else valueText value

/-- What a table holds, sorted for writing: the lines of its plain entries, those of its lists
of tables, and its tables by the text of their names. -/
structure Body where
  lines : String
  arrays : String
  tables : Entries

def Body.text (body : Body) : String := body.lines ++ body.arrays

def inside (outer name : String) : String := if outer.isEmpty then name else outer ++ "." ++ name

/-- The entries of what stands in a list of tables. Nothing but a table has any; the first item
of a list or a text is taken for a key that the value does not have. -/
def elementEntries : Datum → Except Fault Entries
  | .table entries => .ok entries
  | .list [] => .ok []
  | .list (first :: _) => do
    let _ ← keyText first.shown
    .error .listKey
  | .text value =>
    match value.toList with
    | [] => .ok []
    | first :: _ => do
      let _ ← keyText first.toString
      .error .textKey
  | other => .error (.notIterable other.typeName)

def nested (outer : String) (tables : Entries) : Entries :=
  tables.map fun entry => (outer ++ "." ++ entry.1, entry.2)

/-- The tables of an element, level by level, written by `body`; empty ones leave no trace. Of
tables whose names have the same text only the last one is written. -/
def elementTables (body : String → Entries → Except Fault Body) (name : String) :
    Nat → Entries → Except Fault String
  | 0, _ => .ok ""
  | depth + 1, tables => do
    let bodies ← (Entries.ofList tables).mapM fun entry => do
      let inner ← body (name ++ "." ++ entry.1) (← elementEntries entry.2)
      .ok (entry.1, inner)
    let level := bodies.map fun (key, inner) =>
      if inner.text.isEmpty then "" else "[" ++ name ++ "." ++ key ++ "]\n" ++ inner.text
    let next := bodies.flatMap fun (key, inner) => nested key inner.tables
    if next.isEmpty then .ok (String.join level)
    else .ok (String.join level ++ (← elementTables body name depth next))

/-- Sorts the entries of the table `outer`; `deeper`, if there is one, sorts those of the tables in
its lists. -/
def bodyWith (deeper : Option (String → Entries → Except Fault Body)) (outer : String) :
    Entries → Except Fault Body
  | [] => .ok ⟨"", "", []⟩
  | (key, value) :: more => do
    let name ← keyText key
    match value with
    | .table entries => do
      let rest ← bodyWith deeper outer more
      .ok { rest with tables := (name, .table entries) :: rest.tables }
    | .list items =>
      if items.any isTable then
        match deeper with
        | none => .ok ⟨"", "", []⟩
        | some body => do
          let full := inside outer name
          let elements ← items.mapM fun item => do
            let inner ← body full (← elementEntries item)
            let below ← elementTables body full (item.height + 1) inner.tables
            let (direct, behind) :=
              if "[".toList.isPrefixOf inner.text.toList then ("", inner.text) else (inner.text, "")
            .ok ("[[" ++ full ++ "]]\n" ++ direct ++ "\n" ++ behind ++ below)
          let rest ← bodyWith deeper outer more
          .ok { rest with arrays := String.join elements ++ rest.arrays }
      else do
        let line := name ++ " = " ++ (← assignedText value) ++ "\n"
        let rest ← bodyWith deeper outer more
        .ok { rest with lines := line ++ rest.lines }
    | .null => bodyWith deeper outer more
    | value => do
      let line := name ++ " = " ++ (← assignedText value) ++ "\n"
      let rest ← bodyWith deeper outer more
      .ok { rest with lines := line ++ rest.lines }

def bodyOf : Nat → String → Entries → Except Fault Body
  | 0 => bodyWith none
  | depth + 1 => bodyWith (some (bodyOf depth))

def addSection (written name : String) (body : Body) : String :=
  if body.text.isEmpty && !body.tables.isEmpty then written
  else
    let gap := if written.isEmpty || "\n\n".toList.isSuffixOf written.toList then "" else "\n"
    written ++ gap ++ "[" ++ name ++ "]\n" ++ body.text

/-- Writes tables level by level. Of tables whose names have the same text only the last one is
written, where the first one stands. -/
def sections : Nat → String → Entries → Except Fault String
  | 0, written, _ => .ok written
  | _, written, [] => .ok written
  | depth + 1, written, tables => do
    let bodies ← (Entries.ofList tables).mapM fun entry => do
      let entries ← elementEntries entry.2
      .ok (entry.1, ← bodyOf entry.2.height entry.1 entries)
    let written := bodies.foldl (fun written part => addSection written part.1 part.2) written
    sections depth written (bodies.flatMap fun part => nested part.1 part.2.tables)

def write (entries : Entries) : Except Fault String := do
  let depth := Datum.entriesHeight entries + 1
  let body ← bodyOf depth "" entries
  sections depth body.text body.tables

def format : Format := ⟨read, write⟩

end JuceWorkbench.Toml
