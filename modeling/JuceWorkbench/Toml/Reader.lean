import JuceWorkbench.Toml.Header
import JuceWorkbench.Toml.Sweep
import JuceWorkbench.Toml.Value

/-! Reading a side file. After the first pass over its characters a document is read line by
line. A line opens a table, assigns a value in the open table, or goes on with a text over
several lines; any other line counts for nothing. -/

namespace JuceWorkbench.Toml

/-- What was read so far: the tables, the steps to the open one, the names of tables that were
only passed on the way to others, and the text that is not closed. -/
structure Draft where
  tables : Datum := .table []
  cursor : List Step := []
  passed : List String := []
  unclosed : Option Unclosed := none

namespace Draft

def change (draft : Draft) (act : Datum → Reading (Datum × Option Unclosed)) : Reading Draft := do
  let (tables, unclosed) ← atStep act draft.cursor draft.tables
  return { draft with tables, unclosed }

def closes (text line : List Char) : Reading Bool :=
  if text.head? = some '[' then
    match line.getLast? with
    | some c => .ok (c = ']')
    | none => stop (.outOfRange "string")
  else .ok (2 < line.length && (line.reverse.take 3).all fun c => some c = text.head?)

def overwrite (name : String) (value : Datum) : Datum → Datum
  | .table entries => .table (Entries.put entries name value)
  | level => level

/-- Goes on with a text over several lines. Its value goes into the open table. -/
def proceed (draft : Draft) (unclosed : Unclosed) (line : List Char) : Reading Draft := do
  let text := unclosed.text ++ line
  if ← closes text line then
    let value ← readValue true text
    draft.change fun level => .ok (overwrite unclosed.name value level, none)
  else return { draft with unclosed := some (.afterLine unclosed.name text (endsEscaping text)) }

def start (draft : Draft) (line : List Char) : Reading Draft := do
  if line.head? = some '[' then
    let (isDouble, path) ← readHeader line
    let opened ← openTable isDouble path draft.passed draft.tables
    return { draft with tables := opened.value, cursor := opened.steps, passed := opened.passed }
  else if line.head? = some '\x7b' then
    if line.getLast? ≠ some '\x7d' then refuse .inlineTable
    draft.change fun level => (readInline readValue line level).map (·, none)
  else if line.contains '=' then draft.change (readAssignment readValue line)
  else return draft

/-- Reads a line. Inside a text over several lines white space around a line counts, but behind
an escaped line break it does not. -/
def readLine (draft : Draft) (line : List Char) : Reading Draft :=
  match draft.unclosed with
  | none =>
    let line := Text.trim line
    if line.isEmpty then .ok draft else draft.start line
  | some unclosed =>
    let isTrimmed := unclosed.isFolded || !unclosed.text.contains '\n'
    let line := if isTrimmed then Text.trim line else line
    if line.isEmpty && unclosed.isFolded then .ok draft else draft.proceed unclosed line

end Draft

def readLines (document : List Char) (draft : Draft) (place : Nat) :
    List (List Char) → Except Rejection Draft
  | [] => .ok draft
  | line :: more => do
    let draft ← locate document place (draft.readLine line)
    readLines document draft (place + line.length + 1) more

def read (document : List Char) : Except Rejection Entries := do
  let draft ← readLines document {} 0 (Text.splitOn '\n' (← sweep document))
  match draft.tables with
  | .table entries => return entries
  | _ => return []

end JuceWorkbench.Toml
