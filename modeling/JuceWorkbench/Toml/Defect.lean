import JuceWorkbench.Format

/-! What stops the reading of a side file: a defect of the document, or a fault of the reader
that no document should bring about. -/

namespace JuceWorkbench.Toml

inductive Defect
  | value
  | text
  | escape (digits : String)
  | key
  | header
  | duplicate
  | mixedList
  | inlineTable
  deriving DecidableEq, Repr

def Defect.message : Defect → String
  | .value => "Invalid value"
  | .text => "A text is not closed or holds an unknown escape"
  | .escape digits => "Invalid escape sequence: " ++ digits
  | .key => "Invalid key name"
  | .header => "Invalid table name"
  | .duplicate => "A key or table is given twice"
  | .mixedList => "The items of a list differ in type"
  | .inlineTable => "Invalid inline table"

inductive Refusal
  | defect (defect : Defect)
  | fault (fault : Fault)
  deriving Repr

abbrev Reading := Except Refusal

def refuse {α : Type} (defect : Defect) : Reading α := .error (.defect defect)

def stop {α : Type} (fault : Fault) : Reading α := .error (.fault fault)

def itemAt {α : Type} (sequence : String) (items : List α) (place : Nat) : Reading α :=
  match items[place]? with
  | some item => .ok item
  | none => stop (.outOfRange sequence)

def charAt (text : List Char) (place : Nat) : Reading Char := itemAt "string" text place

/-- A defect with the place it was found at, counted in characters, lines and columns. -/
structure Report where
  defect : Defect
  place : Nat
  line : Nat
  column : Nat
  deriving Repr

def Report.of (document : List Char) (defect : Defect) (place : Nat) : Report :=
  let before := document.take place
  { defect, place, line := before.count '\n' + 1
    column := (before.reverse.takeWhile (· ≠ '\n')).length + 1 }

def Report.message (report : Report) : String :=
  report.defect.message ++ " (line " ++ toString report.line ++ " column " ++
    toString report.column ++ " char " ++ toString report.place ++ ")"

def locate {α : Type} (document : List Char) (place : Nat) : Reading α → Except Rejection α
  | .ok value => .ok value
  | .error (.defect defect) => .error (.malformed (Report.of document defect place).message)
  | .error (.fault fault) => .error (.broken fault)

end JuceWorkbench.Toml
