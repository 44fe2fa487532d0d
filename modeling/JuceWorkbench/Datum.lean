import JuceWorkbench.Decimal.Numeral
import JuceWorkbench.Decimal.Shortest
import JuceWorkbench.Text.Literal

/-! Loosely typed values: what a side file holds and what a caller may pass where a text is
expected. Tables keep the order of their entries. A value has two texts, the one shown for
it alone (`Datum.shown`) and the one it has inside a list, a table or a message
(`Datum.literal`); they differ for texts and for dates and times. -/

namespace JuceWorkbench

structure Date where
  year : Nat
  month : Nat
  day : Nat
  deriving DecidableEq, Repr

structure TimeOfDay where
  hour : Nat
  minute : Nat
  second : Nat
  microsecond : Nat
  deriving DecidableEq, Repr

/-- A date with a time of day, and the offset from universal time in minutes if it has one. -/
structure Moment where
  date : Date
  time : TimeOfDay
  offset : Option Int
  deriving DecidableEq, Repr

inductive Datum
  | null
  | boolean (value : Bool)
  | integer (value : Int)
  | real (value : Decimal.Binary64)
  | text (value : String)
  | octets (value : List UInt8)
  | date (value : Date)
  | time (value : TimeOfDay)
  | moment (value : Moment)
  | list (items : List Datum)
  | table (entries : List (String × Datum))
  deriving Repr

instance : Inhabited Datum := ⟨.null⟩

def padded (width n : Nat) : String :=
  let digits := toString n
  String.ofList (List.replicate (width - digits.length) '0') ++ digits

def Date.text (date : Date) : String :=
  padded 4 date.year ++ "-" ++ padded 2 date.month ++ "-" ++ padded 2 date.day

def TimeOfDay.text (time : TimeOfDay) : String :=
  padded 2 time.hour ++ ":" ++ padded 2 time.minute ++ ":" ++ padded 2 time.second ++
    (if time.microsecond = 0 then "" else "." ++ padded 6 time.microsecond)

def offsetText (minutes : Int) : String :=
  (if minutes < 0 then "-" else "+") ++ padded 2 (minutes.natAbs / 60) ++ ":" ++
    padded 2 (minutes.natAbs % 60)

def Moment.text (between : String) (moment : Moment) : String :=
  moment.date.text ++ between ++ moment.time.text ++ (moment.offset.map offsetText).getD ""

/-- Whether the offset is a whole day or more, so that the moment has no text. -/
def Moment.isFar (moment : Moment) : Bool := moment.offset.any fun minutes => 1440 ≤ minutes.natAbs

/-- The numbers of a time; seconds that are zero are left out, as are microseconds. -/
def TimeOfDay.numbers (time : TimeOfDay) : List Nat :=
  [time.hour, time.minute] ++
    (if time.second = 0 ∧ time.microsecond = 0 then []
      else if time.microsecond = 0 then [time.second] else [time.second, time.microsecond])

def Date.numbers (date : Date) : List Nat := [date.year, date.month, date.day]

def numbersText (numbers : List Nat) : String := String.intercalate ", " (numbers.map toString)

namespace Datum

def typeName : Datum → String
  | .null => "NoneType"
  | .boolean _ => "bool"
  | .integer _ => "int"
  | .real _ => "float"
  | .text _ => "str"
  | .octets _ => "bytes"
  | .date _ => "datetime.date"
  | .time _ => "datetime.time"
  | .moment _ => "datetime.datetime"
  | .list _ => "list"
  | .table _ => "dict"

/-- The name of the type of a value, without the family that dates and times belong to. -/
def shortTypeName : Datum → String
  | .date _ => "date"
  | .time _ => "time"
  | .moment _ => "datetime"
  | other => other.typeName

def offsetLiteral : Option Int → String
  | none => ""
  | some minutes => ", tzinfo=" ++ offsetText minutes

mutual
/-- The text of a value inside another one. -/
def literal : Datum → String
  | .null => "None"
  | .boolean true => "True"
  | .boolean false => "False"
  | .integer value => toString value
  | .real value => value.text
  | .text value => Text.quoted value
  | .octets value => String.ofList (Text.octetLiteral value)
  | .date value => "datetime.date(" ++ numbersText value.numbers ++ ")"
  | .time value => "datetime.time(" ++ numbersText value.numbers ++ ")"
  | .moment value =>
    "datetime.datetime(" ++ numbersText (value.date.numbers ++ value.time.numbers) ++
      offsetLiteral value.offset ++ ")"
  | .list items => "[" ++ String.intercalate ", " (literals items) ++ "]"
  | .table entries => "\x7b" ++ String.intercalate ", " (entryLiterals entries) ++ "\x7d"

def literals : List Datum → List String
  | [] => []
  | item :: more => literal item :: literals more

def entryLiterals : List (String × Datum) → List String
  | [] => []
  | entry :: more => (Text.quoted entry.1 ++ ": " ++ literal entry.2) :: entryLiterals more
end

/-- The text of a value on its own. -/
def shown : Datum → String
  | .text value => value
  | .date value => value.text
  | .time value => value.text
  | .moment value => value.text " "
  | other => other.literal

mutual
def height : Datum → Nat
  | .list items => itemsHeight items + 1
  | .table entries => entriesHeight entries + 1
  | _ => 0

def itemsHeight : List Datum → Nat
  | [] => 0
  | item :: more => max (height item) (itemsHeight more)

def entriesHeight : List (String × Datum) → Nat
  | [] => 0
  | entry :: more => max (height entry.2) (entriesHeight more)
end

def isOverlong (n : Int) : Bool := Numeral.maxDigits < (toString n.natAbs).length

mutual
def hasOverlong : Datum → Bool
  | .integer n => isOverlong n
  | .list items => itemsOverlong items
  | .table entries => entriesOverlong entries
  | _ => false

def itemsOverlong : List Datum → Bool
  | [] => false
  | item :: more => hasOverlong item || itemsOverlong more

def entriesOverlong : List (String × Datum) → Bool
  | [] => false
  | entry :: more => hasOverlong entry.2 || entriesOverlong more
end

def isFarMoment : Datum → Bool
  | .moment value => value.isFar
  | _ => false

/-- Whether a value counts as given: not null, false, zero or empty. -/
def isGiven : Datum → Bool
  | .null => false
  | .boolean value => value
  | .integer value => value != 0
  | .real value => !value.isZero
  | .text value => !value.isEmpty
  | .octets value => !value.isEmpty
  | .list items => !items.isEmpty
  | .table entries => !entries.isEmpty
  | _ => true

end Datum

/-- The entries of a table, in order; no key stands twice in a table that was built with
`put`. -/
abbrev Entries := List (String × Datum)

namespace Entries

def get? (entries : Entries) (key : String) : Option Datum :=
  (entries.find? fun entry => entry.1 == key).map Prod.snd

/-- Gives a key a value, in place if the key is there and else at the end. -/
def put (entries : Entries) (key : String) (value : Datum) : Entries :=
  match entries with
  | [] => [(key, value)]
  | entry :: more =>
    if entry.1 == key then (key, value) :: more else entry :: put more key value

/-- The entries of a list, where a later value for a key takes the place of an earlier one. -/
def ofList (entries : List (String × Datum)) : Entries :=
  entries.foldl (fun entries entry => entries.put entry.1 entry.2) []

theorem get?_put_self (entries : Entries) (key : String) (value : Datum) :
    (entries.put key value).get? key = some value := by
  induction entries with
  | nil => simp [put, get?]
  | cons entry more ih =>
    unfold put
    split
    · simp [get?]
    · rename_i other
      simp only [get?, List.find?_cons, other] at ih ⊢
      exact ih

theorem get?_put_of_ne (entries : Entries) {key other : String} (value : Datum)
    (ne : other ≠ key) : (entries.put key value).get? other = entries.get? other := by
  induction entries with
  | nil => simp [put, get?, Ne.symm ne]
  | cons entry more ih =>
    unfold put
    split
    · rename_i same
      have same : entry.1 = key := by simpa using same
      simp [get?, same, Ne.symm ne]
    · simp only [get?, List.find?_cons] at ih ⊢
      split
      · rfl
      · exact ih

end Entries
end JuceWorkbench
