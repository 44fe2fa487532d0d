import JuceWorkbench.Fault

/-! The JSON text of a value, four spaces to a level and ASCII only. Dates and times have
none. -/

namespace JuceWorkbench.CommandLine

def unitEscape (n : Nat) : List Char := '\\' :: 'u' :: Text.hex 4 n

/-- A character inside a JSON text; beyond sixteen bits it takes two units. -/
def jsonChar (c : Char) : List Char :=
  let n := c.toNat
  if c = '"' ∨ c = '\\' then ['\\', c]
  else if c = '\n' then ['\\', 'n']
  else if c = '\r' then ['\\', 'r']
  else if c = '\t' then ['\\', 't']
  else if n = 8 then ['\\', 'b']
  else if n = 12 then ['\\', 'f']
  else if 32 ≤ n ∧ n < 127 then [c]
  else if n < 0x10000 then unitEscape n
  else unitEscape (0xd800 + (n - 0x10000) / 0x400) ++ unitEscape (0xdc00 + (n - 0x10000) % 0x400)

def jsonText (text : String) : String :=
  String.ofList ('"' :: text.toList.flatMap jsonChar ++ ['"'])

def jsonReal : Decimal.Binary64 → String
  | .infinite negative => if negative then "-Infinity" else "Infinity"
  | .notNumber => "NaN"
  | value => value.text

def lineStart (level : Nat) : String := "\n" ++ String.ofList (List.replicate (4 * level) ' ')

def jsonBlock (level : Nat) (opening closing : String) : List String → String
  | [] => opening ++ closing
  | items =>
    opening ++ String.intercalate "," (items.map (lineStart (level + 1) ++ ·)) ++
      lineStart level ++ closing

mutual
def json (level : Nat) : Datum → Except Fault String
  | .null => .ok "null"
  | .boolean value => .ok (if value then "true" else "false")
  | .integer value => Datum.wholeText value
  | .real value => .ok (jsonReal value)
  | .text value => .ok (jsonText value)
  | .list items => do
    if Datum.maxHeight < level then .error .tooDeep
    .ok (jsonBlock level "[" "]" (← jsonItems (level + 1) items))
  | .table entries => do
    if Datum.maxHeight < level then .error .tooDeep
    .ok (jsonBlock level "\x7b" "\x7d" (← jsonEntries (level + 1) entries))
  | other => .error (.notJson other.shortTypeName)

def jsonItems (level : Nat) : List Datum → Except Fault (List String)
  | [] => .ok []
  | item :: more => do .ok ((← json level item) :: (← jsonItems level more))

def jsonEntries (level : Nat) : List (String × Datum) → Except Fault (List String)
  | [] => .ok []
  | entry :: more => do
    .ok ((jsonText entry.1 ++ ": " ++ (← json level entry.2)) :: (← jsonEntries level more))
end

end JuceWorkbench.CommandLine
