import JuceWorkbench.Text.Word
import JuceWorkbench.Toml.Quotation

/-! The first pass over a document. It goes from character to character, knows what is open,
and changes the text so that it can be read line by line afterwards: comments turn into blanks,
and so do the line breaks in lists. Keys are checked on the way, and texts must be closed. -/

namespace JuceWorkbench.Toml

inductive KeyPlace
  | outside
  | inPart
  | behindPart
  deriving DecidableEq, Repr

inductive OpenHeader
  | none
  | single
  | double
  deriving DecidableEq, Repr

/-- The text as changed so far, and what is open. -/
structure Sweep where
  text : Array Char
  quote : Option Char := none
  /-- Whether a text over several lines is open. -/
  isLong : Bool := false
  /-- Opening less closing brackets of lists. -/
  depth : Int := 0
  header : OpenHeader := .none
  isLineStart : Bool := true
  key : KeyPlace := .outside
  isDotted : Bool := false
  /-- Whether a comment went on to the end of the text. -/
  isFinished : Bool := false

namespace Sweep

/-- The place an index stands for; one in front of the text counts from its end. -/
def place? (sweep : Sweep) (index : Int) : Option Nat :=
  let index := if index < 0 then index + sweep.text.size else index
  if 0 ≤ index ∧ index < sweep.text.size then some index.toNat else none

def char? (sweep : Sweep) (index : Int) : Option Char :=
  (sweep.place? index).bind fun place => sweep.text[place]?

def charAt (sweep : Sweep) (index : Int) : Reading Char :=
  match sweep.char? index with
  | some c => .ok c
  | none => stop (.outOfRange "list")

def write (sweep : Sweep) (index : Int) (c : Char) : Sweep :=
  match sweep.place? index with
  | some place => { sweep with text := sweep.text.setIfInBounds place c }
  | none => sweep

def isEscapedAt (sweep : Sweep) (index : Int) : Nat → Bool
  | 0 => false
  | limit + 1 =>
    if sweep.char? index = some '\\' then !sweep.isEscapedAt (index - 1) limit else false

def beforeNextPart (sweep : Sweep) (i : Nat) : Reading Sweep := do
  let next ← sweep.charAt (i + 1)
  return if Text.isBlank next || next == '.' then sweep else { sweep with key := .inPart }

/-- Reads on in a key. A character that ends the key is not part of it; for any other there
is nothing left to do. -/
def keyStep (sweep : Sweep) (i : Nat) (c : Char) : Reading (Sweep × Bool) := do
  if c = '\n' then refuse .key
  match sweep.quote, sweep.key with
  | some quote, _ =>
    if c = quote && !sweep.isEscapedAt (i - 1) i then
      return ({ sweep with key := .behindPart, quote := none }, true)
    else return (sweep, true)
  | none, .inPart =>
    if Text.isBlank c then return ({ sweep with key := .behindPart }, true)
    else if c = '.' then return ({ sweep with isDotted := true }, true)
    else if Text.isWord c || c = '-' then return (sweep, true)
    else if sweep.isDotted && sweep.char? (i - 1) = some '.' && isQuote c then
      return ({ sweep with quote := some c }, true)
  | none, _ =>
    if Text.isBlank c then
      return (← if sweep.isDotted then sweep.beforeNextPart i else .ok sweep, true)
    else if c = '.' then return (← { sweep with isDotted := true }.beforeNextPart i, true)
  if c = '=' then return ({ sweep with key := .outside, isDotted := false }, false)
  else refuse .key

def quotesBefore (sweep : Sweep) (i : Nat) (quote : Char) : Nat :=
  if sweep.char? ((i : Int) - 1) ≠ some quote then 0
  else if sweep.char? ((i : Int) - 2) ≠ some quote then 1 else 2

def turnQuote (sweep : Sweep) (quote : Char) (isThird : Bool) : Sweep :=
  if isThird then
    { sweep with isLong := !sweep.isLong, quote := if sweep.isLong then none else some quote }
  else { sweep with quote := if sweep.quote.isSome then none else some quote }

/-- Notes a quote. In a basic text a backslash in front of it escapes it; it is not looked for
in front of the second of two quotes. -/
def quoteStep (sweep : Sweep) (i : Nat) (c : Char) : Sweep :=
  if c = '\'' && sweep.quote ≠ some '"' then sweep.turnQuote c (sweep.quotesBefore i c == 2)
  else if c = '"' && sweep.quote ≠ some '\'' then
    let count := sweep.quotesBefore i c
    let isEscaped := count ≠ 1 && sweep.isEscapedAt ((i : Int) - 1 - count) (2 * sweep.text.size)
    if isEscaped then sweep else sweep.turnQuote c (count == 2)
  else sweep

def blankOut (text : Array Char) (i : Nat) : Nat → Array Char
  | 0 => text
  | length + 1 => blankOut (text.setIfInBounds i ' ') (i + 1) length

def restOfLine (text : Array Char) (i : Nat) : Nat → Nat × Bool
  | 0 => (0, false)
  | limit + 1 =>
    if text[i]? = some '\n' then (0, true)
    else
      let (length, hasBreak) := restOfLine text (i + 1) limit
      (length + 1, hasBreak)

def commentStep (sweep : Sweep) (i : Nat) : Sweep :=
  let (length, hasBreak) := restOfLine sweep.text i (sweep.text.size - i)
  { sweep with text := blankOut sweep.text i length, isFinished := !hasBreak }

/-- Notes a bracket outside of texts: that of a header at the start of a line, else that of a
list. -/
def bracketStep (sweep : Sweep) (i : Nat) (c : Char) : Sweep :=
  if c = '[' && sweep.header = .none then
    if sweep.isLineStart then
      { sweep with header := if sweep.char? (i + 1) = some '[' then .double else .single }
    else { sweep with depth := sweep.depth + 1 }
  else if c = ']' then
    match sweep.header with
    | .single => { sweep with header := .none }
    | .double =>
      if sweep.char? ((i : Int) - 1) = some ']' then { sweep with header := .none } else sweep
    | .none => { sweep with depth := sweep.depth - 1 }
  else sweep

/-- A line break in a text over several lines. Behind two quotes it turns into a third one, and
a quote in front of the two into a blank. -/
def breakInText (sweep : Sweep) (i : Nat) : Reading Sweep := do
  if !sweep.isLong then refuse .text
  let last ← sweep.charAt ((i : Int) - 1)
  if isQuote last && (← sweep.charAt ((i : Int) - 2)) = last then
    let sweep := sweep.write i last
    return if (← sweep.charAt ((i : Int) - 3)) = last then sweep.write ((i : Int) - 3) ' ' else sweep
  else return sweep

def lineStep (sweep : Sweep) (i : Nat) (c : Char) : Reading Sweep := do
  if c = '\n' then
    if sweep.quote.isSome || sweep.isLong then sweep.breakInText i
    else if sweep.depth ≠ 0 then return sweep.write i ' '
    else return { sweep with isLineStart := true }
  else if sweep.isLineStart && sweep.char? i ≠ some ' ' && sweep.char? i ≠ some '\t' then
    let sweep := { sweep with isLineStart := false }
    if sweep.header ≠ .none then return sweep
    else if sweep.char? i = some '=' then refuse .key
    else return { sweep with key := .inPart }
  else return sweep

def step (sweep : Sweep) (i : Nat) : Reading Sweep := do
  if sweep.isFinished then return sweep
  let c ← sweep.charAt i
  let (sweep, isDone) ← if sweep.key = .outside then .ok (sweep, false) else sweep.keyStep i c
  if isDone then return sweep
  let sweep := sweep.quoteStep i c
  if c = '#' && sweep.quote.isNone && sweep.header = .none then
    return sweep.commentStep i
  else
    let sweep := if sweep.quote.isNone then sweep.bracketStep i c else sweep
    sweep.lineStep i c

end Sweep

def sweepFrom (document : List Char) (sweep : Sweep) (i : Nat) : Nat → Except Rejection Sweep
  | 0 => .ok sweep
  | count + 1 => do
    let sweep ← locate document i (sweep.step i)
    sweepFrom document sweep (i + 1) count

def sweep (document : List Char) : Except Rejection (List Char) := do
  let done ← sweepFrom document { text := document.toArray } 0 document.length
  if done.key ≠ .outside then locate document document.length (refuse .key)
  if done.quote.isSome then locate document document.length (refuse .text)
  return done.text.toList

end JuceWorkbench.Toml
