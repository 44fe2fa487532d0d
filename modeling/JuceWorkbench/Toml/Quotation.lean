import JuceWorkbench.Decimal.Numeral
import JuceWorkbench.Toml.Defect

/-! The quoted values of a side file. A basic text stands in double quotes and knows escapes;
a literal text stands in single quotes and knows none. Three quotes start and end a text over
several lines. -/

namespace JuceWorkbench.Toml

def isQuote (c : Char) : Bool := c == '"' || c == '\''

def escape? : Char → Option Char
  | '0' => some '\x00'
  | 'b' => some '\x08'
  | 'f' => some '\x0c'
  | 'n' => some '\n'
  | 'r' => some '\r'
  | 't' => some '\t'
  | '"' => some '"'
  | _ => none

def isPointMark (c : Char) : Bool := c == 'u' || c == 'U'

def endsEscaping (text : List Char) : Bool :=
  (text.reverse.takeWhile (· = '\\')).length % 2 == 1

/-! Telling what is quoted on a line by counting its quotes. -/

/-- Joins pieces around single quotes with pieces around double quotes while a single quote is
open: up to there double quotes are part of the text. -/
def mendQuotes (pieces : List (List Char)) : List (List Char) → List (List Char) × List (List Char)
  | [] => (pieces, [])
  | next :: more =>
    if pieces.length % 2 = 0 then
      let joined := pieces.getLastD [] ++ '"' :: next
      mendQuotes (pieces.dropLast ++ Text.splitOn '\'' joined) more
    else (pieces, next :: more)

def partFirst : List (List Char) → List (List Char)
  | [] => []
  | first :: more => Text.splitOn '\'' first ++ more

/-- The pieces of a line around its quotes; every other one is quoted. -/
def quotePieces (line : List Char) : List (List Char) :=
  match Text.splitOn '"' line with
  | first :: second :: more =>
    if first.contains '\'' then
      let (pieces, rest) := mendQuotes (Text.splitOn '\'' first) (second :: more)
      pieces ++ partFirst rest
    else partFirst (first :: second :: more)
  | pieces => partFirst pieces

def quotedCount (separator : List Char) (isQuoted : Bool) : List (List Char) → Nat
  | [] => 0
  | piece :: more =>
    if !isQuoted && Text.contains piece separator then 0
    else Text.occurrences separator piece + quotedCount separator (!isQuoted) more

/-! The value of a quoted text. -/

/-- Whether something follows the end of a quoted text, whose pieces around its quotes are
given. A text over several lines ends once two of its quotes stood together. -/
def isOverfull (isLong isClosed : Bool) (together : Nat) : List (List Char) → Bool
  | [] => false
  | [] :: more =>
    if isLong then isOverfull isLong isClosed (together + 1) more
    else isOverfull isLong true together more
  | piece :: more =>
    if endsEscaping piece then isOverfull isLong isClosed together more
    else if isClosed then true
    else if !isLong || 1 < together then isOverfull isLong true together more
    else isOverfull isLong false 0 more

def hasExcess (quote : Char) (text : List Char) : Bool :=
  match Text.splitOn quote (text.drop 1) with
  | [] :: [] :: pieces => isOverfull true false 0 pieces
  | pieces => isOverfull false false 0 pieces

/-- Whether the pieces behind the backslashes of a text start with a known escape. Two
backslashes together are one too. -/
def areEscapes (isEscaped : Bool) : List (List Char) → Bool
  | [] => true
  | [] :: more => areEscapes (!isEscaped) more
  | (c :: _) :: more =>
    ((escape? c).isSome || isPointMark c || isEscaped) && areEscapes false more

def character (n : Nat) : Reading Char :=
  if 0x80000000 ≤ n then stop .codePointTooLarge
  else if 0x110000 ≤ n ∨ (0xd800 ≤ n ∧ n < 0xe000) then refuse .text
  else .ok (Char.ofNat n)

/-- A text that starts with the digits of a code point, as many as `size` if it has them. -/
def resolvePoint (size : Nat) (text : List Char) : Reading (List Char) := do
  let digits := Text.asciiLower (text.take size)
  if digits.any fun c => (Numeral.digit? 16 c).isNone then
    refuse (.escape (String.ofList digits))
  let first ← charAt digits 0
  if first = 'd' then
    let second ← charAt digits 1
    if '7' < second then refuse (.escape (String.ofList digits))
  let value := digits.foldl (fun n c => n * 16 + (Numeral.digit? 16 c).getD 0) 0
  return (← character value) :: text.drop size

/-- Puts together the pieces of a text around the marks of code points. A mark whose backslash
is escaped stays as it is. -/
def joinPoints (mark : Char) (size : Nat) (found : List Char) :
    Bool → List (List Char) → Reading (List Char)
  | _, [] => .ok found
  | true, piece :: more =>
    joinPoints mark size (found ++ '\\' :: mark :: piece) (endsEscaping piece) more
  | false, piece :: more => do
    joinPoints mark size (found ++ (← resolvePoint size piece)) false more

def resolvePoints (mark : Char) (size : Nat) (text : List Char) : Reading (List Char) :=
  match Text.splitText ['\\', mark] text with
  | first :: more => joinPoints mark size first (endsEscaping first) more
  | [] => .ok text

def unescape : List Char → Reading (List Char)
  | [] => .ok []
  | '\\' :: c :: rest =>
    if c = '\\' then (unescape rest).map ('\\' :: ·)
    else if isPointMark c then (unescape rest).map ('\\' :: c :: ·)
    else
      match escape? c with
      | some c => (unescape rest).map (c :: ·)
      | none => refuse .text
  | c :: rest => (unescape rest).map (c :: ·)

def withoutEscapes (text : List Char) : Reading (List Char) := do
  if !areEscapes false ((Text.splitOn '\\' text).drop 1) then refuse .text
  let text ← resolvePoints 'u' 4 text
  let text ← resolvePoints 'U' 8 text
  unescape text

def shave (count : Nat) (text : List Char) : List Char :=
  let text := text.drop count
  text.take (text.length - count)

/-- The value of a text that starts with a quote. Escapes are resolved before the quotes go, and
two quotes at the start followed by a third one or by nothing count as three. -/
def readText (text : List Char) : Reading (List Char) := do
  let quote := text.headD '"'
  if hasExcess quote text then refuse .text
  let text ← if quote = '"' then withoutEscapes text else .ok text
  if text[1]? = some quote ∧ (text.length < 3 ∨ text[1]? = text[2]?) then
    return shave 1 (shave 2 text)
  else return shave 1 text

end JuceWorkbench.Toml
