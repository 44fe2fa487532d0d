import JuceWorkbench.Fault
import JuceWorkbench.Text.Line

/-! Scanning a build script line by line. Nesting is the running difference of opening and
closing parentheses; parentheses in quotes and comments count like any other. -/

namespace JuceWorkbench.Script

def parenBalance (line : List Char) : Int := (line.count '(' : Int) - (line.count ')' : Int)

def dropEnding (line : List Char) : List Char :=
  (line.reverse.dropWhile fun c => c == '\r' || c == '\n').reverse

def indentOf (line : List Char) : List Char := Text.margin (dropEnding line)

def findFrom? (wanted : List Char → Bool) (lines : List (List Char)) (start : Nat) : Option Nat :=
  ((lines.drop start).findIdx? wanted).map (start + ·)

/-- The search from a place that, when negative, counts back from the end of the document. Such
a search runs to the end, giving an index that counts back too, and then over the whole
document; it is a fault if the document is too short for the place. -/
def findSigned? (wanted : List Char → Bool) (lines : List (List Char)) (start : Int) :
    Except Fault (Option Int) :=
  if 0 ≤ start then .ok ((findFrom? wanted lines start.toNat).map Int.ofNat)
  else if lines.length < start.natAbs then .error (.outOfRange "list")
  else
    match findFrom? wanted lines (lines.length - start.natAbs) with
    | some index => .ok (some (index - lines.length))
    | none => .ok ((findFrom? wanted lines 0).map Int.ofNat)

/-- How many lines after the first one the depth falls to zero or below, when it is `depth`
before the first line. -/
def closesAfter? (depth : Int) : List (List Char) → Option Nat
  | [] => none
  | line :: more =>
    if depth + parenBalance line ≤ 0 then some 0
    else (closesAfter? (depth + parenBalance line) more).map (· + 1)

/-- The index of the line that closes the block opened on line `start`; none when the
document ends while the block is open. -/
def blockEnd? (lines : List (List Char)) (start : Nat) : Option Nat :=
  (closesAfter? 0 (lines.drop start)).map (start + ·)

end JuceWorkbench.Script
