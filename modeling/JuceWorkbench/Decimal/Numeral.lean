import JuceWorkbench.Decimal.Binary64
import JuceWorkbench.Text.Blank

/-! Numbers as texts, read leniently: white space may stand around a number, its digits may be
the decimal digits of any script, and single underscores may stand between two digits. -/

namespace JuceWorkbench.Numeral

/-- The zeros of all scripts with decimal digits, as of Unicode 14.0; the nine digits of a
script follow its zero. -/
def scriptZeros : List Nat := [
    0x30, 0x660, 0x6f0, 0x7c0, 0x966, 0x9e6, 0xa66, 0xae6, 0xb66, 0xbe6, 0xc66, 0xce6, 0xd66,
    0xde6, 0xe50, 0xed0, 0xf20, 0x1040, 0x1090, 0x17e0, 0x1810, 0x1946, 0x19d0, 0x1a80, 0x1a90,
    0x1b50, 0x1bb0, 0x1c40, 0x1c50, 0xa620, 0xa8d0, 0xa900, 0xa9d0, 0xa9f0, 0xaa50, 0xabf0,
    0xff10, 0x104a0, 0x10d30, 0x11066, 0x110f0, 0x11136, 0x111d0, 0x112f0, 0x11450, 0x114d0,
    0x11650, 0x116c0, 0x11730, 0x118e0, 0x11950, 0x11c50, 0x11d50, 0x11da0, 0x16a60, 0x16ac0,
    0x16b50, 0x1d7ce, 0x1d7d8, 0x1d7e2, 0x1d7ec, 0x1d7f6, 0x1e140, 0x1e2f0, 0x1e950, 0x1fbf0]

/-- A character as ASCII writes it: a digit of any script as its digit and white space as a
space. Nothing else beyond ASCII stands in a number. -/
def ascii? (c : Char) : Option Char :=
  if c.toNat < 128 then some c
  else if Text.isBlank c then some ' '
  else
    (scriptZeros.find? fun first => first ≤ c.toNat && c.toNat < first + 10).map fun first =>
      Char.ofNat ('0'.toNat + (c.toNat - first))

def isPadding (c : Char) : Bool := c == ' ' || (9 ≤ c.toNat && c.toNat ≤ 13)

def core? (text : List Char) : Option (List Char) := do
  let text ← text.mapM ascii?
  return ((text.dropWhile isPadding).reverse.dropWhile isPadding).reverse

def digit? (base : Nat) (c : Char) : Option Nat :=
  let n :=
    if c.isDigit then c.toNat - '0'.toNat
    else if 'a' ≤ c ∧ c ≤ 'f' then c.toNat - 'a'.toNat + 10
    else if 'A' ≤ c ∧ c ≤ 'F' then c.toNat - 'A'.toNat + 10
    else base
  if n < base then some n else none

/-- Digits read on from the value so far; an underscore has a digit on both sides. -/
def digitsFrom? (base value : Nat) (afterDigit : Bool) : List Char → Option Nat
  | [] => if afterDigit then some value else none
  | '_' :: rest => if afterDigit then digitsFrom? base value false rest else none
  | c :: rest => (digit? base c).bind fun d => digitsFrom? base (value * base + d) true rest

def digits? (base : Nat) (text : List Char) : Option Nat := digitsFrom? base 0 false text

def natural (text : List Char) : Nat :=
  text.foldl (fun n c => n * 10 + (c.toNat - '0'.toNat)) 0

def maxDigits : Nat := 4300

def decimal? (text : List Char) : Option Nat :=
  if maxDigits < (text.filter (· ≠ '_')).length then none else digits? 10 text

def signed (negative : Bool) (n : Nat) : Int := if negative then -(n : Int) else n

def takeSign : List Char → Bool × List Char
  | '-' :: rest => (true, rest)
  | '+' :: rest => (false, rest)
  | text => (false, text)

def whole? (text : List Char) : Option Int := do
  let (negative, digits) := takeSign (← core? text)
  return signed negative (← decimal? digits)

/-- The digits behind the mark of a base, which may have one underscore in front. -/
def based? (base : Nat) (text : List Char) : Option Nat :=
  match text with
  | '_' :: rest => digits? base rest
  | _ => digits? base text

/-- A whole number whose base a mark in front of it may name; without one it is decimal, and
then only zero starts with a zero. -/
def anyBase? (text : List Char) : Option Int := do
  let (negative, digits) := takeSign (← core? text)
  let n ← match digits with
    | '0' :: mark :: rest =>
      if mark = 'x' ∨ mark = 'X' then based? 16 rest
      else if mark = 'o' ∨ mark = 'O' then based? 8 rest
      else if mark = 'b' ∨ mark = 'B' then based? 2 rest
      else (decimal? digits).filter (· = 0)
    | _ => decimal? digits
  return signed negative n

def withoutUnderscores? (afterDigit : Bool) : List Char → Option (List Char)
  | [] => some []
  | '_' :: c :: rest =>
    if afterDigit ∧ c.isDigit then (withoutUnderscores? true rest).map (c :: ·) else none
  | c :: rest =>
    if c = '_' then none else (withoutUnderscores? c.isDigit rest).map (c :: ·)

def exponent? (text : List Char) : Option Int :=
  let (negative, digits) := takeSign text
  (digits? 10 digits).map (signed negative)

def fraction? (text : List Char) : Option Decimal.Binary64 := do
  let isMark (c : Char) : Bool := c == 'e' || c == 'E'
  let mantissa := text.takeWhile fun c => !isMark c
  let power ← match text.dropWhile fun c => !isMark c with
    | [] => some 0
    | _ :: rest => exponent? rest
  let front := mantissa.takeWhile (· ≠ '.')
  let behind := (mantissa.dropWhile (· ≠ '.')).drop 1
  if front ++ behind = [] ∨ !(front ++ behind).all Char.isDigit then none
  else return .ofDecimal (natural (front ++ behind)) (power - behind.length)

/-- A floating-point number; infinity and what is no number have names in letters of either
case. -/
def real? (text : List Char) : Option Decimal.Binary64 := do
  let (negative, digits) := takeSign (← core? text)
  let digits ← withoutUnderscores? false digits
  let word := Text.asciiLower digits
  let value ←
    if word = "inf".toList ∨ word = "infinity".toList then some (.infinite false)
    else if word = "nan".toList then some .notNumber
    else fraction? digits
  return if negative then value.opposite else value

end JuceWorkbench.Numeral
