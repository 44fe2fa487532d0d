import JuceWorkbench.Decimal.Numeral
import JuceWorkbench.Toml.Defect

/-! The unquoted values of a side file: booleans, numbers, dates and times. What a time or a
date is made of stands at fixed places, and the characters between are not looked at. A number
behind an equals sign is held to stricter rules than one in a list (`isStrict`). -/

namespace JuceWorkbench.Toml

def isLeapYear (year : Nat) : Bool := year % 4 == 0 && (year % 100 != 0 || year % 400 == 0)

def daysIn (year month : Nat) : Nat :=
  if month = 2 then (if isLeapYear year then 29 else 28)
  else if [4, 6, 9, 11].contains month then 30 else 31

def bounded? (low high : Nat) (n : Int) : Option Nat :=
  if low ≤ n ∧ n ≤ high then some n.toNat else none

def cut (low high : Nat) (text : List Char) : List Char := (text.drop low).take (high - low)

def numberAt? (text : List Char) (place size low high : Nat) : Option Nat := do
  bounded? low high (← Numeral.whole? (cut place (place + size) text))

def date? (text : List Char) : Option Date := do
  let year ← numberAt? text 0 4 1 9999
  let month ← numberAt? text 5 2 1 12
  let day ← numberAt? text 8 2 1 (daysIn year month)
  return ⟨year, month, day⟩

def clock? (text : List Char) : Option TimeOfDay := do
  let hour ← numberAt? text 11 2 0 23
  let minute ← numberAt? text 14 2 0 59
  let second ← numberAt? text 17 2 0 59
  return ⟨hour, minute, second, 0⟩

def offset? (text : List Char) : Option Int := do
  if text = ['Z'] then return 0
  let hours ← Numeral.whole? (cut 1 3 text)
  let minutes ← Numeral.whole? (cut 4 6 text)
  let total := hours * 60 + minutes
  return if text.head? = some '-' then -total else total

def wholePart : Decimal.Binary64 → Nat
  | .finite _ mantissa exponent =>
    if 0 ≤ exponent then mantissa * Decimal.twoTo exponent.toNat
    else mantissa / Decimal.twoTo (-exponent).toNat
  | _ => 0

/-- `n / 10 ^ places` by way of floating-point numbers: `n` and the power of ten are rounded,
and so is their product; the whole part of it counts. -/
def scaledDown (n places : Nat) : Reading Nat :=
  if n = 0 then .ok 0
  else
    match Decimal.Binary64.ofRatio n 1, Decimal.Binary64.ofDecimal 1 (-(places : Int)) with
    | .finite _ a e, .finite _ b f =>
      if b = 0 then .ok 0
      else
        let num := a * b * Decimal.twoTo (e + f).toNat
        .ok (wholePart (.ofRatio num (Decimal.twoTo (-(e + f)).toNat)))
    | _, _ => stop .numberTooLarge

def microseconds? (fraction : List Char) : Reading (Option Int) :=
  match Numeral.whole? fraction with
  | none => .ok none
  | some n =>
    if fraction.length ≤ 6 then .ok (some (n * Decimal.tenTo (6 - fraction.length)))
    else do .ok (some (Numeral.signed (n < 0) (← scaledDown n.natAbs (fraction.length - 6))))

/-- The fraction and the offset behind the point of a moment. The offset starts at a plus, or
else at a minus, unless it is the letter at the end. -/
def splitFraction (text : List Char) : List Char × Option (List Char) :=
  if text.getLast? = some 'Z' ∨ text.getLast? = some 'z' then (text.dropLast, some ['Z'])
  else
    let sign := if text.contains '+' then '+' else '-'
    if text.contains sign then (text.takeWhile (· ≠ sign), some (text.dropWhile (· ≠ sign)))
    else (text, none)

/-- The microseconds and the offset behind the 19 characters of a date with a time. What cannot
be read there is left out. -/
def ending (text : List Char) : Reading (Int × Option Int) :=
  match text with
  | [] => .ok (0, none)
  | '.' :: rest =>
    let (fraction, offset) := splitFraction rest
    match offset, offset.bind offset? with
    | some _, none => .ok (0, none)
    | _, offset => do
      match ← microseconds? fraction with
      | some n => .ok (n, offset)
      | none => .ok (0, none)
  | text => .ok (0, offset? text)

def dateOrMoment? (text : List Char) : Reading (Option Datum) := do
  let (microsecond, offset) ← ending (text.drop 19)
  if !(text.drop 1).contains '-' then return none
  else if text.length = 10 then return (date? text).map Datum.date
  else
    return do
      let date ← date? text
      let time ← clock? text
      let microsecond ← bounded? 0 999999 microsecond
      some (.moment ⟨date, { time with microsecond }, offset⟩)

def startsWithTime (text : List Char) : Bool :=
  match text with
  | a :: b :: ':' :: c :: d :: ':' :: e :: f :: _ => [a, b, c, d, e, f].all Char.isDigit
  | _ => false

def time? (text : List Char) : Option TimeOfDay := do
  let hour ← numberAt? text 0 2 0 23
  let minute ← numberAt? text 3 2 0 59
  let second ← numberAt? text 6 2 0 59
  let digits := ((text.drop 9).takeWhile Char.isDigit).take 6
  let microsecond := if text[8]? = some '.' ∧ 3 ≤ digits.length then Numeral.natural digits else 0
  return ⟨hour, minute, second, microsecond⟩

/-- Whether digits start with a zero that neither is all there is nor stands in front of one of
the given characters. -/
def hasNeedlessZero (behind : List Char) : List Char → Bool
  | '0' :: c :: _ => !behind.contains c
  | _ => false

/-- Whether a number has no needless zero in front, no two underscores in a row and none at its
ends or beside its point. The mark of a base may follow a zero unless there is a sign. -/
def isStrict (text : List Char) : Bool :=
  let text := Text.trim text
  let isSigned := text.head? = some '+' || text.head? = some '-'
  let hasZero :=
    if isSigned then hasNeedlessZero ['.'] (text.drop 1)
    else hasNeedlessZero ['.', 'o', 'b', 'x'] text
  !text.isEmpty && text.head? ≠ some '_' && text.getLast? ≠ some '_' && !hasZero &&
    !([['_', '.'], ['.', '_'], ['_', '_']].any (Text.contains text))

def number (text : List Char) : Reading Datum :=
  let (negative, rest) := Numeral.takeSign text
  let rest := rest.filter (· ≠ '_')
  let word := Text.asciiLower rest
  let hasMark := rest.contains 'e' || rest.contains 'E'
  let isReal := rest.contains '.' || (!rest.contains 'x' && hasMark)
  let signedReal (value : Decimal.Binary64) : Datum := .real (if negative then value.negate else value)
  if isReal then
    if rest.contains '.' && (rest.dropWhile (· ≠ '.')).length = 1 then refuse .value
    else if !(rest.head?.any Char.isDigit) then refuse .value
    else
      match Numeral.real? rest with
      | some value => .ok (signedReal value)
      | none => refuse .value
  else if word = "inf".toList then .ok (signedReal (.infinite false))
  else if word = "nan".toList then .ok (signedReal .notNumber)
  else
    match Numeral.anyBase? rest with
    | some n => .ok (.integer (if negative then -n else n))
    | none => refuse .value

/-- The value an unquoted text stands for; a number is refused unless it was found strict. -/
def scalar (strict : Bool) (text : List Char) : Reading Datum := do
  if text = "true".toList then return .boolean true
  else if text = "false".toList then return .boolean false
  else if startsWithTime text then
    match time? text with
    | some time => return .time time
    | none => refuse .value
  else
    match ← dateOrMoment? text with
    | some value => return value
    | none => if strict then number text else refuse .value

end JuceWorkbench.Toml
