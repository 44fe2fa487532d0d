import JuceWorkbench.Decimal.Binary64

/-! The shortest decimal text of a binary floating-point number: the fewest digits that lie
within the reals which round to the number, and of those the ones nearest to it. Positional
notation is used for decimal exponents from -4 to 15, else an exponent of at least two
digits with its sign. -/

namespace JuceWorkbench.Decimal

/-- The decimal digits of a number, as many as asked for, read as an integer, and the power
of ten of the last digit. -/
structure Digits where
  value : Nat
  power : Int
  deriving DecidableEq, Repr

/-- The reals that round to `mantissa * 2 ^ exponent`, and the number itself, as numerators
over one denominator. -/
structure Rounding where
  low : Nat
  point : Nat
  high : Nat
  den : Nat
  closed : Bool

def Rounding.of (mantissa : Nat) (exponent : Int) : Rounding :=
  let gap := if mantissa = twoTo 52 ∧ Binary64.minExponent < exponent then 1 else 2
  let up := if 0 ≤ exponent then twoTo exponent.toNat else 1
  let down := if 0 ≤ exponent then 1 else twoTo (-exponent).toNat
  { low := (4 * mantissa - gap) * up, point := 4 * mantissa * up, high := (4 * mantissa + 2) * up,
    den := 4 * down, closed := mantissa % 2 = 0 }

def Rounding.holds (r : Rounding) (digits : Digits) : Bool :=
  let up := if 0 ≤ digits.power then tenTo digits.power.toNat else 1
  let down := if 0 ≤ digits.power then 1 else tenTo (-digits.power).toNat
  let v := digits.value * up * r.den
  if r.closed then r.low * down ≤ v && v ≤ r.high * down
  else r.low * down < v && v < r.high * down

/-- The nearest of the two neighbours of the number on the grid of step `10 ^ power`, if it
rounds to the number. -/
def Rounding.onGrid? (r : Rounding) (power : Int) : Option Digits :=
  let num := if 0 ≤ power then r.point else r.point * tenTo (-power).toNat
  let den := if 0 ≤ power then r.den * tenTo power.toNat else r.den
  let floor := num / den
  let nearer := roundDiv num den
  let other := if nearer = floor then floor + 1 else floor
  if r.holds ⟨nearer, power⟩ then some ⟨nearer, power⟩
  else if r.holds ⟨other, power⟩ then some ⟨other, power⟩
  else none

def magnitudeFrom (num den : Nat) : Nat → Int → Int
  | 0, k => k
  | fuel + 1, k =>
    let isBelow :=
      if 0 ≤ k then num < den * tenTo k.toNat else num * tenTo (-k).toNat < den
    if isBelow then k else magnitudeFrom num den fuel (k + 1)

/-- The first grid, from one digit to seventeen, that holds a decimal which rounds to the
number. -/
def shortestFrom (r : Rounding) (top : Int) : List Nat → Digits
  | [] => ⟨0, 0⟩
  | count :: more =>
    match r.onGrid? (top - count) with
    | some digits => digits
    | none => shortestFrom r top more

def Digits.trimmed (digits : Digits) : Nat → Digits
  | 0 => digits
  | fuel + 1 =>
    if digits.value ≠ 0 ∧ digits.value % 10 = 0 then
      Digits.trimmed ⟨digits.value / 10, digits.power + 1⟩ fuel
    else digits

def shortest (mantissa : Nat) (exponent : Int) : Digits :=
  let r := Rounding.of mantissa exponent
  let guess : Int := ((r.point.log2 : Int) - (r.den.log2 : Int) - 1) * 3 / 10 - 2
  let top := magnitudeFrom r.point r.den 40 guess
  (shortestFrom r top (List.range' 1 17)).trimmed 20

def Digits.text (digits : Digits) : String :=
  let shown := (toString digits.value).toList
  let point : Int := shown.length + digits.power
  if -4 < point ∧ point ≤ 16 then
    if point ≤ 0 then String.ofList ("0.".toList ++ List.replicate (-point).toNat '0' ++ shown)
    else if shown.length ≤ point.toNat then
      String.ofList (shown ++ List.replicate (point.toNat - shown.length) '0' ++ ".0".toList)
    else String.ofList (shown.take point.toNat ++ '.' :: shown.drop point.toNat)
  else
    let exponent := point - 1
    let size := toString exponent.natAbs
    let size := if size.length < 2 then "0" ++ size else size
    let fraction := if shown.length ≤ 1 then [] else '.' :: shown.drop 1
    String.ofList (shown.take 1 ++ fraction) ++ (if exponent < 0 then "e-" else "e+") ++ size

def Binary64.text : Binary64 → String
  | .finite negative mantissa exponent =>
    let body := if mantissa = 0 then "0.0" else (shortest mantissa exponent).text
    if negative then "-" ++ body else body
  | .infinite negative => if negative then "-inf" else "inf"
  | .notNumber => "nan"

end JuceWorkbench.Decimal
