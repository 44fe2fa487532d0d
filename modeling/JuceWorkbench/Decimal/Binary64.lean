/-! Binary floating-point numbers of 64 bits as exact values: a mantissa below 2^53 times a
power of two not below 2^-1074. `ofDecimal` rounds a decimal to the nearest of them, a tie
to the even mantissa. -/

namespace JuceWorkbench.Decimal

def twoTo (n : Nat) : Nat := Nat.pow 2 n
def tenTo (n : Nat) : Nat := Nat.pow 10 n

/-- A quotient rounded to the nearest integer, a tie to the even one. -/
def roundDiv (num den : Nat) : Nat :=
  let floor := num / den
  let twice := 2 * (num % den)
  if twice < den then floor
  else if den < twice then floor + 1
  else if floor % 2 = 0 then floor else floor + 1

inductive Binary64
  | finite (negative : Bool) (mantissa : Nat) (exponent : Int)
  | infinite (negative : Bool)
  | notNumber
  deriving DecidableEq, Repr

namespace Binary64

def minExponent : Int := -1074
def maxExponent : Int := 971

def zero : Binary64 := .finite false 0 minExponent

def scaled (num den : Nat) (exponent : Int) : Nat :=
  if 0 ≤ exponent then roundDiv num (den * twoTo exponent.toNat)
  else roundDiv (num * twoTo (-exponent).toNat) den

def ofRatio (num den : Nat) : Binary64 :=
  let guess : Int := (num.log2 : Int) - (den.log2 : Int) - 53
  let low := if guess < minExponent then minExponent else guess
  let below (e : Int) : Bool :=
    if 0 ≤ e then num < den * twoTo (53 + e.toNat) else num * twoTo (-e).toNat < den * twoTo 53
  let exponent := if below low then low else if below (low + 1) then low + 1 else low + 2
  let mantissa := scaled num den exponent
  let (mantissa, exponent) :=
    if mantissa = twoTo 53 then (twoTo 52, exponent + 1) else (mantissa, exponent)
  if maxExponent < exponent then .infinite false else .finite false mantissa exponent

def digitCount (n : Nat) : Nat := (Nat.toDigits 10 n).length

/-- The number nearest to `digits * 10 ^ power`. Far outside the range no power of ten is
formed. -/
def ofDecimal (digits : Nat) (power : Int) : Binary64 :=
  let magnitude := (digitCount digits : Int) + power
  if digits = 0 ∨ magnitude < -330 then zero
  else if 320 < magnitude then .infinite false
  else if 0 ≤ power then ofRatio (digits * tenTo power.toNat) 1
  else ofRatio digits (tenTo (-power).toNat)

/-- Zero less the number. Zero less zero is zero, without a sign. -/
def negate : Binary64 → Binary64
  | .finite negative mantissa exponent =>
    .finite (if mantissa = 0 then false else !negative) mantissa exponent
  | .infinite negative => .infinite (!negative)
  | .notNumber => .notNumber

def opposite : Binary64 → Binary64
  | .finite negative mantissa exponent => .finite (!negative) mantissa exponent
  | .infinite negative => .infinite (!negative)
  | .notNumber => .notNumber

def isZero : Binary64 → Bool
  | .finite _ mantissa _ => mantissa = 0
  | _ => false

end Binary64
end JuceWorkbench.Decimal
