import LessonScript.Text.Numeral

/-!
# Decimals

A decimal is a whole number of units, a unit being a power of ten. This module cuts decimals
out of a text and rounds them to floating point numbers.
-/

namespace LessonScript

/-- The number `± digits * 10 ^ exponent`. -/
structure Decimal where
  negative : Bool
  digits : Nat
  exponent : Int
deriving DecidableEq, Repr

namespace Decimal

/-- The number written with these digits before and behind a point, times a power of ten. -/
def ofParts (negative : Bool) (whole fraction : List Char) (exponent : Int) : Decimal :=
  ⟨negative, Text.numeralValue (whole ++ fraction), exponent - fraction.length⟩

/-- The nearest floating point number. Powers of ten that no floating point number comes near
are not computed: 400 is beyond their range in both directions. -/
def toFloat (d : Decimal) : Float :=
  let leading := (Text.digits d.digits).length + d.exponent
  let magnitude : Float :=
    if d.digits = 0 ∨ leading < -400 then 0
    else if leading > 400 then 1 / 0
    else Float.ofScientific d.digits (d.exponent < 0) d.exponent.natAbs
  if d.negative then -magnitude else magnitude

def spanDigits (cs : List Char) : List Char × List Char :=
  (cs.takeWhile Char.isDigit, cs.dropWhile Char.isDigit)

/-- Whether a text starts with a minus sign, and what follows its sign, if it has one. -/
def spanSign : List Char → Bool × List Char
  | '-' :: cs => (true, cs)
  | '+' :: cs => (false, cs)
  | cs => (false, cs)

/-- The exponent at the head of a text, zero if there is none, and what follows it. The letter
must be followed by digits. -/
def spanExponent : List Char → Option (Int × List Char)
  | [] => some (0, [])
  | c :: cs =>
    if c = 'e' ∨ c = 'E' then
      let (negative, cs) := spanSign cs
      let (digits, rest) := spanDigits cs
      if digits.isEmpty then none
      else
        let value : Int := Text.numeralValue digits
        some (if negative then -value else value, rest)
    else some (0, c :: cs)

def ofText? (negative : Bool) (cs : List Char) : Option Decimal :=
  let (whole, rest) := spanDigits cs
  let (fraction, rest) := match rest with
    | '.' :: behind => spanDigits behind
    | _ => ([], rest)
  if whole.isEmpty && fraction.isEmpty then none
  else match spanExponent rest with
    | some (exponent, []) => some (ofParts negative whole fraction exponent)
    | _ => none

/-- The floating point number that a text writes: a decimal, or the word for an infinity or for
a number that is none, in letters of either case and with an optional sign. -/
def readFloat? (cs : List Char) : Option Float :=
  let (negative, body) := spanSign cs
  let word := body.map Char.toLower
  if word = "inf".toList ∨ word = "infinity".toList then some (if negative then -1 / 0 else 1 / 0)
  else if word = "nan".toList then some (0 / 0)
  else (ofText? negative body).map toFloat

end Decimal
end LessonScript
