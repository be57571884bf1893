import LessonScript.Decimal.Basic

/-!
# The text of floating point numbers

A floating point number is written with the fewest digits that read back as it, always
positionally. Of two such decimals the nearer one is taken, and the larger one when both are
equally near. A number can also be written with a fixed number of decimal places; a half then
goes to the even neighbour.
-/

namespace LessonScript

/-- The magnitude `m * 2 ^ q` of a finite floating point number. The gap below it is `narrow`
when it is half as wide as the gap above, as it is at powers of two. -/
structure Binary where
  negative : Bool
  m : Nat
  q : Int
  narrow : Bool

namespace Binary

def ofFloat? (x : Float) : Option Binary :=
  let bits : Nat := x.toBits.toNat
  let exponent : Nat := bits / Nat.pow 2 52 % Nat.pow 2 11
  let fraction : Nat := bits % Nat.pow 2 52
  let negative := Nat.pow 2 63 ≤ bits
  if exponent = 2047 then none
  else if exponent = 0 then some ⟨negative, fraction, -1074, false⟩
  else
    some ⟨negative, Nat.pow 2 52 + fraction, (exponent : Int) - 1075, fraction = 0 ∧ 1 < exponent⟩

/-- The magnitude as a fraction of units of `10 ^ e`: `m` times the first number, divided by
the second. -/
def scale (b : Binary) (e : Int) : Nat × Nat :=
  (Nat.pow 2 b.q.toNat * Nat.pow 10 (-e).toNat, Nat.pow 2 (-b.q).toNat * Nat.pow 10 e.toNat)

/-- Whether so many units of `10 ^ e` round to the number: they lie between the middles of the
gaps on either side, and may be a middle when `m` is even. -/
def readsBack (b : Binary) (e : Int) (units : Nat) : Bool :=
  let (up, down) := b.scale e
  let low := (4 * b.m - if b.narrow then 1 else 2) * up
  let high := (4 * b.m + 2) * up
  let x := 4 * units * down
  if b.m % 2 = 0 then low ≤ x && x ≤ high else low < x && x < high

/-- The units of `10 ^ e` next to the number that round to it, if there are any. -/
def onGrid? (b : Binary) (e : Int) : Option Nat :=
  let (up, down) := b.scale e
  let below := b.m * up / down
  let nearer := if 2 * (b.m * up) < (2 * below + 1) * down then [below, below + 1]
    else [below + 1, below]
  nearer.find? (b.readsBack e)

/-- The number of digits that the magnitude has before the point; zero or less when the number
is below one tenth or has no whole part. -/
def wholeDigits (b : Binary) : Int :=
  let (up, down) := b.scale 0
  let num := b.m * up
  if down ≤ num then (Text.digits (num / down)).length
  else 1 - ((Text.digits ((down + num - 1) / num - 1)).length : Int)

/-- The decimal with the fewest digits that reads back as the number. Seventeen are enough. A
number just below a power of ten may come out as ten units of the coarsest grid, whose zero
is not needed. -/
def shortest (b : Binary) : Decimal :=
  if b.m = 0 then ⟨b.negative, 0, 0⟩
  else
    let places := (List.range 17).map fun (n : Nat) => b.wholeDigits - (n + 1)
    let found := places.findSome? fun e => (b.onGrid? e).map fun units => (units, e)
    let (units, e) := found.getD (b.m, 0)
    if units % 10 = 0 then ⟨b.negative, units / 10, e + 1⟩ else ⟨b.negative, units, e⟩

end Binary

def Decimal.positional (d : Decimal) : List Char :=
  let ds := Text.digits d.digits
  let places := (-d.exponent).toNat
  let body :=
    if 0 ≤ d.exponent then ds ++ List.replicate d.exponent.toNat '0'
    else
      let padded := Text.padZeros (places + 1) ds
      padded.take (padded.length - places) ++ '.' :: padded.drop (padded.length - places)
  if d.negative then '-' :: body else body

def floatText (x : Float) : String :=
  match Binary.ofFloat? x with
  | some b => String.ofList b.shortest.positional
  | none => if x.isNaN then "NaN" else if x < 0 then "-inf" else "inf"

/-- The text of a finite floating point number with so many decimal places. -/
def fixedText (places : Nat) (x : Float) : String :=
  match Binary.ofFloat? x with
  | none => floatText x
  | some b =>
    let (up, down) := b.scale (-places)
    let num := b.m * up
    let units := num / down
    let rest := 2 * (num % down)
    let units := if rest < down ∨ (rest = down ∧ units % 2 = 0) then units else units + 1
    String.ofList (Decimal.positional ⟨b.negative, units, -places⟩)

end LessonScript
