import LessonScript.Text.Blank

/-!
# Numerals

A numeral is a non-empty run of ASCII digits. It is read as its value when that value fits
the bound asked for, whatever the number of leading zeros, and refused otherwise. The formats
that are read know digits of other bases too.
-/

namespace LessonScript.Text

def isNumeral (cs : List Char) : Bool := !cs.isEmpty && cs.all Char.isDigit

def digitValue (c : Char) : Nat := c.toNat - '0'.toNat

/-- The value of a digit of a base up to sixteen. Beyond nine the digits are letters of either
case. -/
def digitIn? (base : Nat) (c : Char) : Option Nat :=
  let value :=
    if c.isDigit then some (digitValue c)
    else if 'a' ≤ c ∧ c ≤ 'f' then some (c.toNat - 'a'.toNat + 10)
    else if 'A' ≤ c ∧ c ≤ 'F' then some (c.toNat - 'A'.toNat + 10)
    else none
  value.filter (· < base)

/-- The value of a run of digits, the first digit being the most significant. -/
def numeralValue (cs : List Char) : Nat := cs.foldl (fun n c => 10 * n + digitValue c) 0

/-- The value of a numeral that is at most `bound`. -/
def readUpTo (bound : Nat) (cs : List Char) : Option Nat :=
  if isNumeral cs && numeralValue cs ≤ bound then some (numeralValue cs) else none

/-- A numeral that may carry a plus sign. -/
def readSignedUpTo (bound : Nat) : List Char → Option Nat
  | '+' :: cs => readUpTo bound cs
  | cs => readUpTo bound cs

/-- The decimal digits of a number, without leading zeros. -/
def digits (n : Nat) : List Char := Nat.toDigits 10 n

/-- The text padded on the left with zeros up to a width counted in characters. -/
def padZeros (width : Nat) (cs : List Char) : List Char :=
  List.replicate (width - cs.length) '0' ++ cs

/-- The largest value of an unsigned word of the given number of bits. -/
def wordMax (bits : Nat) : Nat := Nat.pow 2 bits - 1

theorem readUpTo_eq_some_iff {bound n : Nat} {cs : List Char} :
    readUpTo bound cs = some n ↔ isNumeral cs = true ∧ numeralValue cs = n ∧ n ≤ bound := by
  simp only [readUpTo, Bool.and_eq_true, decide_eq_true_eq]
  constructor
  · intro h
    split at h
    · rename_i hc
      obtain rfl := Option.some.inj h
      exact ⟨hc.1, rfl, hc.2⟩
    · simp at h
  · rintro ⟨h1, rfl, h2⟩
    simp [h1, h2]

theorem numeralValue_append_singleton (cs : List Char) (c : Char) :
    numeralValue (cs ++ [c]) = 10 * numeralValue cs + digitValue c := by
  simp [numeralValue]

end LessonScript.Text
