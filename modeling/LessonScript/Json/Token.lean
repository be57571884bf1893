import LessonScript.Data
import LessonScript.Text.Numeral
import LessonScript.Text.Search

/-!
# JSON tokens

A JSON text is a sequence of tokens with white space between them: brackets, separators, and
scalars. Texts may write characters as escapes; one that leaves half of a surrogate pair alone
denotes no text, and a number beyond the range of floating point denotes no number.
-/

namespace LessonScript.Json

inductive Token where
  | openList | closeList | openRecord | closeRecord | comma | colon
  | text (s : Option String)
  | scalar (value : Data)
deriving Repr

def isSpace (c : Char) : Bool := c == ' ' || c == '\t' || c == '\n' || c == '\r'

/-- The number that four hexadecimal digits write. -/
def hexUnit? (a b c d : Char) : Option Nat := do
  let digit := Text.digitIn? 16
  some (((← digit a) * 16 + (← digit b)) * 256 + (← digit c) * 16 + (← digit d))

/-- The character that stands behind a backslash for another one. -/
def escaped? : Char → Option Char
  | '"' => some '"'
  | '\\' => some '\\'
  | '/' => some '/'
  | 'b' => some '\x08'
  | 'f' => some '\x0c'
  | 'n' => some '\n'
  | 'r' => some '\r'
  | 't' => some '\t'
  | _ => none

/-- The code units of a text up to its closing quote, and what follows the quote. -/
def scanUnits : List Char → Option (List Nat × List Char)
  | [] => none
  | '"' :: rest => some ([], rest)
  | '\\' :: 'u' :: a :: b :: c :: d :: rest => do
    let unit ← hexUnit? a b c d
    let (units, rest) ← scanUnits rest
    some (unit :: units, rest)
  | '\\' :: e :: rest => do
    let c ← escaped? e
    let (units, rest) ← scanUnits rest
    some (c.toNat :: units, rest)
  | c :: rest =>
    if c.toNat < 0x20 then none
    else do
      let (units, rest) ← scanUnits rest
      some (c.toNat :: units, rest)

def isHigh (unit : Nat) : Bool := 0xD800 ≤ unit && unit ≤ 0xDBFF

def isLow (unit : Nat) : Bool := 0xDC00 ≤ unit && unit ≤ 0xDFFF

/-- The characters of code units, surrogate pairs being one character. -/
def joinUnits : List Nat → Option (List Char)
  | [] => some []
  | [unit] => if isHigh unit || isLow unit then none else some [Char.ofNat unit]
  | unit :: next :: rest =>
    if isLow unit then none
    else if isHigh unit then
      if isLow next then
        (joinUnits rest).map (Char.ofNat (0x10000 + (unit - 0xD800) * 0x400 + (next - 0xDC00)) :: ·)
      else none
    else (joinUnits (next :: rest)).map (Char.ofNat unit :: ·)

/-- A number at the head of a text, without its sign: its whole part, which has no superfluous
zero, its fraction and its exponent where there are such. -/
def scanNumber (cs : List Char) :
    Option (List Char × Option (List Char) × Option Int × List Char) := do
  let (whole, rest) ← match cs with
    | '0' :: rest => some (['0'], rest)
    | _ => some (Decimal.spanDigits cs)
  guard !whole.isEmpty
  let (fraction, rest) ← match rest with
    | '.' :: behind =>
      let (fraction, rest) := Decimal.spanDigits behind
      if fraction.isEmpty then none else some (some fraction, rest)
    | _ => some (none, rest)
  let (exponent, behind) ← Decimal.spanExponent rest
  some (whole, fraction, if behind.length < rest.length then some exponent else none, behind)

/-- The data that a number denotes. Without fraction and exponent it is an integer if it fits
a 64-bit word, signed or unsigned; a negative zero is none. -/
def numberData (negative : Bool) (whole : List Char) (fraction : Option (List Char))
    (exponent : Option Int) : Data :=
  let n := Text.numeralValue whole
  let fits := if negative then 0 < n && n ≤ Text.wordMax 63 + 1 else n ≤ Text.wordMax 64
  if fraction.isNone && exponent.isNone && fits then .int (if negative then -n else n)
  else
    let d := Decimal.ofParts negative whole (fraction.getD []) (exponent.getD 0)
    if d.toFloat.isInf then .unreadable else .real d

/-- The first token of a text that starts with none of JSON's white space, and what follows. -/
def scanToken : List Char → Option (Token × List Char)
  | '[' :: rest => some (.openList, rest)
  | ']' :: rest => some (.closeList, rest)
  | '\x7b' :: rest => some (.openRecord, rest)
  | '\x7d' :: rest => some (.closeRecord, rest)
  | ',' :: rest => some (.comma, rest)
  | ':' :: rest => some (.colon, rest)
  | '"' :: rest => (scanUnits rest).map fun (units, rest) =>
    (.text ((joinUnits units).map String.ofList), rest)
  | 'n' :: rest => (Text.after? "ull".toList rest).map (.scalar .null, ·)
  | 't' :: rest => (Text.after? "rue".toList rest).map (.scalar (.bool true), ·)
  | 'f' :: rest => (Text.after? "alse".toList rest).map (.scalar (.bool false), ·)
  | cs =>
    let (negative, digits) := match cs with
      | '-' :: digits => (true, digits)
      | _ => (false, cs)
    (scanNumber digits).map fun (whole, fraction, exponent, rest) =>
      (.scalar (numberData negative whole fraction exponent), rest)

/-- The tokens of a text that has at most so many. -/
def tokensUpTo : Nat → List Char → Option (List Token)
  | 0, cs => if cs.all isSpace then some [] else none
  | fuel + 1, cs =>
    match cs.dropWhile isSpace with
    | [] => some []
    | c :: rest => do
      let (token, rest) ← scanToken (c :: rest)
      some (token :: (← tokensUpTo fuel rest))

def tokens (cs : List Char) : Option (List Token) := tokensUpTo cs.length cs

end LessonScript.Json
