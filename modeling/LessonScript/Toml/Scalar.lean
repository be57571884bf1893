import LessonScript.Settings.Value
import LessonScript.Text.Numeral
import LessonScript.Text.Search

/-!
# TOML scalars

Texts in quotes of four kinds, and the words for booleans, numbers, dates and times. A date or
time stands for its text in the usual form.
-/

namespace LessonScript.Toml

def isSpace (c : Char) : Bool := c == ' ' || c == '\t'

/-- A character that may stand in a comment or between quotes on one line. -/
def isLineChar (c : Char) : Bool := c == '\t' || (0x20 ≤ c.toNat && c.toNat != 0x7F)

/-- What follows a line ending at the head of a text. -/
def afterNewline? : List Char → Option (List Char)
  | '\n' :: rest => some rest
  | '\r' :: '\n' :: rest => some rest
  | _ => none

def skipSpaces (cs : List Char) : List Char := cs.dropWhile isSpace

/-- The value of digits in a base up to sixteen, if all are digits of that base. -/
def basedValue? (base : Nat) (cs : List Char) : Option Nat :=
  cs.foldlM (fun n c => (Text.digitIn? base c).map (base * n + ·)) 0

/-- The character of a code point written with hexadecimal digits. -/
def charOfHex? (digits : List Char) : Option Char := do
  let n ← basedValue? 16 digits
  if n.isValidChar then some (Char.ofNat n) else none

/-- The escape behind a backslash, and what follows it. -/
def scanEscape : List Char → Option (Char × List Char)
  | 'u' :: rest => if rest.length < 4 then none else (charOfHex? (rest.take 4)).map (·, rest.drop 4)
  | 'U' :: rest => if rest.length < 8 then none else (charOfHex? (rest.take 8)).map (·, rest.drop 8)
  | e :: rest =>
    let short := [('b', '\x08'), ('t', '\t'), ('n', '\n'), ('f', '\x0c'), ('r', '\r'), ('"', '"'),
      ('\\', '\\')]
    (short.lookup e).map (·, rest)
  | [] => none

/-- The text up to a closing double quote on the same line, and what follows the quote. -/
def scanBasic : Nat → List Char → Option (List Char × List Char)
  | _, [] | 0, _ => none
  | fuel + 1, c :: cs =>
    if c = '"' then some ([], cs)
    else do
      let (c, cs) ← if c = '\\' then scanEscape cs
        else if isLineChar c then some (c, cs) else none
      let (text, rest) ← scanBasic fuel cs
      some (c :: text, rest)

/-- The text up to a closing single quote on the same line, and what follows the quote. -/
def scanLiteral (cs : List Char) : Option (List Char × List Char) :=
  let text := cs.takeWhile fun c => c ≠ '\'' && isLineChar c
  match cs.drop text.length with
  | '\'' :: rest => some (text, rest)
  | _ => none

/-- The quotes in front of three closing ones that belong to the text: at most two, if the
text at hand closes at all here. -/
def closing? (quote : Char) (cs : List Char) : Option (List Char × List Char) :=
  let run := cs.takeWhile (· = quote)
  if run.length < 3 then none
  else
    let kept := min (run.length - 3) 2
    some (List.replicate kept quote, cs.drop (kept + 3))

/-- White space and line endings at the head of a text taken away. -/
def skipBlank : Nat → List Char → List Char
  | 0, cs => cs
  | fuel + 1, cs =>
    match afterNewline? (skipSpaces cs) with
    | some rest => skipBlank fuel rest
    | none => skipSpaces cs

/-- The text of several lines up to three closing double quotes. A backslash at the end of a
line takes the line ending and the white space behind it away. -/
def scanLongBasic : Nat → List Char → Option (List Char × List Char)
  | _, [] | 0, _ => none
  | fuel + 1, c :: cs =>
    match closing? '"' (c :: cs) with
    | some done => some done
    | none =>
      if c = '\\' && (afterNewline? (skipSpaces cs)).isSome then
        scanLongBasic fuel (skipBlank cs.length cs)
      else do
        let (c, cs) ← if c = '\\' then scanEscape cs
          else match afterNewline? (c :: cs) with
            | some rest => some ('\n', rest)
            | none => if isLineChar c then some (c, cs) else none
        let (text, rest) ← scanLongBasic fuel cs
        some (c :: text, rest)

/-- The text of several lines up to three closing single quotes. -/
def scanLongLiteral : Nat → List Char → Option (List Char × List Char)
  | _, [] | 0, _ => none
  | fuel + 1, c :: cs =>
    match closing? '\'' (c :: cs) with
    | some done => some done
    | none => do
      let (c, cs) ← match afterNewline? (c :: cs) with
        | some rest => some ('\n', rest)
        | none => if isLineChar c then some (c, cs) else none
      let (text, rest) ← scanLongLiteral fuel cs
      some (c :: text, rest)

/-- A text in quotes of any kind, and what follows it. A line ending right behind three opening
quotes is no part of the text. -/
def scanText (cs : List Char) : Option (List Char × List Char) :=
  let dropNewline (cs : List Char) := (afterNewline? cs).getD cs
  match cs with
  | '"' :: '"' :: '"' :: rest => scanLongBasic rest.length (dropNewline rest)
  | '\'' :: '\'' :: '\'' :: rest => scanLongLiteral rest.length (dropNewline rest)
  | '"' :: rest => scanBasic rest.length rest
  | '\'' :: rest => scanLiteral rest
  | _ => none

/-- Digits without the underscores between them. -/
def plainDigits? (p : Char → Bool) (cs : List Char) : Option (List Char) :=
  let parts := Text.splitOn '_' cs
  if parts.all fun part => !part.isEmpty && part.all p then some parts.flatten else none

/-- Digits of a whole number, which start with no superfluous zero. -/
def wholeDigits? (cs : List Char) : Option (List Char) := do
  let digits ← plainDigits? Char.isDigit cs
  match digits with
  | '0' :: _ :: _ => none
  | _ => some digits

/-- An integer of 64 bits, in decimal with an optional sign or in another base without one. -/
def integer? (cs : List Char) : Option Int := do
  let n : Int ← match cs with
    | '0' :: 'x' :: ds => (plainDigits? Char.isAlphanum ds).bind fun ds =>
      (basedValue? 16 ds).map Int.ofNat
    | '0' :: 'o' :: ds => (plainDigits? Char.isDigit ds).bind fun ds =>
      (basedValue? 8 ds).map Int.ofNat
    | '0' :: 'b' :: ds => (plainDigits? Char.isDigit ds).bind fun ds =>
      (basedValue? 2 ds).map Int.ofNat
    | _ =>
      let (negative, body) := Decimal.spanSign cs
      (wholeDigits? body).map fun ds =>
        if negative then -(Text.numeralValue ds : Int) else Text.numeralValue ds
  if Int64.minValue.toInt ≤ n ∧ n ≤ Int64.maxValue.toInt then some n else none

/-- A floating point number: with a fraction, an exponent or both, or the word for an infinity
or for what is no number. Positive numbers beyond the range are refused. -/
def real? (cs : List Char) : Option Float := do
  let (negative, body) := Decimal.spanSign cs
  if body = "inf".toList then some (if negative then -1 / 0 else 1 / 0)
  else if body = "nan".toList then some (0 / 0)
  else
    let mantissa := body.takeWhile fun c => c ≠ 'e' && c ≠ 'E'
    let behind := body.drop mantissa.length
    let whole := mantissa.takeWhile (· ≠ '.')
    let wholeDigits ← wholeDigits? whole
    let fraction ← match mantissa.drop whole.length with
      | [] => if behind.isEmpty then none else some []
      | _ :: digits => plainDigits? Char.isDigit digits
    let exponent : Int ← match behind with
      | [] => some 0
      | _ :: digits =>
        let (negative, digits) := Decimal.spanSign digits
        (plainDigits? Char.isDigit digits).map fun ds =>
          if negative then -(Text.numeralValue ds : Int) else Text.numeralValue ds
    let x := (Decimal.ofParts negative wholeDigits fraction exponent).toFloat
    if x.isInf && !negative then none else some x

/-- A number of exactly so many digits at the head of a text, within bounds. -/
def scanField (width low high : Nat) (cs : List Char) : Option (Nat × List Char) :=
  let digits := cs.take width
  let n := Text.numeralValue digits
  if digits.length = width && digits.all Char.isDigit && low ≤ n && n ≤ high then
    some (n, cs.drop width)
  else none

def expect (c : Char) : List Char → Option (List Char)
  | d :: rest => if c = d then some rest else none
  | [] => none

def daysIn (year month : Nat) : Nat :=
  if month = 2 then
    if year % 4 = 0 && (year % 100 != 0 || year % 400 = 0) then 29 else 28
  else if month = 4 || month = 6 || month = 9 || month = 11 then 30
  else 31

def two (n : Nat) : List Char := Text.padZeros 2 (Text.digits n)

/-- A date at the head of a text in its usual form. -/
def scanDate (cs : List Char) : Option (List Char × List Char) := do
  let (year, cs) ← scanField 4 0 9999 cs
  let (month, cs) ← scanField 2 1 12 (← expect '-' cs)
  let (day, cs) ← scanField 2 1 (daysIn year month) (← expect '-' cs)
  some (Text.padZeros 4 (Text.digits year) ++ '-' :: two month ++ '-' :: two day, cs)

/-- A time at the head of a text in its usual form: fractions of a second have at most nine
digits and no zeros at their end. -/
def scanTime (cs : List Char) : Option (List Char × List Char) := do
  let (hour, cs) ← scanField 2 0 23 cs
  let (minute, cs) ← scanField 2 0 59 (← expect ':' cs)
  let (second, cs) ← scanField 2 0 60 (← expect ':' cs)
  let (fraction, cs) ← match cs with
    | '.' :: rest =>
      let (digits, rest) := Decimal.spanDigits rest
      if digits.isEmpty then none
      else some (((digits.take 9).reverse.dropWhile (· = '0')).reverse, rest)
    | _ => some ([], cs)
  let shown := if fraction.isEmpty then [] else '.' :: fraction
  some (two hour ++ ':' :: two minute ++ ':' :: two second ++ shown, cs)

/-- An offset from universal time in its usual form, or nothing. -/
def offset? : List Char → Option (List Char)
  | [] => some []
  | [c] => if c = 'Z' || c = 'z' then some ['Z'] else none
  | sign :: cs => do
    guard (sign = '+' || sign = '-')
    let (hours, cs) ← scanField 2 0 23 cs
    let (minutes, cs) ← scanField 2 0 59 (← expect ':' cs)
    guard cs.isEmpty
    let sign := if hours = 0 && minutes = 0 then '+' else sign
    some (sign :: two hours ++ ':' :: two minutes)

/-- A date, a time, or a date with a time and perhaps an offset, in its usual form. -/
def dateTime? (cs : List Char) : Option (List Char) :=
  match scanDate cs with
  | none => (scanTime cs).bind fun (time, rest) => if rest.isEmpty then some time else none
  | some (date, []) => some date
  | some (date, c :: rest) => do
    guard (c = 'T' || c = 't' || c = ' ')
    let (time, rest) ← scanTime rest
    let offset ← offset? rest
    some (date ++ 'T' :: time ++ offset)

/-- A character of a word that stands for a scalar. -/
def isWordChar (c : Char) : Bool :=
  c.isAlphanum || c == '_' || c == '+' || c == '-' || c == '.' || c == ':'

/-- The word at the head of a text, and what follows it. A date may be parted from its time by a
space. -/
def scanWord (cs : List Char) : List Char × List Char :=
  let word := cs.takeWhile isWordChar
  match cs.drop word.length with
  | ' ' :: a :: b :: ':' :: rest =>
    if a.isDigit && b.isDigit && (dateTime? word).isSome && word.length = 10 then
      let time := (a :: b :: ':' :: rest).takeWhile isWordChar
      (word ++ ' ' :: time, cs.drop (word.length + 1 + time.length))
    else (word, cs.drop word.length)
  | rest => (word, rest)

def scalarOfWord? (word : List Char) : Option Setting :=
  if word = "true".toList then some (.ofBool true)
  else if word = "false".toList then some (.ofBool false)
  else match integer? word with
    | some n => some (.ofInt n)
    | none => match real? word with
      | some x => some (.ofFloat x)
      | none => (dateTime? word).map fun text => .ofText (String.ofList text)

end LessonScript.Toml
