import LessonScript.Decimal.Basic
import LessonScript.Text.Search

/-!
# YAML scalars

A text is written plain where it then reads back as the same text. One that would read back as
something else is quoted; characters that may not stand in a file force double quotes and
escapes; a text of several lines is written literally, line by line.
-/

namespace LessonScript.Yaml

/-- A character that ends a line: line feed, carriage return, next line, line separator,
paragraph separator. -/
def isBreak (c : Char) : Bool :=
  c == '\n' || c == '\r' || c.toNat == 0x85 || c.toNat == 0x2028 || c.toNat == 0x2029

/-- A character that separates: a space, a tab, a break, or NUL. -/
def separates (c : Char) : Bool := c == ' ' || c == '\t' || isBreak c || c.toNat == 0

/-- The separation at the head of a text; its end separates too. -/
def separated (cs : List Char) : Bool := cs.head?.all separates

/-- A character that may not stand in a file as itself. -/
def isSpecial (c : Char) : Bool :=
  let n := c.toNat
  (n < 0x20 && n != 0x0A) || (0x7F ≤ n && n ≤ 0x9F) || n == 0xFEFF || n == 0xFFFE || n == 0xFFFF

/-- A character that means something at the start of a text. -/
def startsMarkup (c : Char) : Bool := "#,[]\x7b\x7d&*!|>'\"%@\x60".toList.contains c

/-- Whether a text holds markup behind a character: a colon that ends a key, or a hash sign
that starts a comment. -/
def marksBehind : Char → List Char → Bool
  | _, [] => false
  | before, c :: cs =>
    (c == ':' && separated cs) || (c == '#' && separates before) || marksBehind c cs

/-- Whether a plain text would be taken for markup. -/
def isMarkup (cs : List Char) : Bool :=
  match cs with
  | [] => false
  | c :: rest =>
    (Text.after? "---".toList cs).isSome || (Text.after? "...".toList cs).isSome ||
      startsMarkup c || ((c == '?' || c == ':' || c == '-') && separated rest) ||
      marksBehind c rest

/-- Whether two neighbours of a text satisfy a condition. -/
def hasNeighbours (p : Char → Char → Bool) : List Char → Bool
  | c :: d :: cs => p c d || hasNeighbours p (d :: cs)
  | _ => false

def breaksBehindSpace (cs : List Char) : Bool := hasNeighbours (fun c d => c == ' ' && isBreak d) cs

def spaceBehindBreak (cs : List Char) : Bool := hasNeighbours (fun c d => isBreak c && d == ' ') cs

def allowsPlain (cs : List Char) : Bool :=
  !isMarkup cs && !cs.any isSpecial && !cs.any isBreak && cs.head? != some ' ' &&
    cs.getLast? != some ' '

def allowsSingle (cs : List Char) : Bool :=
  !cs.any isSpecial && !breaksBehindSpace cs && !spaceBehindBreak cs

def allowsLiteral (cs : List Char) : Bool :=
  !cs.isEmpty && !cs.any isSpecial && !breaksBehindSpace cs && cs.getLast? != some ' '

/-- Whether a text is a number of a base, at most `bound`. -/
def isNumberIn (base bound : Nat) (cs : List Char) : Bool :=
  match cs.mapM (Text.digitIn? base) with
  | none => false
  | some ds => !ds.isEmpty && ds.foldl (fun n d => base * n + d) 0 ≤ bound

/-- Whether a text reads as a number with a mark for its base, within 128 bits. -/
def isBasedNumber (cs : List Char) : Bool :=
  let (bound, cs) := match cs with
    | '+' :: cs => (Text.wordMax 128, cs)
    | '-' :: cs => (Text.wordMax 127 + 1, cs)
    | _ => (Text.wordMax 128, cs)
  match cs with
  | '0' :: 'x' :: ds => isNumberIn 16 bound ds
  | '0' :: 'o' :: ds => isNumberIn 8 bound ds
  | '0' :: 'b' :: ds => isNumberIn 2 bound ds
  | _ => false

/-- Whether a text reads as a finite decimal number. -/
def isDecimalNumber (cs : List Char) : Bool :=
  let (negative, body) := Decimal.spanSign cs
  match Decimal.ofText? negative body with
  | some d => !d.toFloat.isInf
  | none => false

/-- The words that read as something else than a text, numbers apart. -/
def reservedWords : List String :=
  ["", "null", "Null", "NULL", "~", "true", "True", "TRUE", "false", "False", "FALSE",
    ".inf", ".Inf", ".INF", "+.inf", "+.Inf", "+.INF", "-.inf", "-.Inf", "-.INF",
    ".nan", ".NaN", ".NAN"]

/-- Whether a text has digits only, behind a superfluous zero. -/
def isZeroPadded : List Char → Bool
  | '0' :: digits => !digits.isEmpty && digits.all Char.isDigit
  | _ => false

/-- Whether a plain text reads as a text: digits behind a superfluous zero are not left to
chance, however many they are. -/
def readsAsText (cs : List Char) : Bool :=
  !reservedWords.contains (String.ofList cs) && !isBasedNumber cs && !isDecimalNumber cs &&
    !isZeroPadded (Decimal.spanSign cs).2

inductive Style where
  | plain | single | double | literal
deriving DecidableEq, Repr

def styleOf (cs : List Char) : Style :=
  if '\n' ∈ cs then if allowsLiteral cs then .literal else .double
  else if readsAsText cs && allowsPlain cs then .plain
  else if allowsSingle cs then .single
  else .double

def hexDigits (width n : Nat) : List Char :=
  Text.padZeros width ((Nat.toDigits 16 n).map Char.toUpper)

def doubleChar (c : Char) : List Char :=
  if !(isSpecial c || isBreak c || c == '"' || c == '\\') then [c]
  else
    let short := [(0x00, '0'), (0x07, 'a'), (0x08, 'b'), (0x09, 't'), (0x0A, 'n'), (0x0B, 'v'),
      (0x0C, 'f'), (0x0D, 'r'), (0x1B, 'e'), (0x22, '"'), (0x5C, '\\'), (0x85, 'N'),
      (0x2028, 'L'), (0x2029, 'P')]
    match short.lookup c.toNat with
    | some e => ['\\', e]
    | none =>
      if c.toNat ≤ 0xFF then '\\' :: 'x' :: hexDigits 2 c.toNat
      else '\\' :: 'u' :: hexDigits 4 c.toNat

/-- A text whose lines after a break are indented; `fresh` says whether a line begins here. -/
def indented (indent : Nat) (fresh : Bool) : List Char → List Char
  | [] => []
  | c :: cs =>
    if isBreak c then c :: indented indent true cs
    else (if fresh then List.replicate indent ' ' else []) ++ c :: indented indent false cs

/-- A text between single quotes. A quote is written twice. -/
def singleLiteral (indent : Nat) (cs : List Char) : List Char :=
  let body := (indented indent false cs).flatMap fun c => if c = '\'' then ['\'', '\''] else [c]
  let closing := if cs.getLast?.any isBreak then List.replicate indent ' ' else []
  '\'' :: body ++ closing ++ ['\'']

/-- The marks at the head of a literal text: an indentation that its first line does not show,
and whether breaks at the end are dropped or all kept. -/
def literalHeader (cs : List Char) : List Char :=
  let indentMark := if cs.head?.any fun c => c == ' ' || isBreak c then ['2'] else []
  let endMark := match cs.reverse with
    | [] => ['-']
    | [c] => if isBreak c then ['+'] else ['-']
    | c :: d :: _ => if !isBreak c then ['-'] else if isBreak d then ['+'] else []
  '|' :: indentMark ++ endMark

/-- A text in a given style with its line ending. Lines after the first one are indented. A
literal text that ends with a break needs no other. -/
def writeText (style : Style) (indent : Nat) (cs : List Char) : List Char :=
  match style with
  | .plain => cs ++ ['\n']
  | .single => singleLiteral indent cs ++ ['\n']
  | .double => '"' :: cs.flatMap doubleChar ++ ['"', '\n']
  | .literal =>
    literalHeader cs ++ '\n' :: indented indent true cs ++
      if cs.getLast?.any isBreak then [] else ['\n']

end LessonScript.Yaml
