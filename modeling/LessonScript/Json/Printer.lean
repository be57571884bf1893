import LessonScript.Data

/-!
# Writing JSON

Every item of a list and every field of a record stands on a line of its own, two spaces further
in than the list or record; an empty one is a pair of brackets. In texts, only quotes,
backslashes and control characters are escaped.
-/

namespace LessonScript.Json

def controlEscape (c : Char) : List Char :=
  "\\u".toList ++ Text.padZeros 4 (Nat.toDigits 16 c.toNat)

def textChar (c : Char) : List Char :=
  match c with
  | '"' => ['\\', '"']
  | '\\' => ['\\', '\\']
  | '\x08' => ['\\', 'b']
  | '\x0c' => ['\\', 'f']
  | '\n' => ['\\', 'n']
  | '\r' => ['\\', 'r']
  | '\t' => ['\\', 't']
  | _ => if c.toNat < 0x20 then controlEscape c else [c]

def textLiteral (s : String) : List Char := '"' :: (s.toList.flatMap textChar ++ ['"'])

/-- A number as its digits and a power of ten. -/
def decimalLiteral (d : Decimal) : List Char :=
  (if d.negative then ['-'] else []) ++ Text.digits d.digits ++ 'e' :: (toString d.exponent).toList

/-- A line break with the indentation of a nesting depth. -/
def lineBreak (depth : Nat) : List Char := '\n' :: List.replicate (2 * depth) ' '

mutual

/-- Data at a nesting depth. What denotes nothing is written as null. -/
def write (depth : Nat) : Data → List Char
  | .null | .unreadable => "null".toList
  | .bool b => (if b then "true" else "false").toList
  | .int n => (toString n).toList
  | .real d => decimalLiteral d
  | .text s => textLiteral s
  | .list [] => "[]".toList
  | .list (item :: rest) =>
    '[' :: lineBreak (depth + 1) ++ write (depth + 1) item ++ writeItems (depth + 1) rest ++
      lineBreak depth ++ [']']
  | .record [] => "\x7b\x7d".toList
  | .record ((key, value) :: rest) =>
    '\x7b' :: lineBreak (depth + 1) ++ textLiteral key ++ ": ".toList ++
      write (depth + 1) value ++ writeFields (depth + 1) rest ++ lineBreak depth ++ ['\x7d']

def writeItems (depth : Nat) : List Data → List Char
  | [] => []
  | item :: rest => ',' :: lineBreak depth ++ write depth item ++ writeItems depth rest

def writeFields (depth : Nat) : List (String × Data) → List Char
  | [] => []
  | (key, value) :: rest =>
    ',' :: lineBreak depth ++ textLiteral key ++ ": ".toList ++ write depth value ++
      writeFields depth rest

end

def print (data : Data) : String := String.ofList (write 0 data)

end LessonScript.Json
