import LessonScript.Data
import LessonScript.Yaml.Scalar

/-!
# Writing YAML

Lists and records are written as blocks. The fields of a record stand two spaces further in than
the record's own field; the items of a list stand right below it. Empty lists and records are
pairs of brackets. A key that is long or has several lines stands on lines of its own.
-/

namespace LessonScript.Yaml

/-- The longest key, in bytes, that stands in front of its colon. -/
def simpleKeyLimit : Nat := 128

def isSimpleKey (key : String) : Bool :=
  key.utf8ByteSize ≤ simpleKeyLimit && !key.toList.any isBreak

def spaces (n : Nat) : List Char := List.replicate n ' '

def writeScalarText (indent : Nat) (s : String) : List Char :=
  writeText (styleOf s.toList) (indent + 2) s.toList

def writeKey (indent : Nat) (key : String) : List Char :=
  if isSimpleKey key then
    (writeScalarText indent key).dropLast ++ [':']
  else '?' :: ' ' :: writeScalarText indent key ++ spaces indent ++ [':']

/-- Whether data is written as a block of lines of its own. -/
def isBlock : Data → Bool
  | .list items => !items.isEmpty
  | .record fields => !fields.isEmpty
  | _ => false

mutual

/-- A scalar or an empty collection with its line ending, or a block, all of whose lines are
indented. -/
def write (indent : Nat) : Data → List Char
  | .null | .unreadable => "null\n".toList
  | .bool b => (if b then "true\n" else "false\n").toList
  | .int n => (toString n).toList ++ ['\n']
  | .real d => (if d.negative then ['-'] else []) ++ Text.digits d.digits ++ 'e' ::
      (toString d.exponent).toList ++ ['\n']
  | .text s => writeScalarText indent s
  | .list [] => "[]\n".toList
  | .list (item :: rest) => writeItems indent (item :: rest)
  | .record [] => "\x7b\x7d\n".toList
  | .record (field :: rest) => writeFields indent (field :: rest)

def writeItems (indent : Nat) : List Data → List Char
  | [] => []
  | item :: rest =>
    let body :=
      if isBlock item then (write (indent + 2) item).drop (indent + 2) else write indent item
    spaces indent ++ '-' :: ' ' :: body ++ writeItems indent rest

/-- The fields of a record. A block below a simple key starts on the next line. -/
def writeFields (indent : Nat) : List (String × Data) → List Char
  | [] => []
  | (key, value) :: rest =>
    let body := match value with
      | .list (item :: items) =>
        if isSimpleKey key then '\n' :: writeItems indent (item :: items)
        else ' ' :: (writeItems (indent + 2) (item :: items)).drop (indent + 2)
      | .record (field :: fields) =>
        if isSimpleKey key then '\n' :: writeFields (indent + 2) (field :: fields)
        else ' ' :: (writeFields (indent + 2) (field :: fields)).drop (indent + 2)
      | value => ' ' :: write indent value
    spaces indent ++ writeKey indent key ++ body ++ writeFields indent rest

end

def print (data : Data) : String := String.ofList (write 0 data)

end LessonScript.Yaml
