import LessonScript.Table
import LessonScript.Text.Numeral

/-!
# Metadata

A script's header binds keys to values. A value written with ASCII digits alone is an integer
when it fits a signed 64-bit word; every other value is the text as written.
-/

namespace LessonScript

inductive MetaValue where
  | int (value : Int64)
  | str (text : String)
deriving DecidableEq, Repr

abbrev Metadata := Table String MetaValue

namespace MetaValue

/-- The value that a header writes as the given text. -/
def ofText (cs : List Char) : MetaValue :=
  match Text.readUpTo (Text.wordMax 63) cs with
  | some n => .int (Int64.ofNat n)
  | none => .str (String.ofList cs)

def shown : MetaValue → String
  | .int n => toString n.toInt
  | .str s => s

def text? : MetaValue → Option String
  | .int _ => none
  | .str s => some s

def int? : MetaValue → Option Int64
  | .int n => some n
  | .str _ => none

end MetaValue
end LessonScript
