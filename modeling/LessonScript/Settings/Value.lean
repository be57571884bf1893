import LessonScript.Decimal.Shortest
import LessonScript.Text.LowerCase
import LessonScript.Text.Quoted

/-!
# Setting values

Settings are scalars, lists, and tables of settings by key. A setting that was read from a file
knows the file. A table that settings are put into one by one has its keys in lower case.
-/

namespace LessonScript

/-- A setting that is neither a list nor a table. `unset` is the place of a setting that was never
given a value. -/
inductive Setting.Scalar where
  | unset
  | bool (b : Bool)
  | int (n : Int)
  | real (x : Float)
  | text (s : String)

/-- The value of a setting, with the file that it was read from. -/
inductive Setting where
  | scalar (origin : Option String) (value : Setting.Scalar)
  | list (origin : Option String) (items : List Setting)
  | table (origin : Option String) (entries : List (String × Setting))

namespace Setting

/-- The place of a setting without a value. -/
def unset : Setting := .scalar none .unset

/-- A setting that was read from no file. -/
def ofBool (b : Bool) : Setting := .scalar none (.bool b)

@[inherit_doc ofBool] def ofInt (n : Int) : Setting := .scalar none (.int n)

@[inherit_doc ofBool] def ofFloat (x : Float) : Setting := .scalar none (.real x)

@[inherit_doc ofBool] def ofText (s : String) : Setting := .scalar none (.text s)

@[inherit_doc ofBool] def ofList (items : List Setting) : Setting := .list none items

@[inherit_doc ofBool] def ofEntries (entries : List (String × Setting)) : Setting :=
  .table none entries

instance : Inhabited Setting := ⟨unset⟩

def origin : Setting → Option String
  | .scalar origin _ | .list origin _ | .table origin _ => origin

mutual

/-- The setting as it was read from a file. -/
def readFrom (file : String) : Setting → Setting
  | .scalar _ value => .scalar (some file) value
  | .list _ items => .list (some file) (readItemsFrom file items)
  | .table _ entries => .table (some file) (readEntriesFrom file entries)

@[inherit_doc readFrom] def readItemsFrom (file : String) : List Setting → List Setting
  | [] => []
  | v :: rest => readFrom file v :: readItemsFrom file rest

@[inherit_doc readFrom]
def readEntriesFrom (file : String) : List (String × Setting) → List (String × Setting)
  | [] => []
  | (key, v) :: rest => (key, readFrom file v) :: readEntriesFrom file rest

end

def Scalar.described : Scalar → String
  | .unset => "unit value"
  | .bool b => s!"boolean \x60{b}\x60"
  | .int n => s!"64-bit integer \x60{n}\x60"
  | .real x => s!"floating point \x60{floatText x}\x60"
  | .text s => s!"string {Text.quoted s}"

/-- What a scalar is called where a group is needed. Here a finite number always has a point. -/
def Scalar.describedAlone : Scalar → String
  | .int n => s!"integer \x60{n}\x60"
  | .real x =>
    let text := floatText x
    let pointed := if x.isFinite && !text.toList.contains '.' then text ++ ".0" else text
    s!"floating point \x60{pointed}\x60"
  | other => other.described

def described : Setting → String
  | .scalar _ value => value.described
  | .list .. => "sequence"
  | .table .. => "map"

/-- A key as it is kept in a table. -/
def keptKey (key : String) : String := String.ofList (Text.lower key.toList)

/-- The entries with one of them changed, or added with the change of no value. -/
def changeEntry (key : String) (change : Setting → Setting) :
    List (String × Setting) → List (String × Setting)
  | [] => [(key, change unset)]
  | (k, v) :: rest =>
    if k = key then (k, change v) :: rest else (k, v) :: changeEntry key change rest

/-- A table with one of its entries changed. A value that is no table becomes one. -/
def changeKey (key : String) (change : Setting → Setting) : Setting → Setting
  | .table origin entries => .table origin (changeEntry (keptKey key) change entries)
  | _ => .ofEntries [(keptKey key, change unset)]

/-- The items with one of them changed, places that are missing being filled. A place below zero
is counted from the end. -/
def changePlace (place : Int) (change : Setting → Setting) (items : List Setting) :
    List Setting :=
  let n := (if place < 0 then items.length + place else place).toNat
  (items ++ List.replicate (n + 1 - items.length) unset).modify n change

/-- A list with one of its items changed. A value that is no list becomes one. -/
def changeItem (place : Int) (change : Setting → Setting) : Setting → Setting
  | .list origin items => .list origin (changePlace place change items)
  | _ => .ofList (changePlace place change [])

end Setting
end LessonScript
