import LessonScript.Settings.Value
import LessonScript.Text.Search

/-!
# Layers of settings

Settings are laid over each other: tables are merged key by key, and any other value takes the
place of what was there. A single setting is addressed by a path of keys and places.
-/

namespace LessonScript

inductive PathStep where
  | key (k : String)
  | item (place : Int)
deriving DecidableEq, Repr

/-- The text of steps from a setting, as it is reported: a dot stands between two keys. -/
def PathStep.shown : List PathStep → String
  | [] => ""
  | .item place :: rest => s!"[{place}]" ++ shown rest
  | .key k :: .key l :: rest => k ++ "." ++ shown (.key l :: rest)
  | .key k :: rest => k ++ shown rest

/-- The way to a setting: a key of the outermost table, and the steps behind it. -/
structure SettingPath where
  head : String
  steps : List PathStep
deriving DecidableEq, Repr

namespace SettingPath

def isKeyChar (c : Char) : Bool := c.isAlphanum || c == ' ' || c == '_' || c == '-'

def scanKey (cs : List Char) : Option (String × List Char) :=
  let key := cs.takeWhile isKeyChar
  if key.isEmpty then none else some (String.ofList key, cs.drop key.length)

/-- The place that a text spells, with blanks around it. -/
def place? (cs : List Char) : Option Int :=
  let isBlank (c : Char) := c == ' ' || c == '\t'
  let body := ((cs.dropWhile isBlank).reverse.dropWhile isBlank).reverse
  match body with
  | '-' :: digits => (Text.readUpTo (Text.wordMax 63 + 1) digits).map fun n => -n
  | digits => (Text.readUpTo (Text.wordMax 63) digits).map Int.ofNat

/-- The steps of a path that has at most so many. -/
def scanSteps : Nat → List Char → Option (List PathStep)
  | _, [] => some []
  | 0, _ => none
  | fuel + 1, '.' :: cs => do
    let (key, rest) ← scanKey cs
    some (.key key :: (← scanSteps fuel rest))
  | fuel + 1, '[' :: cs => do
    let inner := cs.takeWhile (· ≠ ']')
    let place ← place? inner
    match cs.drop inner.length with
    | _ :: rest => some (.item place :: (← scanSteps fuel rest))
    | [] => none
  | _ + 1, _ => none

/-- The path that a text spells. -/
def ofText? (text : String) : Option SettingPath := do
  let (head, rest) ← scanKey text.toList
  some ⟨head, ← scanSteps rest.length rest⟩

end SettingPath

namespace Setting

mutual

/-- A setting with another one laid over it. -/
def overlay (old : Setting) : Setting → Setting
  | .table _ entries =>
    match old with
    | .scalar _ .unset => overlayEntries (.ofEntries []) entries
    | old => overlayEntries old entries
  | new => new

/-- A setting with entries laid over it one after another. -/
def overlayEntries (old : Setting) : List (String × Setting) → Setting
  | [] => old
  | (key, new) :: rest => overlayEntries (old.changeKey key fun v => overlay v new) rest

end

/-- The setting with a value placed at the end of some steps. A value placed in a list takes the
place of what was there. -/
def place (new : Setting) : List PathStep → Setting → Setting
  | [], old => old.overlay new
  | .key key :: rest, old => old.changeKey key (place new rest)
  | [.item n], old => old.changeItem n fun _ => new
  | .item n :: rest, old => old.changeItem n (place new rest)

/-- Settings with a value placed at a path. -/
def placeAt (root : Setting) (path : SettingPath) (new : Setting) : Setting :=
  place new (.key path.head :: path.steps) root

/-- Settings with a file's entries laid over them. A key of the file's outermost table may
spell a path. -/
def overlayFile (root : Setting) (entries : List (String × Setting)) : Setting :=
  entries.foldl (fun root (key, v) =>
    match SettingPath.ofText? key with
    | some path => root.placeAt path v
    | none => root.changeKey key fun old => old.overlay v) root

end Setting
end LessonScript
