import LessonScript.Settings.Value

/-!
# The tables of a TOML text

While a text is read, each table remembers how it came to be: named by a header, implied by a
longer header, or implied by a key with dots. Nothing is defined twice: a header may only name a
table that other headers implied, and keys with dots only go through tables that were implied.
-/

namespace LessonScript.Toml

/-- How a table came to be. -/
inductive Origin where
  | header
  | implied
  | dotted
deriving DecidableEq, Repr

/-- A value that is complete, a table that may still grow, or a list of tables, the one under way
in front. -/
inductive Tree where
  | value (v : Setting)
  | table (origin : Origin) (entries : List (String × Tree))
  | tables (last : List (String × Tree)) (before : List (List (String × Tree)))

namespace Tree

/-- The entries with one of them changed. A change may be refused. -/
def change (key : String) (f : Option Tree → Option Tree) :
    List (String × Tree) → Option (List (String × Tree))
  | [] => (f none).map fun t => [(key, t)]
  | (k, t) :: rest =>
    if k = key then (f (some t)).map fun t => (k, t) :: rest
    else (change key f rest).map ((k, t) :: ·)

/-- Changes the entries of the table at the end of a key. Tables on the way are made with the
given origin; keys with dots may not pass through a table that a header named. -/
def descend (origin : Origin) (f : Origin → List (String × Tree) → Option (List (String × Tree)))
    (here : Origin) : List String → List (String × Tree) → Option (List (String × Tree))
  | [], entries => f here entries
  | part :: rest, entries =>
    change part (fun
      | none => (descend origin f origin rest []).map (.table origin)
      | some (.value _) => none
      | some (.table o inner) =>
        if origin = .dotted ∧ o = .header then none
        else (descend origin f o rest inner).map (.table o)
      | some (.tables last before) => (descend origin f .header rest last).map (.tables · before))
      entries

/-- Adds a value at the end of a key within a table. -/
def assign (key : List String) (v : Setting) (entries : List (String × Tree)) :
    Option (List (String × Tree)) :=
  let path := key.dropLast
  match key.getLast? with
  | none => none
  | some last =>
    descend .dotted (fun origin entries =>
      if decide (origin = .dotted) == path.isEmpty then none
      else change last (fun old => if old.isSome then none else some (.value v)) entries)
      .header path entries

/-- Adds a value within the table that the current header names. -/
def assignIn (current key : List String) (v : Setting) (root : List (String × Tree)) :
    Option (List (String × Tree)) :=
  descend .implied (fun _ entries => assign key v entries) .header current root

/-- Defines the table that a header names. -/
def define (key : List String) (root : List (String × Tree)) : Option (List (String × Tree)) := do
  let last ← key.getLast?
  descend .implied (fun _ entries => change last (fun
    | none => some (.table .header [])
    | some (.table .implied inner) => some (.table .header inner)
    | some _ => none) entries) .header key.dropLast root

/-- Adds a table to the list of tables that a header names. -/
def append (key : List String) (root : List (String × Tree)) : Option (List (String × Tree)) := do
  let last ← key.getLast?
  descend .implied (fun _ entries => change last (fun
    | none => some (.tables [] [])
    | some (.tables latest before) => some (.tables [] (latest :: before))
    | some _ => none) entries) .header key.dropLast root

mutual

def setting : Tree → Setting
  | .value v => v
  | .table _ entries => .ofEntries (settings entries)
  | .tables last before => .ofList (.ofEntries (settings last) :: settingsOf before).reverse

def settings : List (String × Tree) → List (String × Setting)
  | [] => []
  | (key, t) :: rest => (key, setting t) :: settings rest

def settingsOf : List (List (String × Tree)) → List Setting
  | [] => []
  | entries :: rest => .ofEntries (settings entries) :: settingsOf rest

end

end Tree
end LessonScript.Toml
