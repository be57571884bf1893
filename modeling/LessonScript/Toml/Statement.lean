import LessonScript.Toml.Scalar
import LessonScript.Toml.Tree

/-!
# TOML statements

A TOML text is a sequence of lines: headers of tables, headers of entries in lists of tables,
and keys with their values.
-/

namespace LessonScript.Toml

/-- How deep lists and tables may nest within a value, and how many parts a key may have. -/
def depthLimit : Nat := 79

/-- One part of a key, and what follows it. -/
def scanKeyPart (cs : List Char) : Option (String × List Char) :=
  match cs with
  | '"' :: rest => (scanBasic rest.length rest).map fun (s, rest) => (String.ofList s, rest)
  | '\'' :: rest => (scanLiteral rest).map fun (s, rest) => (String.ofList s, rest)
  | _ =>
    let bare := cs.takeWhile fun c => c.isAlphanum || c == '_' || c == '-'
    if bare.isEmpty then none else some (String.ofList bare, cs.drop bare.length)

/-- A key whose parts are joined by dots, with the white space around it, and what follows. -/
def scanKey : Nat → List Char → Option (List String × List Char)
  | 0, _ => none
  | parts + 1, cs => do
    let (part, rest) ← scanKeyPart (skipSpaces cs)
    match skipSpaces rest with
    | '.' :: rest =>
      let (more, rest) ← scanKey parts rest
      some (part :: more, rest)
    | rest => some ([part], rest)

/-- What follows a comment, if there is one. -/
def skipComment : List Char → List Char
  | '#' :: rest => rest.dropWhile isLineChar
  | cs => cs

/-- White space, comments and line endings at the head of a text taken away. -/
def skipGaps : Nat → List Char → List Char
  | 0, cs => cs
  | fuel + 1, cs =>
    let rest := skipComment (skipSpaces cs)
    match afterNewline? rest with
    | some rest => skipGaps fuel rest
    | none => if rest.length < (skipSpaces cs).length then rest else skipSpaces cs

mutual

/-- A value at the head of a text, and what follows it. -/
def scanValue : Nat → Nat → List Char → Option (Setting × List Char)
  | 0, _, _ => none
  | fuel + 1, depth, cs =>
    match cs with
    | '[' :: rest =>
      if depth = 0 then none
      else do
        let (items, rest) ← scanItems fuel (depth - 1) (skipGaps rest.length rest)
        some (.ofList items, rest)
    | '\x7b' :: rest =>
      if depth = 0 then none
      else match skipSpaces rest with
        | '\x7d' :: rest => some (.ofEntries [], rest)
        | rest => do
          let (fields, rest) ← scanFields fuel (depth - 1) rest
          let entries ← fields.foldlM (fun entries (key, v) => Tree.assign key v entries) []
          some (.ofEntries (Tree.settings entries), rest)
    | '"' :: _ | '\'' :: _ => (scanText cs).map fun (s, rest) => (.ofText (String.ofList s), rest)
    | _ =>
      let (word, rest) := scanWord cs
      (scalarOfWord? word).map (·, rest)

/-- The items of a list up to its closing bracket, and what follows it. -/
def scanItems : Nat → Nat → List Char → Option (List Setting × List Char)
  | 0, _, _ => none
  | _, _, ']' :: rest => some ([], rest)
  | fuel + 1, depth, cs => do
    let (item, rest) ← scanValue fuel depth cs
    match skipGaps rest.length rest with
    | ']' :: rest => some ([item], rest)
    | ',' :: rest =>
      let (items, rest) ← scanItems fuel depth (skipGaps rest.length rest)
      some (item :: items, rest)
    | _ => none

/-- The fields of a table on one line up to its closing brace, and what follows it. -/
def scanFields : Nat → Nat → List Char → Option (List (List String × Setting) × List Char)
  | 0, _, _ => none
  | fuel + 1, depth, cs => do
    let (key, rest) ← scanKey depthLimit cs
    let (value, rest) ← scanValue fuel depth (skipSpaces (← expect '=' rest))
    match skipSpaces rest with
    | '\x7d' :: rest => some ([(key, value)], rest)
    | ',' :: rest =>
      let (fields, rest) ← scanFields fuel depth rest
      some ((key, value) :: fields, rest)
    | _ => none

end

inductive Statement where
  | table (key : List String)
  | entry (key : List String)
  | assign (key : List String) (value : Setting)

/-- The statement at the head of a text, and what follows it. -/
def scanStatement (cs : List Char) : Option (Statement × List Char) :=
  match cs with
  | '[' :: '[' :: rest => do
    let (key, rest) ← scanKey depthLimit rest
    some (.entry key, ← expect ']' (← expect ']' rest))
  | '[' :: rest => do
    let (key, rest) ← scanKey depthLimit rest
    some (.table key, ← expect ']' rest)
  | _ => do
    let (key, rest) ← scanKey depthLimit cs
    let rest := skipSpaces (← expect '=' rest)
    let (value, rest) ← scanValue (2 * rest.length + 2) depthLimit rest
    some (.assign key value, rest)

/-- The statements of a text that has at most so many lines. -/
def scanStatements : Nat → List Char → Option (List Statement)
  | 0, _ => none
  | fuel + 1, cs =>
    match skipGaps cs.length cs with
    | [] => some []
    | c :: rest => do
      let (statement, rest) ← scanStatement (c :: rest)
      let rest := skipComment (skipSpaces rest)
      match rest with
      | [] => some [statement]
      | _ => some (statement :: (← scanStatements fuel (← afterNewline? rest)))

/-- The entries of a TOML text, if it is well-formed and defines nothing twice. A byte order mark
at its head is passed over. -/
def read? (text : String) : Option (List (String × Setting)) := do
  let cs := match text.toList with
    | c :: rest => if c.toNat = 0xFEFF then rest else c :: rest
    | [] => []
  let statements ← scanStatements (cs.length + 1) cs
  let (root, _) ← statements.foldlM (fun (root, current) statement =>
    match statement with
    | .table key => (Tree.define key root).map (·, key)
    | .entry key => (Tree.append key root).map (·, key)
    | .assign key value => (Tree.assignIn current key value root).map (·, current)) ([], [])
  some (Tree.settings root)

end LessonScript.Toml
