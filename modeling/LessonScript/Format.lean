import LessonScript.Coding
import LessonScript.Json.Printer
import LessonScript.Outline
import LessonScript.Yaml.Printer

/-!
# Output formats

A document is written as JSON, as YAML, or drawn as a tree.
-/

namespace LessonScript

inductive Format where
  | json | yaml | tree
deriving DecidableEq, Repr

namespace Format

def all : List Format := [.json, .yaml, .tree]

def usual : Format := .tree

def name : Format → String
  | .json => "json"
  | .yaml => "yaml"
  | .tree => "treeviz"

def description : Format → String
  | .json => "pretty-printed JSON document"
  | .yaml => "YAML document"
  | .tree => "scene and element tree with box connectors"

/-- The format of a name, in ASCII letters of either case and with white space around it. -/
def ofName? (name : String) : Option Format :=
  let word := (Text.trim name.toList).map Char.toLower
  all.find? fun format => format.name.toList = word

def unknownMessage (name : String) : String :=
  let names := ", ".intercalate (all.map Format.name)
  s!"unknown output format '{name}' (expected one of: {names})"

def render (format : Format) (doc : Document) : String :=
  match format with
  | .json => Json.print doc.toData
  | .yaml => Yaml.print doc.toData
  | .tree => String.ofList (doc.drawing.flatMap (· ++ ['\n']))

end Format
end LessonScript
