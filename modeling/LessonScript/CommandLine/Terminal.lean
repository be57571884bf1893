import LessonScript.Document.Element

/-!
# Styled text

Elements as they are shown in a terminal. A style is switched on in front of a text and off
behind it.
-/

namespace LessonScript.CommandLine

inductive Colour where
  | green | yellow | magenta | cyan
deriving DecidableEq, Repr

def Colour.number : Colour → Nat
  | .green => 10
  | .yellow => 11
  | .magenta => 13
  | .cyan => 14

inductive Weight where
  | bold | dim | italic
deriving DecidableEq, Repr

def Weight.number : Weight → Nat
  | .bold => 1
  | .dim => 2
  | .italic => 3

def sequence (code : String) : String := "\x1b[" ++ code ++ "m"

/-- A text in a style. Where there is a weight, everything is switched off at once. -/
def styled (colour : Option Colour) (weight : Option Weight) (text : String) : String :=
  let colourOn := (colour.map fun c => sequence s!"38;5;{c.number}").getD ""
  let weightOn := (weight.map fun w => sequence (toString w.number)).getD ""
  let off := if weight.isSome then sequence "0" else if colour.isSome then sequence "39" else ""
  colourOn ++ weightOn ++ text ++ off

def bold : String → String := styled none (some .bold)

def dim : String → String := styled none (some .dim)

def segmentText : Segment → String
  | .raw text => text
  | .ego text => styled (some .cyan) (some .italic) text
  | .bold text => bold text
  | .directive _ text => text.getD ""
  | .pause _ => ""

/-- A pair: its English side in a style, and its Chinese side, if any, on a line below. -/
def pairLines (indent mark : String) (colour : Colour) (weight : Option Weight)
    (pair : Bilingual) : List String :=
  let first := indent ++ styled (some colour) weight (mark ++ " " ++ pair.en)
  if pair.zh.isEmpty then [first] else [first, indent ++ "  " ++ dim pair.zh]

mutual

/-- The lines that show an element. What a focus word holds is indented. -/
def elementLines (indent : String) : Element → List String
  | .title en zh =>
    (en.map fun s => indent ++ bold s).toList ++ (zh.map fun s => indent ++ dim s).toList
  | .text content => [indent ++ String.join (content.map segmentText)]
  | .quote emphasis quotes =>
    quotes.flatMap (pairLines indent "❝" .yellow (if emphasis then some .bold else none))
  | .practice practices => practices.flatMap (pairLines indent "✎" .green none)
  | .word focus elements =>
    (indent ++ styled (some .magenta) (some .bold) ("◆ " ++ focus)) ::
      elementsLines (indent ++ "  ") elements
  | .closing elements => elementsLines indent elements
  | .pause _ => []

def elementsLines (indent : String) : List Element → List String
  | [] => []
  | element :: rest => elementLines indent element ++ elementsLines indent rest

end

end LessonScript.CommandLine
