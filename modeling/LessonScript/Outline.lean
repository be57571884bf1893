import LessonScript.Document.Scene

/-!
# Outlines

A document can be drawn as a tree with one line for each scene, element, pair and segment. A
line starts with a cell for each ancestor, which shows whether that ancestor's branch goes on
below, and a connector, which shows whether more siblings follow. Long labels are cut.
-/

namespace LessonScript

inductive Outline where
  | node (icon : Char) (label : List Char) (children : List Outline)
deriving Repr

namespace Outline

/-- The number of characters that a label shows. -/
def labelWidth : Nat := 30

/-- A label as it is shown: cut, with dots for what is left out. -/
def shownLabel (label : List Char) : List Char :=
  if labelWidth < label.length then label.take labelWidth ++ "...".toList else label

def leaf (icon : Char) (label : String) : Outline := .node icon label.toList []

/-- Both sides of a pair, or its English side when the Chinese one is empty. -/
def pairLabel (pair : Bilingual) : String :=
  if pair.zh.isEmpty then pair.en else s!"{pair.en} / {pair.zh}"

def ofPair (pair : Bilingual) : Outline := leaf '↵' (pairLabel pair)

def ofSegment : Segment → Outline
  | .raw text => leaf '◦' text
  | .pause duration => leaf '⏱' s!"{duration.count}ms"
  | .ego text => leaf '𝐼' text
  | .bold text => leaf '𝐁' text
  | .directive name none => leaf '○' name
  | .directive name (some text) => leaf '○' s!"{name}: {text}"

def titleLabel : Option String → Option String → String
  | some en, some zh => s!"{en} / {zh}"
  | some en, none => en
  | none, some zh => zh
  | none, none => "(untitled)"

/-- The first pair of a quote, with a note when the quote is emphatic. -/
def quoteLabel (emphasis : Bool) (quotes : List Bilingual) : String :=
  (quotes.head?.map pairLabel).getD "" ++ if emphasis then " (emphasis)" else ""

mutual

/-- The outline of an element. The pairs of a quote are listed if it has more than one. -/
def ofElement : Element → Outline
  | .title en zh => leaf '★' (titleLabel en zh)
  | .text content =>
    let label := String.join (content.filterMap Segment.text?)
    .node '¶' label.toList (content.map ofSegment)
  | .quote emphasis quotes =>
    let children := if 1 < quotes.length then quotes.map ofPair else []
    .node '❝' (quoteLabel emphasis quotes).toList children
  | .practice practices =>
    .node '✎' s!"{practices.length} lines".toList (practices.map ofPair)
  | .word focus elements => .node '◆' focus.toList (ofElements elements)
  | .closing elements => .node '◼' "closing".toList (ofElements elements)
  | .pause duration => leaf '⏸' s!"{duration.count}ms"

def ofElements : List Element → List Outline
  | [] => []
  | element :: rest => ofElement element :: ofElements rest

end

def ofScene (scene : Scene) : Outline :=
  let icon := match scene.kind with
    | .title => '⊤'
    | .scene => '§'
  .node icon scene.heading.toList (ofElements scene.elements)

mutual

/-- The lines of a node. `cells` are those of its ancestors, and `last` says whether it is the
last of its siblings. -/
def lines (cells : List Char) (last : Bool) : Outline → List (List Char)
  | .node icon label children =>
    (cells ++ (if last then "└─ " else "├─ ").toList ++ icon :: ' ' :: shownLabel label) ::
      linesOf (cells ++ (if last then "  " else "│ ").toList) children

def linesOf (cells : List Char) : List Outline → List (List Char)
  | [] => []
  | first :: rest => lines cells rest.isEmpty first ++ linesOf cells rest

end

end Outline

namespace Document

/-- The heading of a document's drawing: its title in the metadata and its number of scenes. -/
def drawingHeading (doc : Document) : List Char :=
  let title := ((doc.metadata.get? "title").map MetaValue.shown).getD "Document"
  "⧉ ".toList ++ Outline.shownLabel title.toList ++ s!" ({doc.scenes.length} scenes)".toList

def drawing (doc : Document) : List (List Char) :=
  doc.drawingHeading :: Outline.linesOf [] (doc.scenes.map Outline.ofScene)

end Document
end LessonScript
