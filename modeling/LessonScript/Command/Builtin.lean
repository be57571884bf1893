import LessonScript.Command.Registry

/-!
# Built-in commands

Inline: pauses and the two styled spans. Block: quotes and practice pairs, focus words and
closings, and the two markers that open a scene or place the title.
-/

namespace LessonScript

open Text (Line)

namespace Builtin

/-- The length of a pause by its modifier: the words "short" and "long", a number of
milliseconds, and the usual length for everything else. -/
def pauseLength (modifier : Option (List Char)) : Millis :=
  let usual : Millis := 1500
  match modifier with
  | none => usual
  | some word =>
    if word = "short".toList then 800
    else if word = "long".toList then 3000
    else ((Text.readUpTo Millis.limit word).map Millis.ofNat).getD usual

/-- A pause directive at the head of a text. -/
def pauseAtHead (cs : List Char) : Option HeadMatch := do
  let opening := "[pause".toList
  match ← Text.after? opening cs with
  | ']' :: _ => some ⟨opening.length + 1, none⟩
  | ':' :: rest =>
    let word := rest.takeWhile isWordChar
    match word, rest.drop word.length with
    | _ :: _, ']' :: _ => some ⟨opening.length + word.length + 2, some word⟩
    | _, _ => none
  | _ => none

def pausePattern : Pattern := .atHead "\\[pause(?::([A-Za-z0-9_]+))?\\]" pauseAtHead

/-- A pause in the flow of a line or on a line of its own. -/
def pause : InlineCommand where
  name := "pause"
  pattern := pausePattern
  decode capture := .pause (pauseLength capture)
  timing := { delay := some (pauseLength none) }
  timingOf segment := { delay := some (segment.pause?.getD (pauseLength none)) }

def spanPattern (tag : String) : Pattern :=
  .atHead s!"(?s)\\[{tag}\\](.*?)\\[/{tag}\\]"
    (spanAtHead s!"[{tag}]".toList s!"[/{tag}]".toList fun _ => true)

def ego : InlineCommand where
  name := "ego"
  pattern := spanPattern "ego"
  decode capture := .ego (String.ofList (capture.getD []))
  render := some ⟨"span", "ego-voice italic"⟩

def bold : InlineCommand where
  name := "bold"
  pattern := spanPattern "bold"
  decode capture := .bold (String.ofList (capture.getD []))
  render := some ⟨"strong", "font-semibold"⟩

/-- Whether a text holds a CJK ideograph. -/
def isChinese (cs : List Char) : Bool := cs.any fun c => 0x4E00 ≤ c.toNat && c.toNat ≤ 0x9FFF

/-- The pairs of quoted texts. Chinese text completes the pair that is open, other text is its
English side; `en` is that side so far. -/
def quotePairs (en : List Char) : List (List Char) → List Bilingual
  | [] => [⟨String.ofList en, ""⟩]
  | text :: rest =>
    if isChinese text then ⟨String.ofList en, String.ofList text⟩ :: quotePairs [] rest
    else quotePairs text rest

def quote : BlockCommand where
  name := "QUOTE"
  pattern := "^## QUOTE(?::([A-Za-z0-9_]+))?$"
  header := wordAfter "## QUOTE".toList
  decode lines modifier :=
    let texts := lines.filterMap (Text.after? "> ".toList)
    .element (.quote (modifier == some "emphasis".toList)
      ((quotePairs [] texts).filter (!·.isEmpty)))
  render := some ⟨"div", "quote-block-wrapper"⟩
  timing := { duration := some 1200, stagger := some 800 }

/-- The pairs of practice lines. A separator drops the line that still lacks its Chinese side. -/
def practicePairs (pending : Option (List Char)) : List (List Char) → List Bilingual
  | [] => match pending with
    | none => []
    | some en => [⟨String.ofList en, ""⟩]
  | text :: rest =>
    if text = "---".toList then practicePairs none rest
    else match pending with
      | none => practicePairs (some text) rest
      | some en => ⟨String.ofList en, String.ofList text⟩ :: practicePairs none rest

def practice : BlockCommand where
  name := "PRACTICE"
  pattern := "^## PRACTICE$"
  header line := if line = "## PRACTICE".toList then some none else none
  decode lines _ :=
    .element (.practice (practicePairs none ((lines.map Text.trim).filter (!·.isEmpty))))
  render := some ⟨"div", "practice-block-wrapper"⟩
  timing := { duration := some 1000, stagger := some 1500 }

def word : BlockCommand where
  name := "WORD"
  pattern := "^## WORD:\\s*(.+)$"
  header line := (nameAfter "## WORD:".toList line).map some
  decode lines modifier :=
    .container (.word (String.ofList (Text.trimEnd (modifier.getD []))) []) lines
  render := some ⟨"div", "word-focus-header"⟩
  timing := { duration := some 1500 }

def closing : BlockCommand where
  name := "CLOSING"
  pattern := "^## CLOSING$"
  header line := if line = "## CLOSING".toList then some none else none
  decode lines _ := .container (.closing []) lines
  render := some ⟨"div", "closing-block text-center"⟩
  timing := { duration := some 1200 }

def sceneName (line : Line) : Option (List Char) := nameAfter "# SCENE:".toList line

def sceneOf (name : List Char) : Scene := .named (String.ofList (Text.trimEnd name))

def scene : BlockCommand where
  name := "SCENE"
  pattern := "^# SCENE:\\s*(.+)$"
  header line := (sceneName line).map some
  decode lines modifier := .scene (sceneOf (modifier.getD [])) lines

def titleMarker : Line := "# TITLE".toList

def title : BlockCommand where
  name := "TITLE"
  pattern := "^# TITLE$"
  header line := if line = titleMarker then some none else none
  decode _ _ := .element (.title none none)
  render := some ⟨"div", "title-display"⟩
  timing := { duration := some 1500, stagger := some 2000 }

def commands : List Command :=
  [.inline pause, .inline ego, .inline bold, .block quote, .block practice, .block word,
    .block closing, .block scene, .block title]

end Builtin

/-- The registry of the built-in commands, each under its own name. -/
def Registry.builtin : Registry := .ofList (Builtin.commands.map fun c => (c.name, c))

end LessonScript
