import LessonScript.Data
import LessonScript.Document.Scene
import LessonScript.Timing

/-!
# Documents as structured data

Segments and elements are records with a tag that names their kind, in "kind" and in "type";
documents, scenes and timings are plain records. Texts that are missing are left out. In
reading, plain records pass over what they do not know, whatever it is; inside tagged data
everything has to be usable, and nesting is limited. There a nested tag may also be the
position of its kind.
-/

namespace LessonScript

open Data (optionalText optionalField)

/-- How deep data may nest. -/
def Data.depthLimit : Nat := 127

/-- A duration is a whole number of milliseconds within the limit. -/
def Millis.ofData? (d : Data) : Option Millis := do
  let n ← d.int?
  if n < 0 then none else Millis.ofNat? n.toNat

def Millis.toData (m : Millis) : Data := .int m.count

/-- The variant that a tag names. -/
def variant? {α : Type} (name : α → String) (variants : List α) (nested : Bool) :
    Data → Option α
  | .text s => variants.find? (name · == s)
  | .int n => if nested && 0 ≤ n then variants[n.toNat]? else none
  | _ => none

namespace Segment

def toData : Segment → Data
  | .raw text => .record [("kind", .text "raw"), ("text", .text text)]
  | .pause duration => .record [("kind", .text "pause"), ("duration", duration.toData)]
  | .ego text => .record [("kind", .text "ego"), ("text", .text text)]
  | .bold text => .record [("kind", .text "bold"), ("text", .text text)]
  | .directive name text =>
    .record ([("kind", .text "directive"), ("name", .text name)] ++ optionalField "text" text)

def tags : List String := ["raw", "pause", "ego", "bold", "directive"]

def ofText? (make : String → Segment) (body : Data) : Option Segment := do
  match ← body.structure? ["text"] with
  | [text] => some (make (← (← text).text?))
  | _ => none

/-- The segment that usable data stands for. -/
def ofUsable? (nested : Bool) (d : Data) : Option Segment := do
  let (tag, body) ← d.tagged? "kind"
  match ← variant? id tags nested tag with
  | "raw" => ofText? .raw body
  | "pause" =>
    match ← body.structure? ["duration"] with
    | [duration] => some (.pause (← Millis.ofData? (← duration)))
    | _ => none
  | "ego" => ofText? .ego body
  | "bold" => ofText? .bold body
  | _ =>
    match ← body.structure? ["name", "text"] with
    | [name, text] => some (.directive (← (← name).text?) (← optionalText text))
    | _ => none

def ofData? (d : Data) : Option Segment :=
  if d.usable Data.depthLimit then ofUsable? false d else none

end Segment

namespace Bilingual

def toData (pair : Bilingual) : Data := .record [("en", .text pair.en), ("zh", .text pair.zh)]

def ofData? (d : Data) : Option Bilingual := do
  match ← d.structure? ["en", "zh"] with
  | [en, zh] => some ⟨← (← en).text?, ← (← zh).text?⟩
  | _ => none

end Bilingual

def ElementKind.all : List ElementKind :=
  [.title, .text, .quote, .practice, .word, .closing, .pause]

namespace Element

mutual

def toData : Element → Data
  | .title en zh =>
    .record (("type", .text "title") :: optionalField "title_en" en ++ optionalField "title_zh" zh)
  | .text content =>
    .record [("type", .text "text"), ("content", .list (content.map Segment.toData))]
  | .quote emphasis quotes =>
    .record [("type", .text "quote"), ("emphasis", .bool emphasis),
      ("quotes", .list (quotes.map Bilingual.toData))]
  | .practice practices =>
    .record [("type", .text "practice"), ("practices", .list (practices.map Bilingual.toData))]
  | .word focus elements =>
    .record [("type", .text "word"), ("focus_word", .text focus),
      ("elements", .list (listToData elements))]
  | .closing elements =>
    .record [("type", .text "closing"), ("elements", .list (listToData elements))]
  | .pause duration => .record [("type", .text "pause"), ("duration", duration.toData)]

def listToData : List Element → List Data
  | [] => []
  | element :: rest => toData element :: listToData rest

end

/-- The element that usable data stands for, elements nesting at most so deep. -/
def ofUsable? : Nat → Bool → Data → Option Element
  | 0, _, _ => none
  | depth + 1, nested, d => do
    let (tag, body) ← d.tagged? "type"
    match ← variant? ElementKind.name ElementKind.all nested tag with
    | .title =>
      match ← body.structure? ["title_en", "title_zh"] with
      | [en, zh] => some (.title (← optionalText en) (← optionalText zh))
      | _ => none
    | .text =>
      match ← body.structure? ["content"] with
      | [content] => some (.text (← (← (← content).list?).mapM (Segment.ofUsable? true)))
      | _ => none
    | .quote =>
      match ← body.structure? ["emphasis", "quotes"] with
      | [emphasis, quotes] =>
        some (.quote (← (← emphasis).bool?) (← (← (← quotes).list?).mapM Bilingual.ofData?))
      | _ => none
    | .practice =>
      match ← body.structure? ["practices"] with
      | [practices] => some (.practice (← (← (← practices).list?).mapM Bilingual.ofData?))
      | _ => none
    | .word =>
      match ← body.structure? ["focus_word", "elements"] with
      | [focus, elements] =>
        some (.word (← (← focus).text?) (← (← (← elements).list?).mapM (ofUsable? depth true)))
      | _ => none
    | .closing =>
      match ← body.structure? ["elements"] with
      | [elements] => some (.closing (← (← (← elements).list?).mapM (ofUsable? depth true)))
      | _ => none
    | .pause =>
      match ← body.structure? ["duration"] with
      | [duration] => some (.pause (← Millis.ofData? (← duration)))
      | _ => none

/-- The element that data stands for, nesting at most so deep. -/
def ofDataWithin? (depth : Nat) (d : Data) : Option Element :=
  if d.usable depth then ofUsable? (depth + 1) false d else none

def ofData? (d : Data) : Option Element := ofDataWithin? Data.depthLimit d

end Element

namespace MetaValue

def toData : MetaValue → Data
  | .int n => .int n.toInt
  | .str s => .text s

/-- A metadata value is an integer of a signed 64-bit word, or a text. -/
def ofData? : Data → Option MetaValue
  | .int n =>
    if Int64.minValue.toInt ≤ n ∧ n ≤ Int64.maxValue.toInt then some (.int (Int64.ofInt n))
    else none
  | .text s => some (.str s)
  | _ => none

end MetaValue

namespace Scene

def toData (scene : Scene) : Data :=
  .record (("id", .text scene.id) :: optionalField "name" scene.name ++
    [("type", .text scene.kind.name), ("elements", .list (Element.listToData scene.elements))])

/-- A kind of scene is its name, or a record with its name as the only field and nothing in it. -/
def kindOfData? : Data → Option SceneKind
  | .text s => [SceneKind.title, .scene].find? (·.name == s)
  | .record [(s, .null)] => [SceneKind.title, .scene].find? (·.name == s)
  | _ => none

/-- Elements stand four levels deep in a document. -/
def ofData? (d : Data) : Option Scene := do
  match ← d.structure? ["id", "name", "type", "elements"] with
  | [id, name, kind, elements] =>
    let elements ← (← (← elements).list?).mapM (Element.ofDataWithin? (Data.depthLimit - 4))
    some ⟨← (← id).text?, ← optionalText name, ← kindOfData? (← kind), elements⟩
  | _ => none

end Scene

namespace Document

def toData (doc : Document) : Data :=
  .record [("metadata", .record (doc.metadata.entries.map fun (k, v) => (k, v.toData))),
    ("scenes", .list (doc.scenes.map Scene.toData))]

/-- A metadata key that is given twice keeps its first place and its last value. -/
def ofData? (d : Data) : Option Document := do
  match ← d.structure? ["metadata", "scenes"] with
  | [metadata, scenes] =>
    let fields ← (← metadata).record?
    let entries ← fields.mapM fun (k, v) => (MetaValue.ofData? v).map (k, ·)
    some ⟨.ofList entries, ← (← (← scenes).list?).mapM Scene.ofData?⟩
  | _ => none

end Document

namespace Pacing

def toData (pacing : Pacing) : Data :=
  .record [("duration", pacing.duration.toData), ("gap", pacing.gap.toData)]

def ofData? (d : Data) : Option Pacing := do
  match ← d.structure? ["duration", "gap"] with
  | [duration, gap] => some ⟨← Millis.ofData? (← duration), ← Millis.ofData? (← gap)⟩
  | _ => none

end Pacing

namespace TextPacing

def toData (pacing : TextPacing) : Data :=
  .record [("per_char", pacing.perChar.toData), ("min", pacing.min.toData),
    ("max", pacing.max.toData), ("gap", pacing.gap.toData)]

def ofData? (d : Data) : Option TextPacing := do
  let fields ← d.structure? ["per_char", "min", "max", "gap"]
  match ← fields.mapM fun field => field.bind Millis.ofData? with
  | [perChar, min, max, gap] => some ⟨perChar, min, max, gap⟩
  | _ => none

end TextPacing

namespace Timing

def toData (timing : Timing) : Data :=
  .record [("title", timing.title.toData), ("quote", timing.quote.toData),
    ("practice", timing.practice.toData), ("word", timing.word.toData),
    ("closing", timing.closing.toData), ("text", timing.text.toData)]

def ofData? (d : Data) : Option Timing := do
  match ← d.structure? ["title", "quote", "practice", "word", "closing", "text"] with
  | [title, quote, practice, word, closing, text] =>
    some ⟨← Pacing.ofData? (← title), ← Pacing.ofData? (← quote), ← Pacing.ofData? (← practice),
      ← Pacing.ofData? (← word), ← Pacing.ofData? (← closing), ← TextPacing.ofData? (← text)⟩
  | _ => none

end Timing
end LessonScript
