import LessonScript.Proofs.Outline.Places
import LessonScript.Proofs.Text.Numeral

/-!
# Labels in one line

A drawing has a line for each node only if no label has a line feed. Whether a document is of this
kind can be told part by part: the labels are made of the texts of the parts, and of text that never
has a line feed.
-/

namespace LessonScript

/-- A text without line feeds. -/
def IsLine (text : String) : Prop := '\n' ∉ text.toList

instance : DecidablePred IsLine := fun text => inferInstanceAs (Decidable ('\n' ∉ text.toList))

lemma isLine_ofList {cs : List Char} : IsLine (String.ofList cs) ↔ '\n' ∉ cs := by
  rw [IsLine, String.toList_ofList]

lemma IsLine.append {a b : String} (ha : IsLine a) (hb : IsLine b) : IsLine (a ++ b) := by
  rw [IsLine, String.toList_append, List.mem_append, not_or]
  exact ⟨ha, hb⟩

lemma isLine_join {texts : List String} (h : ∀ text ∈ texts, IsLine text) :
    IsLine (String.join texts) := by
  rw [IsLine, String.toList_join, List.mem_flatMap]
  rintro ⟨text, htext, hfeed⟩
  exact h text htext hfeed

lemma newline_notMem_digits (n : Nat) : '\n' ∉ Text.digits n := by
  intro h
  cases Text.isDigit_of_mem_digits h

lemma isLine_toString (n : Nat) : IsLine (toString n) := by
  rw [IsLine, Text.toList_toString_nat]
  exact newline_notMem_digits n

lemma MetaValue.isLine_shown {cs : List Char} (h : '\n' ∉ cs) : IsLine (ofText cs).shown := by
  rw [ofText]
  cases Text.readUpTo (Text.wordMax 63) cs with
  | none => exact isLine_ofList.2 h
  | some n =>
    rw [shown, IsLine, Text.toList_toString_int, List.mem_append, not_or]
    refine ⟨?_, newline_notMem_digits _⟩
    split <;> decide

namespace Outline

/-- No label has a line feed. -/
def OneLine (tree : Outline) : Prop :=
  ∀ place node, tree.at? place = some node → '\n' ∉ node.label

lemma oneLine_node {icon : Char} {label : List Char} {children : List Outline} :
    (node icon label children).OneLine ↔ '\n' ∉ label ∧ ∀ child ∈ children, child.OneLine := by
  constructor
  · intro h
    refine ⟨h [] _ rfl, fun child hc place inner hinner => ?_⟩
    obtain ⟨i, hi⟩ := List.getElem?_of_mem hc
    have hat : (node icon label children).at? (i :: place) = child.at? place :=
      at?_of_child hi place
    exact h (i :: place) inner (hat.trans hinner)
  · rintro ⟨hlabel, hchildren⟩ place inner hinner
    cases place with
    | nil =>
      obtain rfl := Option.some.inj hinner
      exact hlabel
    | cons i place =>
      obtain ⟨child, hchild, hinner⟩ := Option.bind_eq_some_iff.1 hinner
      exact hchildren child (List.mem_of_getElem? hchild) place inner hinner

lemma oneLine_leaf {icon : Char} {label : String} : (leaf icon label).OneLine ↔ IsLine label := by
  rw [leaf, oneLine_node, IsLine]
  simp

lemma ofElements_eq_map (elements : List Element) :
    ofElements elements = elements.map ofElement := by
  induction elements with
  | nil => rfl
  | cons element rest ih => rw [ofElements, ih, List.map_cons]

end Outline

/-! ## The parts of a document -/

def Segment.OneLine (segment : Segment) : Prop := (Outline.ofSegment segment).OneLine

def Element.OneLine (element : Element) : Prop := (Outline.ofElement element).OneLine

def Scene.OneLine (scene : Scene) : Prop := (Outline.ofScene scene).OneLine

namespace Segment

lemma oneLine_raw {text : String} : (raw text).OneLine ↔ IsLine text := Outline.oneLine_leaf

lemma oneLine_pause (duration : Millis) : (pause duration).OneLine :=
  Outline.oneLine_leaf.2 ((isLine_toString _).append (by decide))

/-- The text of a segment is in its label. -/
lemma OneLine.text {segment : Segment} (h : segment.OneLine) {text : String}
    (htext : segment.text? = some text) : IsLine text := by
  cases segment with
  | raw own | ego own | bold own =>
    obtain rfl : own = text := Option.some.inj htext
    exact Outline.oneLine_leaf.1 h
  | pause duration => cases htext
  | directive name own =>
    obtain rfl : own = some text := htext
    have hlabel : IsLine (name ++ ": " ++ text) := Outline.oneLine_leaf.1 h
    intro hfeed
    exact hlabel (by simp [hfeed])

end Segment

/-- Both sides of a pair are without line feeds. -/
def Bilingual.OneLine (pair : Bilingual) : Prop := IsLine pair.en ∧ IsLine pair.zh

lemma Bilingual.OneLine.label {pair : Bilingual} (h : pair.OneLine) :
    IsLine (Outline.pairLabel pair) := by
  rw [Outline.pairLabel]
  split
  · exact h.1
  · exact (h.1.append (by decide)).append h.2

namespace Element

lemma oneLine_title {en zh : Option String} (hen : ∀ text ∈ en, IsLine text)
    (hzh : ∀ text ∈ zh, IsLine text) : (title en zh).OneLine := by
  rw [OneLine, Outline.ofElement, Outline.oneLine_leaf]
  cases en with
  | none =>
    cases zh with
    | none => decide
    | some zh => exact hzh zh rfl
  | some en =>
    cases zh with
    | none => exact hen en rfl
    | some zh => exact ((hen en rfl).append (by decide)).append (hzh zh rfl)

lemma oneLine_text {content : List Segment} (h : ∀ segment ∈ content, segment.OneLine) :
    (text content).OneLine := by
  rw [OneLine, Outline.ofElement, Outline.oneLine_node]
  refine ⟨isLine_join fun text htext => ?_, List.forall_mem_map.2 h⟩
  obtain ⟨segment, hsegment, htext⟩ := List.mem_filterMap.1 htext
  exact (h segment hsegment).text htext

lemma oneLine_pairs {pairs : List Bilingual} (h : ∀ pair ∈ pairs, pair.OneLine) :
    ∀ child ∈ pairs.map Outline.ofPair, child.OneLine :=
  List.forall_mem_map.2 fun pair hp => Outline.oneLine_leaf.2 (h pair hp).label

lemma oneLine_quote {emphasis : Bool} {pairs : List Bilingual} (h : ∀ pair ∈ pairs, pair.OneLine) :
    (quote emphasis pairs).OneLine := by
  have hnote : IsLine (if emphasis then " (emphasis)" else "") := by cases emphasis <;> decide
  rw [OneLine, Outline.ofElement, Outline.oneLine_node]
  constructor
  · refine IsLine.append ?_ hnote
    cases pairs with
    | nil => decide
    | cons pair rest => exact (h pair List.mem_cons_self).label
  · split
    · exact oneLine_pairs h
    · exact List.forall_mem_nil _

lemma oneLine_practice {pairs : List Bilingual} (h : ∀ pair ∈ pairs, pair.OneLine) :
    (practice pairs).OneLine := by
  rw [OneLine, Outline.ofElement, Outline.oneLine_node]
  exact ⟨(isLine_toString _).append (by decide), oneLine_pairs h⟩

lemma oneLine_pause (duration : Millis) : (pause duration).OneLine :=
  Outline.oneLine_leaf.2 ((isLine_toString _).append (by decide))

lemma oneLine_word {focus : String} {elements : List Element} :
    (word focus elements).OneLine ↔ IsLine focus ∧ ∀ child ∈ elements, child.OneLine := by
  rw [OneLine, Outline.ofElement, Outline.oneLine_node, Outline.ofElements_eq_map,
    List.forall_mem_map]
  rfl

lemma oneLine_closing {elements : List Element} :
    (closing elements).OneLine ↔ ∀ child ∈ elements, child.OneLine := by
  have hlabel : '\n' ∉ "closing".toList := by decide
  rw [OneLine, Outline.ofElement, Outline.oneLine_node, Outline.ofElements_eq_map,
    List.forall_mem_map, and_iff_right hlabel]
  rfl

lemma OneLine.withChildren {element : Element} (h : element.OneLine) {elements : List Element}
    (helements : ∀ child ∈ elements, child.OneLine) : (element.withChildren elements).OneLine := by
  cases element with
  | word focus children => exact oneLine_word.2 ⟨(oneLine_word.1 h).1, helements⟩
  | closing children => exact oneLine_closing.2 helements
  | title | text | quote | practice | pause => exact h

end Element

namespace Scene

lemma oneLine_iff {scene : Scene} :
    scene.OneLine ↔ IsLine scene.heading ∧ ∀ element ∈ scene.elements, element.OneLine := by
  rw [OneLine, Outline.ofScene, Outline.oneLine_node, Outline.ofElements_eq_map,
    List.forall_mem_map]
  rfl

end Scene

namespace Document

/-- The title of a document as its drawing shows it. -/
def shownTitle (doc : Document) : String :=
  ((doc.metadata.get? "title").map MetaValue.shown).getD "Document"

/-- The outline of a whole document, with its title at the root. -/
def outline (doc : Document) : Outline :=
  .node '⧉' doc.shownTitle.toList (doc.scenes.map .ofScene)

lemma oneLine_iff {doc : Document} :
    doc.outline.OneLine ↔ IsLine doc.shownTitle ∧ ∀ scene ∈ doc.scenes, scene.OneLine := by
  rw [outline, Outline.oneLine_node, List.forall_mem_map]
  rfl

end Document

end LessonScript
