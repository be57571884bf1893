import LessonScript.Format
import LessonScript.Proofs.Outline.Reading
import LessonScript.Proofs.Outline.Scripts

/-!
# The drawing of a document

Below its heading a drawing has one line for each part of the document, in the order of the parts,
and it tells the tree of the parts up to what is cut off their labels.
-/

namespace LessonScript

/-- A part of a document that has a node of its own in the drawing. -/
inductive Part where
  | document (doc : Document)
  | scene (scene : Scene)
  | element (element : Element)
  | pair (pair : Bilingual)
  | segment (segment : Segment)

namespace Part

/-- The parts of a part in their order. A quote of one pair is drawn as the pair is, so that the
pair is no part of its own. -/
def parts : Part → List Part
  | .document doc => doc.scenes.map .scene
  | .scene s => s.elements.map .element
  | .element (.text content) => content.map .segment
  | .element (.quote _ quotes) => if 1 < quotes.length then quotes.map .pair else []
  | .element (.practice practices) => practices.map .pair
  | .element (.word _ elements) | .element (.closing elements) => elements.map .element
  | .element (.title ..) | .element (.pause _) | .pair _ | .segment _ => []

/-- The part at a place: the position of a scene, of an element in it, and so on. -/
def at? (part : Part) : List Nat → Option Part
  | [] => some part
  | i :: place => part.parts[i]?.bind fun inner => inner.at? place

def outline : Part → Outline
  | .document doc => doc.outline
  | .scene s => .ofScene s
  | .element e => .ofElement e
  | .pair p => .ofPair p
  | .segment s => .ofSegment s

lemma children_outline (part : Part) : part.outline.children = part.parts.map outline := by
  cases part with
  | document doc =>
    rw [parts, List.map_map]
    rfl
  | scene s =>
    rw [parts, List.map_map, outline, Outline.ofScene, Outline.ofElements_eq_map]
    rfl
  | element e =>
    cases e with
    | text content =>
      rw [parts, List.map_map]
      rfl
    | quote emphasis quotes =>
      rw [parts, outline, Outline.ofElement]
      split
      · rw [List.map_map]
        rfl
      · rfl
    | practice practices =>
      rw [parts, List.map_map]
      rfl
    | word focus elements =>
      rw [parts, List.map_map, outline, Outline.ofElement, Outline.ofElements_eq_map]
      rfl
    | closing elements =>
      rw [parts, List.map_map, outline, Outline.ofElement, Outline.ofElements_eq_map]
      rfl
    | title | pause => rfl
  | pair p => rfl
  | segment s =>
    cases s with
    | directive name text => cases text <;> rfl
    | raw | pause | ego | bold => rfl

/-- The node at a place is the outline of the part there. -/
lemma at?_outline (part : Part) (place : List Nat) :
    part.outline.at? place = (part.at? place).map outline := by
  induction place generalizing part with
  | nil => rfl
  | cons i place ih =>
    rw [Outline.at?, at?, children_outline, List.getElem?_map, Option.bind_map, Option.map_bind]
    exact congrArg _ (funext ih)

lemma newline_ne_icon (part : Part) : '\n' ≠ part.outline.icon := by
  cases part with
  | document doc => simp [outline, Document.outline, Outline.icon]
  | scene s => cases hkind : s.kind <;> simp [outline, Outline.ofScene, Outline.icon, hkind]
  | element e => cases e <;> simp [outline, Outline.ofElement, Outline.leaf, Outline.icon]
  | pair p => simp [outline, Outline.ofPair, Outline.leaf, Outline.icon]
  | segment s =>
    cases s with
    | directive name text =>
      cases text <;> simp [outline, Outline.ofSegment, Outline.leaf, Outline.icon]
    | raw | pause | ego | bold => simp [outline, Outline.ofSegment, Outline.leaf, Outline.icon]

end Part

/-! ## Lines -/

namespace Outline

lemma newline_notMem_shownLabel {label : List Char} (h : '\n' ∉ label) :
    '\n' ∉ shownLabel label := by
  rw [shownLabel]
  split
  · have hdots : '\n' ∉ "...".toList := by decide
    rw [List.mem_append, not_or]
    exact ⟨fun hfeed => h (List.take_subset _ _ hfeed), hdots⟩
  · exact h

lemma newline_notMem_caption {node : Outline} (hicon : '\n' ≠ node.icon)
    (hlabel : '\n' ∉ node.label) : '\n' ∉ node.caption := by
  have hblank : '\n' ≠ ' ' := by decide
  rw [caption, List.mem_cons, List.mem_cons, not_or, not_or]
  exact ⟨hicon, hblank, newline_notMem_shownLabel hlabel⟩

lemma newline_notMem_lineAt {tree node : Outline} {place : List Nat}
    (hnode : tree.at? place = some node) (hcaption : '\n' ∉ node.caption) :
    '\n' ∉ tree.lineAt place := by
  have hcell : ∀ last, '\n' ∉ cell last := by decide
  have hconnector : ∀ last, '\n' ∉ connector last := by decide
  rw [lineAt, hnode, List.mem_append, List.mem_append, List.mem_flatMap]
  rintro ((⟨above, -, hfeed⟩ | hfeed) | hfeed)
  · exact hcell _ hfeed
  · exact hconnector _ hfeed
  · exact hcaption hfeed

end Outline

/-- Lines with a line feed behind each are what the text splits into, and nothing is left behind the
last one. -/
lemma splitOn_flatMap {lines : List (List Char)} (h : ∀ line ∈ lines, '\n' ∉ line) :
    (lines.flatMap (· ++ ['\n'])).splitOn '\n' = lines ++ [[]] := by
  induction lines with
  | nil => rfl
  | cons line rest ih =>
    obtain ⟨hline, hrest⟩ := List.forall_mem_cons.1 h
    rw [List.flatMap_cons, List.append_assoc, List.singleton_append,
      List.splitOn_append_cons_self_of_not_mem hline, ih hrest, List.cons_append]

namespace Document

variable {doc : Document}

lemma drawingHeading_eq (doc : Document) :
    doc.drawingHeading = doc.outline.caption ++ s!" ({doc.scenes.length} scenes)".toList := rfl

lemma drawing_eq (doc : Document) :
    doc.drawing = doc.drawingHeading ::
      (Outline.placesFrom 0 doc.outline.children).map doc.outline.lineAt :=
  congrArg (doc.drawingHeading :: ·) (doc.outline.linesOf_children [])

lemma newline_notMem_drawing (h : doc.outline.OneLine) : ∀ line ∈ doc.drawing, '\n' ∉ line := by
  have hcaption : ∀ place node, doc.outline.at? place = some node → '\n' ∉ node.caption := by
    intro place node hnode
    have hpart : doc.outline.at? place = _ := (Part.document doc).at?_outline place
    obtain ⟨part, -, rfl⟩ := Option.map_eq_some_iff.1 (hpart.symm.trans hnode)
    exact Outline.newline_notMem_caption part.newline_ne_icon (h place _ hnode)
  have hcount : IsLine s!" ({doc.scenes.length} scenes)" :=
    (IsLine.append (by decide) (isLine_toString _)).append (by decide)
  rw [drawing_eq, drawingHeading_eq]
  refine List.forall_mem_cons.2 ⟨?_, List.forall_mem_map.2 fun place hplace => ?_⟩
  · exact fun hfeed => (List.mem_append.1 hfeed).elim (hcaption [] _ rfl) hcount
  · have hmem : place ∈ doc.outline.places := by
      rw [Outline.places_eq]
      exact List.mem_cons_of_mem [] hplace
    obtain ⟨node, hnode⟩ := Option.isSome_iff_exists.1 ((Outline.mem_places _ _).1 hmem)
    exact Outline.newline_notMem_lineAt hnode (hcaption place node hnode)

lemma splitOn_render (h : doc.outline.OneLine) :
    (Format.tree.render doc).toList.splitOn '\n' = doc.drawing ++ [[]] := by
  rw [Format.render, String.toList_ofList, splitOn_flatMap (newline_notMem_drawing h)]

/-- A text has a line for each part of a document below its heading. -/
structure DrawnBy (doc : Document) (places : List (List Nat)) (text : String) : Prop where
  /-- The places come in their order, behind that of the document as a whole. -/
  ordered : ([] :: places).Pairwise (· < ·)
  /-- They are the places of the parts. -/
  complete : ∀ place, place ∈ [] :: places ↔ ((Part.document doc).at? place).isSome = true
  /-- A node of the outline has the icon and the label of the part at its place. -/
  nodes : ∀ place, doc.outline.at? place = ((Part.document doc).at? place).map Part.outline
  lines : text.toList.splitOn '\n' =
    (doc.outline.caption ++ s!" ({doc.scenes.length} scenes)".toList) ::
      places.map doc.outline.lineAt ++ [[]]

lemma drawnBy_render (h : doc.outline.OneLine) :
    doc.DrawnBy (Outline.placesFrom 0 doc.outline.children) (Format.tree.render doc) where
  ordered := by
    rw [← Outline.places_eq]
    exact doc.outline.pairwise_places
  complete place := by
    have hpart : doc.outline.at? place = _ := (Part.document doc).at?_outline place
    rw [← Outline.places_eq, Outline.mem_places, hpart, Option.isSome_map]
  nodes := (Part.document doc).at?_outline
  lines := by rw [splitOn_render h, drawing_eq, drawingHeading_eq]

/-- Documents with the same drawing are the same as far as they are shown. -/
lemma shown_outline_eq (h : doc.outline.OneLine) {other : Document} (hother : other.outline.OneLine)
    (hrender : Format.tree.render doc = Format.tree.render other) :
    doc.outline.shown = other.outline.shown := by
  have hdrawing : doc.drawing = other.drawing := by
    apply List.append_cancel_right
    rw [← splitOn_render h, ← splitOn_render hother, hrender]
  obtain ⟨hheading, hlines⟩ := List.cons.inj hdrawing
  have hscenes := Outline.shownAll_eq_of_linesOf hlines
  have hlength : doc.scenes.length = other.scenes.length := by
    have hcount := congrArg List.length hscenes
    rwa [Outline.shownAll_eq_map, Outline.shownAll_eq_map, List.length_map, List.length_map,
      List.length_map, List.length_map] at hcount
  -- With the number of scenes known to be the same, the headings tell the titles.
  rw [drawingHeading_eq, drawingHeading_eq, hlength] at hheading
  exact Outline.shown_eq_of_caption (List.append_cancel_right hheading) hscenes

/-- A document without line feeds in its labels is drawn with one line for each of its parts, and
its drawing tells the tree of the parts: two documents of this kind are drawn alike only if their
outlines are the same with all labels cut. What is parsed with commands that keep to the lines is of
this kind, and so it is with the built-in commands, whatever names they are registered under. -/
theorem render_tree_by_parts :
    (∀ doc : Document, doc.outline.OneLine →
      (∃ places, doc.DrawnBy places (Format.tree.render doc)) ∧
        ∀ other : Document, other.outline.OneLine →
          Format.tree.render doc = Format.tree.render other →
            doc.outline.shown = other.outline.shown) ∧
    (∀ commands : CommandSet, commands.KeepsLines →
      ∀ source, (commands.parse source).outline.OneLine) ∧
    ∀ registry : Registry, (∀ command ∈ registry.commands.values, command ∈ Builtin.commands) →
      ∀ source, ((Parser.ofRegistry registry).parse source).1.outline.OneLine := by
  refine ⟨fun doc h => ⟨⟨_, drawnBy_render h⟩, ?_⟩, fun commands h => h.parse, ?_⟩
  · exact fun other hother hrender => shown_outline_eq h hother hrender
  · exact fun registry h => (Builtin.keepsLines h).parse

/-- Labels that look like lines of a drawing, and two that part behind their thirtieth character. -/
theorem render_tree_of_cut_labels :
    let scenes (text : String) : List Scene :=
      [⟨"a", none, .title, [.closing [.text [.raw text, .pause 800]],
        .quote true [⟨"├─ ★ b", "你"⟩, ⟨"", ""⟩]]⟩, ⟨"c", some "", .scene, []⟩]
    let doc : Document := ⟨.empty, scenes "│ └─ ◦ a text of thirty-odd characters"⟩
    let other : Document := ⟨.empty, scenes "│ └─ ◦ a text of thirty-odd chars, cut"⟩
    let source := "# TITLE\n## WORD: a\nb [pause] c"
    doc.outline.OneLine ∧ other.outline.OneLine ∧
      Format.tree.render doc = Format.tree.render other ∧
      (∃ places, doc.DrawnBy places (Format.tree.render doc)) ∧
      doc.outline.shown = other.outline.shown ∧
      (∀ command ∈ Registry.builtin.commands.values, command ∈ Builtin.commands) ∧
      Registry.builtin.commandSet.KeepsLines ∧
      (Registry.builtin.commandSet.parse source).outline.OneLine ∧
      ((Parser.ofRegistry .builtin).parse source).1.outline.OneLine := by
  intro scenes doc other source
  have honeLine : ∀ text, IsLine text → (⟨.empty, scenes text⟩ : Document).outline.OneLine := by
    intro text htext
    have hclosing : (Element.closing [.text [.raw text, .pause 800]]).OneLine := by
      refine Element.oneLine_closing.2 (List.forall_mem_singleton.2 (Element.oneLine_text ?_))
      exact List.forall_mem_cons.2 ⟨Segment.oneLine_raw.2 htext,
        List.forall_mem_singleton.2 (Segment.oneLine_pause 800)⟩
    have hquote : (Element.quote true [⟨"├─ ★ b", "你"⟩, ⟨"", ""⟩]).OneLine := by
      refine Element.oneLine_quote (List.forall_mem_cons.2 ⟨?_, List.forall_mem_singleton.2 ?_⟩)
      · exact ⟨by decide, by decide⟩
      · exact ⟨by decide, by decide⟩
    have hnames : IsLine "Document" ∧ IsLine "a" := by decide
    refine Document.oneLine_iff.2 ⟨hnames.1, List.forall_mem_cons.2 ⟨?_, ?_⟩⟩
    · exact Scene.oneLine_iff.2 ⟨hnames.2,
        List.forall_mem_cons.2 ⟨hclosing, List.forall_mem_singleton.2 hquote⟩⟩
    · exact List.forall_mem_singleton.2 (Scene.oneLine_iff.2 ⟨by decide, List.forall_mem_nil _⟩)
  have hdoc : doc.outline.OneLine := honeLine _ (by decide)
  have hother : other.outline.OneLine := honeLine _ (by decide)
  have hdrawing : doc.drawing = other.drawing := by decide +kernel
  have hrender : Format.tree.render doc = Format.tree.render other := by
    rw [Format.render, Format.render, hdrawing]
  have hbuiltin : ∀ command ∈ Registry.builtin.commands.values, command ∈ Builtin.commands := by
    intro command hc
    have hvalues := Builtin.Arranged.commands.values_ofCommands
    exact hvalues ▸ hc
  have hkeeps := Builtin.keepsLines hbuiltin
  obtain ⟨hdrawn, hshown⟩ := render_tree_by_parts.1 doc hdoc
  exact ⟨hdoc, hother, hrender, hdrawn, hshown other hother hrender, hbuiltin, hkeeps,
    render_tree_by_parts.2.1 _ hkeeps source, render_tree_by_parts.2.2 _ hbuiltin source⟩

end Document

end LessonScript
