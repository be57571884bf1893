import LessonScript.Proofs.Body.Elements
import LessonScript.Proofs.Body.Pairs
import LessonScript.Proofs.Registration

/-!
# Well-formed documents

What the built-in commands make of a script has a shape that no type says: the title scene comes
first if there is one, titles have the texts of the metadata, only prose is nested, and the pairs
of quotes and practice have sides that tell them apart.
-/

namespace LessonScript

open Text (Line)

namespace Element

/-- The elements that lines of prose are read to. -/
def IsProse : Element → Prop
  | .text _ | .pause _ => True
  | .title .. | .quote .. | .practice _ | .word .. | .closing _ => False

/-- An element as it stands in a document with some metadata. -/
def WellFormed (metadata : Metadata) : Element → Prop
  | .title en zh => en = (metadata.get? "title_en").map MetaValue.shown ∧
      zh = (metadata.get? "title_zh").map MetaValue.shown
  | .text _ | .pause _ => True
  | .quote _ pairs => QuotePairs pairs
  | .practice pairs => PracticePairs pairs
  | .word _ children | .closing children => ∀ child ∈ children, child.IsProse

lemma IsProse.wellFormed {element : Element} (h : element.IsProse) (metadata : Metadata) :
    element.WellFormed metadata := by
  cases element with
  | text | pause => trivial
  | title | quote | practice | word | closing => exact h.elim

end Element

namespace Scene

/-- A scene that goes by the slug of its name. -/
def IsNamed (scene : Scene) : Prop :=
  scene.kind = .scene ∧ ∃ name, scene.name = some name ∧ scene.id = slug name

/-- The scene that a title opens. -/
def IsTitle (scene : Scene) : Prop :=
  scene.kind = .title ∧ scene.id = "title" ∧ scene.name = none

lemma isNamed_named (name : String) : (named name).IsNamed := ⟨rfl, name, rfl, rfl⟩

end Scene

/-- Every scene is named, unless it is the first one and opened by a title. -/
def Headed (scenes : List Scene) : Prop :=
  ∀ i scene, scenes[i]? = some scene → scene.IsNamed ∨ i = 0 ∧ scene.IsTitle

namespace Headed

variable {scenes : List Scene} {last : Scene}

lemma concat_iff : Headed (scenes ++ [last]) ↔
    Headed scenes ∧ (last.IsNamed ∨ scenes = [] ∧ last.IsTitle) := by
  constructor
  · intro h
    refine ⟨fun i scene hi => h i scene ?_, ?_⟩
    · obtain ⟨hlt, -⟩ := List.getElem?_eq_some_iff.1 hi
      rwa [List.getElem?_append_left hlt]
    · rw [← List.length_eq_zero_iff]
      exact h _ _ List.getElem?_concat_length
  · rintro ⟨h, hlast⟩ i scene hi
    rcases Nat.lt_trichotomy i scenes.length with hlt | rfl | hgt
    · rw [List.getElem?_append_left hlt] at hi
      exact h i scene hi
    · rw [List.getElem?_concat_length] at hi
      obtain rfl := Option.some.inj hi
      rwa [List.length_eq_zero_iff]
    · rw [List.getElem?_eq_none (by simpa using Nat.succ_le_of_lt hgt)] at hi
      cases hi

lemma nil : Headed [] := nofun

lemma extend (h : Headed scenes) (elements : List Element) :
    Headed (Chunk.extend scenes elements) := by
  rcases List.eq_nil_or_concat scenes with rfl | ⟨before, last, rfl⟩
  · exact h
  · rw [List.concat_eq_append] at h ⊢
    rw [Chunk.extend, List.modifyLast_concat]
    obtain ⟨hbefore, hlast⟩ := concat_iff.1 h
    exact concat_iff.2 ⟨hbefore, hlast⟩

end Headed

structure Document.WellFormed (doc : Document) : Prop where
  headed : Headed doc.scenes
  elements : EveryElement (Element.WellFormed doc.metadata) doc.scenes

/-! ### What commands contribute -/

/-- No command decodes a block to a scene that has no name. -/
def CommandSet.NamesScenes (commands : CommandSet) : Prop :=
  ∀ command ∈ commands.block, ∀ lines modifier scene rest,
    command.decode lines modifier = .scene scene rest → scene.IsNamed

section Commands

variable {commands : CommandSet} (metadata : Metadata)

lemma CommandSet.isProse_proseElements {lines : List Line} {element : Element}
    (h : element ∈ commands.proseElements lines) : element.IsProse := by
  obtain ⟨line, -, rfl⟩ := List.mem_map.1 h
  rw [proseElement]
  split <;> trivial

lemma Headed.read (hc : commands.NamesScenes) {scenes : List Scene} (h : Headed scenes)
    {chunk : Chunk} {line : Line} (hl : Heading.ofLine? commands line = some chunk.heading) :
    Headed (Chunk.read commands metadata scenes chunk) := by
  obtain ⟨heading, content⟩ := chunk
  apply Headed.extend
  cases heading with
  | title =>
    cases scenes with
    | nil => exact concat_iff.2 ⟨h, .inr ⟨rfl, rfl, rfl, rfl⟩⟩
    | cons first rest => simpa [Chunk.contributes] using h
  | scene name => exact concat_iff.2 ⟨h, .inl (Scene.isNamed_named _)⟩
  | block command modifier =>
    have hmem := (Heading.of_block hl).1
    simp only [Chunk.contributes]
    split
    · simpa using h
    · cases hd : command.decode content modifier with
      | element element => cases element <;> simpa [Chunk.contribution] using h
      | container element lines => simpa [Chunk.contribution] using h
      | scene scene rest =>
        exact concat_iff.2 ⟨h, .inl (hc command hmem content modifier scene rest hd)⟩

lemma headed_scenesOf (hc : commands.NamesScenes) (lines : List Line) :
    Headed (Walk.scenesOf commands metadata lines) := by
  apply Walk.scenesOf_induction
  · exact Headed.nil.extend _
  · intro scenes chunk hchunk h
    obtain ⟨line, -, hl⟩ := hchunk.heading
    exact h.read metadata hc hl

end Commands

namespace Builtin

lemma block_builtin :
    Registry.builtin.commandSet.block = [quote, practice, word, closing, scene, title] := by
  have hvalues := Arranged.commands.values_ofCommands
  show (Registry.ofCommands commands).commands.values.filterMap Command.block? = _
  rw [hvalues]
  rfl

lemma namesScenes : Registry.builtin.commandSet.NamesScenes := by
  intro command hc lines modifier opened rest hd
  rw [block_builtin] at hc
  simp only [List.mem_cons, List.not_mem_nil, or_false] at hc
  rcases hc with rfl | rfl | rfl | rfl | rfl | rfl
  · cases hd
  · cases hd
  · cases hd
  · cases hd
  · obtain ⟨rfl, -⟩ := BlockContent.scene.inj hd
    exact Scene.isNamed_named _
  · cases hd

lemma yields (metadata : Metadata) :
    Registry.builtin.commandSet.Yields metadata (Element.WellFormed metadata) where
  title := ⟨rfl, rfl⟩
  prose lines element he := (CommandSet.isProse_proseElements he).wellFormed metadata
  block command hc lines modifier := by
    rw [block_builtin] at hc
    simp only [List.mem_cons, List.not_mem_nil, or_false] at hc
    rcases hc with rfl | rfl | rfl | rfl | rfl | rfl
    · exact EveryElement.single (quotePairs_filter _)
    · exact EveryElement.single (practicePairs_lines lines)
    · exact EveryElement.single fun child hchild => CommandSet.isProse_proseElements hchild
    · exact EveryElement.single fun child hchild => CommandSet.isProse_proseElements hchild
    · exact ⟨List.forall_mem_singleton.2 nofun,
        fun element he => (CommandSet.isProse_proseElements he).wellFormed metadata⟩
    · exact EveryElement.single ⟨rfl, rfl⟩

end Builtin

/-- Whatever the script, what the built-in commands make of it is well formed. -/
theorem Document.wellFormed_parse (source : String) :
    (Parser.builtin.parse source).1.WellFormed where
  headed := headed_scenesOf _ Builtin.namesScenes _
  elements := (Builtin.yields _).scenesOf _

end LessonScript
