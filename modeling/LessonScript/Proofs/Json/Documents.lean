import LessonScript.Format
import LessonScript.Proofs.Body.Elements
import LessonScript.Proofs.Coding
import LessonScript.Proofs.Json.RoundTrip
import LessonScript.Proofs.Registration

/-!
# Documents as JSON

Reading the JSON text of a document gives back the document, whatever it holds, as long as it nests
within the limit of the reader. A parsed script stays far below that limit, unless a command decodes
its blocks to elements that nest deeper by themselves.
-/

namespace LessonScript

/-- The elements that decoding a block gives, without those still to be read from prose. -/
def BlockContent.elements : BlockContent → List Element
  | .element decoded => [decoded]
  | .container decoded _ => [decoded]
  | .scene opened _ => opened.elements

/-- No command decodes a block to an element that nests deeper than it may in a document. -/
def CommandSet.Shallow (commands : CommandSet) : Prop :=
  ∀ command ∈ commands.block, ∀ lines modifier,
    ∀ element ∈ (command.decode lines modifier).elements,
      element.toData.nesting ≤ Data.depthLimit - 4

namespace CommandSet

variable (commands : CommandSet)

lemma children_proseElements {lines : List Text.Line} {element : Element}
    (h : element ∈ commands.proseElements lines) : element.children = [] := by
  obtain ⟨line, -, rfl⟩ := List.mem_map.1 h
  rw [proseElement]
  split <;> rfl

lemma nesting_proseElements {lines : List Text.Line} {element : Element}
    (h : element ∈ commands.proseElements lines) : element.toData.nesting ≤ 3 := by
  apply Element.nesting_toData_le (n := 0)
  simp [commands.children_proseElements h]

lemma nesting_withChildren {element : Element} {n : Nat} (h : element.toData.nesting ≤ n + 5)
    (lines : List Text.Line) :
    (element.withChildren (commands.proseElements lines)).toData.nesting ≤ n + 5 := by
  have hprose : ∀ child ∈ commands.proseElements lines, child.toData.nesting ≤ n + 2 + 1 :=
    fun child hc => Nat.le_trans (commands.nesting_proseElements hc) (by omega)
  cases element with
  | word focus elements => exact Element.nesting_toData_le hprose
  | closing elements => exact Element.nesting_toData_le hprose
  | _ => exact h

variable (metadata : Metadata)

lemma nesting_titleElement : (titleElement metadata).toData.nesting ≤ 3 :=
  Element.nesting_toData_le (n := 0) (by simp [titleElement, Element.children])

lemma nesting_contribution {content : BlockContent} {n : Nat}
    (h : ∀ element ∈ content.elements, element.toData.nesting ≤ n + 5) :
    let added := Chunk.contribution commands metadata content
    EveryElement (fun element => element.toData.nesting ≤ n + 5) added.1.toList ∧
      ∀ element ∈ added.2, element.toData.nesting ≤ n + 5 := by
  cases content with
  | element element =>
    have helement := List.forall_mem_singleton.1 h
    refine ⟨by cases element <;> simp [Chunk.contribution, EveryElement], ?_⟩
    cases element with
    | title en zh =>
      exact List.forall_mem_singleton.2 (Nat.le_trans (nesting_titleElement metadata) (by omega))
    | _ => exact List.forall_mem_singleton.2 helement
  | container element lines =>
    have helement := List.forall_mem_singleton.1 h
    exact ⟨by simp [Chunk.contribution, EveryElement],
      List.forall_mem_singleton.2 (commands.nesting_withChildren helement lines)⟩
  | scene scene lines =>
    exact ⟨List.forall_mem_singleton.2 h,
      fun element he => Nat.le_trans (commands.nesting_proseElements he) (by omega)⟩

variable {commands}

lemma Shallow.yields (h : commands.Shallow) :
    commands.Yields metadata fun element => element.toData.nesting ≤ Data.depthLimit - 4 where
  title := Nat.le_trans (nesting_titleElement metadata) (by decide)
  prose _ _ he := Nat.le_trans (commands.nesting_proseElements he) (by decide)
  block command hc lines modifier :=
    commands.nesting_contribution metadata (n := 118) (h command hc lines modifier)

/-- A script parsed with shallow commands is within the reader's limit. -/
lemma Shallow.nesting_parse (h : commands.Shallow) (source : String) :
    (commands.parse source).toData.nesting ≤ Data.depthLimit := by
  have helements := (h.yields (extractHeader source.toList).1).scenesOf
    (Text.bodyLines (extractHeader source.toList).2)
  exact Document.nesting_toData_le_iff.2 fun scene hs =>
    Scene.nesting_toData_le_iff.2 (helements scene hs)

end CommandSet

namespace Builtin

/-- The built-in blocks hold pairs or nothing yet. -/
lemma children_decode {command : BlockCommand} (h : command ∈ blockCommands)
    (lines : List Text.Line) (modifier : Option (List Char)) :
    ∀ element ∈ (command.decode lines modifier).elements, element.children = [] := by
  have hlist : blockCommands = [quote, practice, word, closing, scene, title] := rfl
  rw [hlist] at h
  simp only [List.mem_cons, List.not_mem_nil, or_false] at h
  rcases h with rfl | rfl | rfl | rfl | rfl | rfl
  · exact List.forall_mem_singleton.2 rfl
  · exact List.forall_mem_singleton.2 rfl
  · exact List.forall_mem_singleton.2 rfl
  · exact List.forall_mem_singleton.2 rfl
  · exact List.forall_mem_nil _
  · exact List.forall_mem_singleton.2 rfl

lemma shallow {registry : Registry}
    (h : ∀ command ∈ registry.commands.values, command ∈ commands) :
    registry.commandSet.Shallow := by
  intro command hc lines modifier element he
  have hmem : command ∈ blockCommands := (mem_of_values h).2 command hc
  have hle : element.toData.nesting ≤ 3 := Element.nesting_toData_le (n := 0) (by
    simp [children_decode hmem lines modifier element he])
  exact Nat.le_trans hle (by decide)

end Builtin

/-- The JSON text of a document is read back as the document, as long as it nests at most 127 levels
deep: with the same metadata in the same order, integers and texts kept apart, and the same scenes.
A parsed script is within these levels with all commands that are shallow, and so it is with the
built-in ones, whatever names they are registered under. -/
theorem Document.read_render_json :
    (∀ doc : Document, doc.toData.nesting ≤ Data.depthLimit →
      (Json.read? (Format.json.render doc)).bind Document.ofData? = some doc) ∧
    (∀ commands : CommandSet, commands.Shallow →
      ∀ source, (commands.parse source).toData.nesting ≤ Data.depthLimit) ∧
    ∀ registry : Registry, (∀ command ∈ registry.commands.values, command ∈ Builtin.commands) →
      ∀ source, ((Parser.ofRegistry registry).parse source).1.toData.nesting ≤ Data.depthLimit := by
  refine ⟨?_, fun commands h => h.nesting_parse, ?_⟩
  · intro doc h
    rw [Format.render, Json.read?_print doc.exact_toData, Option.bind_some, ofData?_toData h]
  · intro registry h
    exact (Builtin.shallow h).nesting_parse

/-- A number beside the text that looks like it, a word within a closing, and characters that are
escaped; and a script for the built-in commands. -/
theorem Document.read_render_json_nested :
    let inner : List Element := [.text [.raw "\"\\\n\x01é𝄞", .pause 18446744073709551615],
      .title none (some ""), .quote true [⟨"", "你"⟩]]
    let doc : Document := ⟨⟨[("a", .int (-1)), ("", .str "-1")], by decide⟩,
      [⟨"s", none, .title, [.closing [.word "w" inner, .practice []]]⟩]⟩
    let source := "# TITLE\n## WORD: a\nb [pause] c"
    doc.toData.nesting ≤ Data.depthLimit ∧
      (Json.read? (Format.json.render doc)).bind Document.ofData? = some doc ∧
      (∀ command ∈ Registry.builtin.commands.values, command ∈ Builtin.commands) ∧
      Registry.builtin.commandSet.Shallow ∧
      ((Parser.ofRegistry .builtin).parse source).1.toData.nesting ≤ Data.depthLimit ∧
      (Registry.builtin.commandSet.parse source).toData.nesting ≤ Data.depthLimit := by
  intro inner doc source
  have hnesting : doc.toData.nesting ≤ Data.depthLimit := by decide
  have hbuiltin : ∀ command ∈ Registry.builtin.commands.values, command ∈ Builtin.commands := by
    intro command hc
    have hvalues := Builtin.Arranged.commands.values_ofCommands
    exact hvalues ▸ hc
  have hshallow := Builtin.shallow hbuiltin
  exact ⟨hnesting, read_render_json.1 doc hnesting, hbuiltin, hshallow,
    read_render_json.2.2 _ hbuiltin source, read_render_json.2.1 _ hshallow source⟩

end LessonScript
