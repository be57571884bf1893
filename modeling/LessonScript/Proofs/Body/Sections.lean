import LessonScript.Proofs.Body.Chunks

/-!
# Sections

A section is a scene marker with the lines below it. Whatever lines stand above a section, an
unfinished block or a missing scene among them, they have no part in its scenes, and the section
has none in theirs.
-/

namespace LessonScript

open Text (Line)

/-- The first line is a scene marker. -/
def StartsScene (lines : List Line) : Prop := (lines.head?.bind Builtin.sceneName).isSome = true

instance : DecidablePred StartsScene := fun lines =>
  inferInstanceAs (Decidable ((lines.head?.bind Builtin.sceneName).isSome = true))

lemma StartsScene.exists_cons {lines : List Line} (h : StartsScene lines) :
    ∃ marker name rest, lines = marker :: rest ∧ Builtin.sceneName marker = some name := by
  cases lines with
  | nil => cases h
  | cons marker rest =>
    obtain ⟨name, hn⟩ := Option.isSome_iff_exists.1 h
    exact ⟨marker, name, rest, rfl, hn⟩

lemma Builtin.ne_titleMarker_of_sceneName {line : Line} {name : List Char}
    (h : sceneName line = some name) : line ≠ titleMarker := by
  rintro rfl
  have hnone : sceneName titleMarker = none := by decide
  rw [hnone] at h
  cases h

namespace Chunk

variable (commands : CommandSet) (metadata : Metadata)

lemma cut_section {marker : Line} {name : List Char} (hm : Builtin.sceneName marker = some name)
    (lines : List Line) :
    cut commands (marker :: lines) =
      ([], ⟨.scene name, (cut commands lines).1⟩ :: (cut commands lines).2) := by
  have hl : Heading.ofLine? commands marker = some (.scene name) := by
    rw [Heading.ofLine?_eq, if_neg (Builtin.ne_titleMarker_of_sceneName hm), hm]
  exact cut_heading hl lines

/-- Lines whose own cut begins with a heading add their chunks to those above. -/
lemma cut_append {below : List Line} (hb : (cut commands below).1 = []) (above : List Line) :
    cut commands (above ++ below) =
      ((cut commands above).1, (cut commands above).2 ++ (cut commands below).2) := by
  induction above with
  | nil => rw [List.nil_append, cut, List.nil_append, ← hb]
  | cons line rest ih =>
    rw [List.cons_append, cut, ih, cut]
    cases Heading.ofLine? commands line <;> rfl

lemma extend_append {scenes : List Scene} (hne : scenes ≠ []) (above : List Scene)
    (elements : List Element) :
    extend (above ++ scenes) elements = above ++ extend scenes elements :=
  List.modifyLast_append_of_right_ne_nil _ above scenes hne

lemma extend_ne_nil {scenes : List Scene} (hne : scenes ≠ []) (elements : List Element) :
    extend scenes elements ≠ [] := by
  obtain ⟨scenes, last, rfl⟩ := (List.eq_nil_or_concat scenes).resolve_left hne
  simp [extend, List.modifyLast_concat]

/-- Once a scene is open, a chunk has to do with nothing above it. -/
lemma read_append {scenes : List Scene} (hne : scenes ≠ []) (above : List Scene) (chunk : Chunk) :
    read commands metadata (above ++ scenes) chunk =
      above ++ read commands metadata scenes chunk := by
  have hfirst : (above ++ scenes).isEmpty = scenes.isEmpty := by
    cases scenes with
    | nil => exact absurd rfl hne
    | cons scene rest => cases above <;> rfl
  rw [read, read, hfirst, List.append_assoc]
  exact extend_append (by simp [hne]) above _

lemma read_ne_nil {scenes : List Scene} (hne : scenes ≠ []) (chunk : Chunk) :
    read commands metadata scenes chunk ≠ [] :=
  extend_ne_nil (by simp [hne]) _

lemma foldl_read_append {scenes : List Scene} (hne : scenes ≠ []) (above : List Scene)
    (chunks : List Chunk) :
    chunks.foldl (read commands metadata) (above ++ scenes) =
      above ++ chunks.foldl (read commands metadata) scenes := by
  induction chunks generalizing scenes with
  | nil => rfl
  | cons chunk rest ih =>
    rw [List.foldl_cons, List.foldl_cons, read_append commands metadata hne,
      ih (read_ne_nil commands metadata hne chunk)]

/-- A scene marker opens a scene whatever there is above it. -/
lemma read_scene (above : List Scene) (name : List Char) (content : List Line) :
    read commands metadata above ⟨.scene name, content⟩ =
      above ++ read commands metadata [] ⟨.scene name, content⟩ :=
  extend_append (by simp [contributes]) above _

end Chunk

namespace Walk

variable (commands : CommandSet) (metadata : Metadata)

lemma scenesOf_append {below : List Line} (hb : StartsScene below) (above : List Line) :
    scenesOf commands metadata (above ++ below) =
      scenesOf commands metadata above ++ scenesOf commands metadata below := by
  obtain ⟨marker, name, lines, rfl, hm⟩ := hb.exists_cons
  have hcut := Chunk.cut_section commands hm lines
  have hnone : Chunk.extend [] (commands.proseElements []) = [] := by rfl
  simp only [scenesOf_eq, Chunk.scenesOf, Chunk.cut_append commands (by rw [hcut]) above,
    List.foldl_append, hcut, List.foldl_cons, hnone]
  rw [Chunk.read_scene, Chunk.foldl_read_append]
  exact Chunk.extend_ne_nil (by simp [Chunk.contributes]) _

lemma scenesOf_append_append {here below : List Line} (hh : StartsScene here)
    (hb : below = [] ∨ StartsScene below) (above : List Line) :
    scenesOf commands metadata (above ++ here ++ below) =
      scenesOf commands metadata above ++ scenesOf commands metadata here ++
        scenesOf commands metadata below := by
  rcases hb with rfl | hb
  · have hnone : scenesOf commands metadata [] = [] := by rfl
    rw [List.append_nil, hnone, List.append_nil, scenesOf_append commands metadata hh]
  · rw [scenesOf_append commands metadata hb, scenesOf_append commands metadata hh]

/-- A section is read apart from what stands above it. So the scenes above a section and those
below it stay the same whatever its lines are changed to. -/
theorem scenesOf_sections (registry : Registry) (metadata : Metadata) (above here : List Line)
    (hh : StartsScene here) :
    scenesOf registry.commandSet metadata (above ++ here) =
        scenesOf registry.commandSet metadata above ++
          scenesOf registry.commandSet metadata here ∧
      ∀ edited below, StartsScene edited → (below = [] ∨ StartsScene below) →
        scenesOf registry.commandSet metadata (above ++ here ++ below) =
            scenesOf registry.commandSet metadata above ++
              scenesOf registry.commandSet metadata here ++
              scenesOf registry.commandSet metadata below ∧
          scenesOf registry.commandSet metadata (above ++ edited ++ below) =
            scenesOf registry.commandSet metadata above ++
              scenesOf registry.commandSet metadata edited ++
              scenesOf registry.commandSet metadata below := by
  refine ⟨scenesOf_append _ metadata hh above, ?_⟩
  intro edited below he hb
  exact ⟨scenesOf_append_append _ metadata hh hb above,
    scenesOf_append_append _ metadata he hb above⟩

/-- The section stands below a title without a scene of its own and an unfinished quote. -/
theorem scenesOf_between_quote_and_scene :
    let above := ["stray".toList, "# TITLE".toList, "## QUOTE".toList, "> Hi".toList]
    let here := ["# SCENE: One".toList, "Hello".toList]
    let edited := ["# SCENE: Uno".toList, "## PRACTICE".toList]
    let below := ["# SCENE: Two".toList, "# TITLE".toList]
    let scenes := Walk.scenesOf Registry.builtin.commandSet .empty
    StartsScene here ∧ StartsScene edited ∧ StartsScene below ∧
      scenes (above ++ here) = scenes above ++ scenes here ∧
      scenes (above ++ here ++ below) = scenes above ++ scenes here ++ scenes below ∧
      scenes (above ++ edited ++ below) = scenes above ++ scenes edited ++ scenes below := by
  intro above here edited below scenes
  have hh : StartsScene here := by decide
  have he : StartsScene edited := by decide
  have hb : StartsScene below := by decide
  obtain ⟨happend, hedit⟩ := scenesOf_sections .builtin .empty above here hh
  exact ⟨hh, he, hb, happend, hedit edited below he (.inr hb)⟩

end Walk
end LessonScript
