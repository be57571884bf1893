import LessonScript.Proofs.Body.WellFormed

/-!
# Blank lines in a body

A blank line is content wherever it stands, and neither prose nor a block of the built-in commands
makes anything of it. It can only make a difference by being there: a block without any line comes
to nothing, and a block with a blank line is decoded.
-/

namespace LessonScript

open Text (Line)

namespace Heading

/-- The header of a block, and not one of the two markers. -/
def isBlock : Heading → Bool
  | .block .. => true
  | .title | .scene _ => false

variable (commands : CommandSet)

/-- The last line is the header of a block. -/
def EndsLines (lines : List Line) : Prop :=
  (lines.getLast?.bind (ofLine? commands)).any isBlock = true

/-- The first line is a marker or the header of a block. -/
def StartsLines (lines : List Line) : Prop :=
  (lines.head?.bind (ofLine? commands)).isSome = true

instance : DecidablePred (EndsLines commands) := fun lines =>
  inferInstanceAs (Decidable ((lines.getLast?.bind (ofLine? commands)).any isBlock = true))

instance : DecidablePred (StartsLines commands) := fun lines =>
  inferInstanceAs (Decidable ((lines.head?.bind (ofLine? commands)).isSome = true))

lemma EndsLines.cons {commands : CommandSet} {lines : List Line} (h : EndsLines commands lines)
    (line : Line) : EndsLines commands (line :: lines) := by
  cases lines with
  | nil => cases h
  | cons next rest =>
    rw [EndsLines, List.getLast?_cons_cons]
    exact h

end Heading

section Insertion

variable {commands : CommandSet} {metadata : Metadata}

/-- What the blocks of some commands contribute does not depend on their blank lines. -/
def CommandSet.IgnoresBlanks (commands : CommandSet) (metadata : Metadata) : Prop :=
  ∀ command ∈ commands.block, ∀ modifier (a b : List Line),
    Text.solidLines a = Text.solidLines b →
      Chunk.contribution commands metadata (command.decode a modifier) =
        Chunk.contribution commands metadata (command.decode b modifier)

namespace Chunk

/-- What each of some chunks contributes. -/
def contributions (commands : CommandSet) (metadata : Metadata) (chunks : List Chunk) :
    List (Bool → Option Scene × List Element) :=
  chunks.map fun chunk first => contributes commands metadata first chunk

/-- The scenes that chunks come to are told by what the chunks contribute. -/
lemma foldl_read_congr {xs ys : List Chunk}
    (h : contributions commands metadata xs = contributions commands metadata ys)
    (scenes : List Scene) :
    xs.foldl (read commands metadata) scenes = ys.foldl (read commands metadata) scenes := by
  have hread : ∀ chunks : List Chunk, chunks.foldl (read commands metadata) scenes =
      (contributions commands metadata chunks).foldl
        (fun scenes added => extend (scenes ++ (added scenes.isEmpty).1.toList)
          (added scenes.isEmpty).2) scenes := by
    intro chunks
    rw [contributions, List.foldl_map]
    rfl
  rw [hread, hread, h]

/-- Blank lines do not matter to a chunk, as long as a block does not lose all of its lines. -/
lemma contributes_congr (hc : commands.IgnoresBlanks metadata) {line : Line} {heading : Heading}
    (hl : Heading.ofLine? commands line = some heading) {a b : List Line}
    (hsolid : Text.solidLines a = Text.solidLines b)
    (hempty : heading.isBlock = true → (a = [] ↔ b = [])) (first : Bool) :
    contributes commands metadata first ⟨heading, a⟩ =
      contributes commands metadata first ⟨heading, b⟩ := by
  have hprose : commands.proseElements a = commands.proseElements b :=
    CommandSet.proseElements_congr_solid _ hsolid
  cases heading with
  | title => simp only [contributes, hprose]
  | scene name => simp only [contributes, hprose]
  | block command modifier =>
    simp only [contributes, hempty rfl]
    rw [hc command (Heading.of_block hl).1 modifier a b hsolid]

/-- Content comes first where lines do not start with a heading. -/
lemma cut_ne_nil {lines : List Line} (h : ¬ (lines = [] ∨ Heading.StartsLines commands lines)) :
    (cut commands lines).1 ≠ [] := by
  rw [not_or] at h
  cases lines with
  | nil => exact absurd rfl h.1
  | cons line rest =>
    cases hl : Heading.ofLine? commands line with
    | none =>
      rw [cut_content hl]
      exact List.cons_ne_nil _ _
    | some heading => exact absurd (by simp [Heading.StartsLines, hl]) h.2

variable {blank : Line} (hblank : Text.allBlank blank = true)
  (hcontent : Heading.ofLine? commands blank = none)

include hblank hcontent

/-- With a blank line more or less, the content before the first heading has the same solid lines,
and the chunks contribute the same. -/
lemma cut_insert (hc : commands.IgnoresBlanks metadata) {above below : List Line}
    (hkept : ¬ (Heading.EndsLines commands above ∧
      (below = [] ∨ Heading.StartsLines commands below))) :
    Text.solidLines (cut commands (above ++ blank :: below)).1 =
        Text.solidLines (cut commands (above ++ below)).1 ∧
      contributions commands metadata (cut commands (above ++ blank :: below)).2 =
        contributions commands metadata (cut commands (above ++ below)).2 ∧
      ((above = [] → ¬ (below = [] ∨ Heading.StartsLines commands below)) →
        ((cut commands (above ++ blank :: below)).1 = [] ↔
          (cut commands (above ++ below)).1 = [])) := by
  -- The last part is what a header right above needs to know, so it goes along in the induction.
  induction above with
  | nil =>
    rw [List.nil_append, List.nil_append, cut_content hcontent]
    refine ⟨Text.solidLines_cons_of_blank hblank _, rfl, fun hbelow => ?_⟩
    exact iff_of_false (List.cons_ne_nil _ _) (cut_ne_nil (hbelow rfl))
  | cons line rest ih =>
    have hrest : ¬ (Heading.EndsLines commands rest ∧
        (below = [] ∨ Heading.StartsLines commands below)) := by
      rintro ⟨hends, hbelow⟩
      exact hkept ⟨hends.cons line, hbelow⟩
    obtain ⟨hsolid, hchunks, hempty⟩ := ih hrest
    rw [List.cons_append, List.cons_append]
    cases hl : Heading.ofLine? commands line with
    | none =>
      rw [cut_content hl, cut_content hl]
      refine ⟨Text.solidLines_cons_congr hsolid line, hchunks, fun _ => ?_⟩
      exact iff_of_false (List.cons_ne_nil _ _) (List.cons_ne_nil _ _)
    | some heading =>
      rw [cut_heading hl, cut_heading hl]
      have hfirst : (fun first => contributes commands metadata first
            ⟨heading, (cut commands (rest ++ blank :: below)).1⟩) =
          fun first => contributes commands metadata first
            ⟨heading, (cut commands (rest ++ below)).1⟩ := by
        funext first
        refine contributes_congr hc hl hsolid (fun hblock => hempty ?_) first
        rintro rfl hbelow
        refine hkept ⟨?_, hbelow⟩
        simpa [Heading.EndsLines, hl] using hblock
      exact ⟨rfl, congrArg₂ List.cons hfirst hchunks, fun _ => Iff.rfl⟩

end Chunk

lemma Walk.scenesOf_insert {blank : Line} (hblank : Text.allBlank blank = true)
    (hcontent : Heading.ofLine? commands blank = none) (hc : commands.IgnoresBlanks metadata)
    {above below : List Line}
    (hkept : ¬ (Heading.EndsLines commands above ∧
      (below = [] ∨ Heading.StartsLines commands below))) :
    scenesOf commands metadata (above ++ blank :: below) =
      scenesOf commands metadata (above ++ below) := by
  obtain ⟨hsolid, hchunks, -⟩ := Chunk.cut_insert hblank hcontent hc hkept
  have hprose : commands.proseElements (Chunk.cut commands (above ++ blank :: below)).1 =
      commands.proseElements (Chunk.cut commands (above ++ below)).1 :=
    CommandSet.proseElements_congr_solid _ hsolid
  rw [scenesOf_eq, scenesOf_eq, Chunk.scenesOf, Chunk.scenesOf]
  simp only [hprose]
  exact Chunk.foldl_read_congr hchunks _

end Insertion

/-! ## The built-in commands -/

namespace Builtin

lemma header_of_blank {command : BlockCommand} (hc : command ∈ blockCommands) {line : Line}
    (hblank : Text.allBlank line = true) : command.header line = none := by
  -- A line that is a header holds the name of its command, and no name is blank.
  have hnames : ∀ command ∈ blockCommands, Text.allBlank command.name.toList = false := by decide
  cases hm : command.header line with
  | none => rfl
  | some modifier =>
    have hsub : command.name.toList ⊆ line := fun c hin =>
      (List.dropWhile_sublist _).subset
        (List.mem_of_mem_drop ((name_of_header hc hm).subset hin))
    have hname : Text.allBlank command.name.toList = true :=
      List.all_eq_true.2 fun c hin => List.all_eq_true.1 hblank c (hsub hin)
    rw [hnames command hc] at hname
    cases hname

lemma ofLine?_of_blank {line : Line} (hblank : Text.allBlank line = true) :
    Heading.ofLine? Registry.builtin.commandSet line = none := by
  have hlist : Registry.builtin.commandSet.block = blockCommands := block_builtin
  refine Heading.ofLine?_eq_none.2 ⟨?_, ?_, ?_⟩
  · rintro rfl
    exact absurd hblank (by decide)
  · have hmem : scene ∈ blockCommands :=
      List.mem_filterMap.2 ⟨.block scene, by simp [commands], rfl⟩
    have hscene : scene.header line = none := header_of_blank hmem hblank
    exact Option.map_eq_none_iff.1 hscene
  · rw [CommandSet.blockAt?, hlist, List.findSome?_eq_none_iff]
    intro command hc
    rw [header_of_blank hc hblank]
    rfl

lemma filterMap_solidLines (lines : List Line) :
    (Text.solidLines lines).filterMap (Text.after? "> ".toList) =
      lines.filterMap (Text.after? "> ".toList) := by
  rw [Text.solidLines, List.filterMap_filter]
  apply List.filterMap_congr
  intro line _
  cases hblank : Text.allBlank line with
  | false => rfl
  | true =>
    cases hquoted : Text.after? "> ".toList line with
    | none => rfl
    | some text =>
      rw [Text.after?_eq_some_iff.1 hquoted] at hblank
      cases hblank

lemma ignoresBlanks (metadata : Metadata) :
    Registry.builtin.commandSet.IgnoresBlanks metadata := by
  intro command hc modifier a b hsolid
  have hprose : Registry.builtin.commandSet.proseElements a =
      Registry.builtin.commandSet.proseElements b := CommandSet.proseElements_congr_solid _ hsolid
  rw [block_builtin] at hc
  simp only [List.mem_cons, List.not_mem_nil, or_false] at hc
  rcases hc with rfl | rfl | rfl | rfl | rfl | rfl
  · have htexts :
        a.filterMap (Text.after? "> ".toList) = b.filterMap (Text.after? "> ".toList) := by
      rw [← filterMap_solidLines, hsolid, filterMap_solidLines]
    simp only [quote, htexts]
  · simp only [practice, Text.filter_map_trim, hsolid]
  · simp only [word, Chunk.contribution, hprose]
  · simp only [closing, Chunk.contribution, hprose]
  · simp only [scene, Chunk.contribution, hprose]
  · rfl

end Builtin

/-- A line of white space may come and go anywhere in a body, except as the only line of a block. -/
theorem Walk.scenesOf_blank_line (metadata : Metadata) (above below : List Line) (blank : Line)
    (hblank : Text.allBlank blank = true)
    (hkept : ¬ (Heading.EndsLines Registry.builtin.commandSet above ∧
      (below = [] ∨ Heading.StartsLines Registry.builtin.commandSet below))) :
    scenesOf Registry.builtin.commandSet metadata (above ++ [blank] ++ below) =
      scenesOf Registry.builtin.commandSet metadata (above ++ below) := by
  rw [List.append_assoc, List.singleton_append]
  exact scenesOf_insert hblank (Builtin.ofLine?_of_blank hblank) (Builtin.ignoresBlanks metadata)
    hkept

/-- The blank line stands right below a header, but content follows it. -/
theorem Walk.scenesOf_blank_below_header :
    let above := ["# SCENE: One".toList, "## WORD: now".toList]
    let below := ["Look.".toList, "## QUOTE".toList]
    let scenes := scenesOf Registry.builtin.commandSet .empty
    Text.allBlank "\t ".toList = true ∧
      ¬ (Heading.EndsLines Registry.builtin.commandSet above ∧
        (below = [] ∨ Heading.StartsLines Registry.builtin.commandSet below)) ∧
      scenes (above ++ ["\t ".toList] ++ below) = scenes (above ++ below) := by
  intro above below scenes
  have hblank : Text.allBlank "\t ".toList = true := by decide
  have hkept : ¬ (Heading.EndsLines Registry.builtin.commandSet above ∧
      (below = [] ∨ Heading.StartsLines Registry.builtin.commandSet below)) := by
    decide +kernel
  exact ⟨hblank, hkept, scenesOf_blank_line .empty above below "\t ".toList hblank hkept⟩

/-- With a blank line as its only one a quote is there, without any pairs. -/
example :
    let quoteElements (lines : List Line) := (Walk.scenesOf Registry.builtin.commandSet .empty
      (["# SCENE: One".toList, "## QUOTE".toList] ++ lines)).map (·.elements.length)
    quoteElements [[]] = [1] ∧ quoteElements [] = [0] := by
  decide +kernel

end LessonScript
